/-
# RepoContract.Proofs.Text.LowerCase: lower case is reached at once

No lower form of the table is itself a capital, which is seen run by run: the lower forms of one
run and the capitals of another do not meet (`capitalRuns_apart`), or they are letters that take
turns. So what lower case yields is left as it is by lower case (`lower_lower`). Lower case makes
no white space either, so a name that is trimmed and put in lower case stays as it is when both
are done again (`lower_trim_lower_trim`), and it does not matter which of the two is done first
(`trim_lower`): white space separates words for the rule on a sigma as the ends of a text do. Lower
case keeps the white space around a text, so that the lower form of the trimmed text is another one
unless there is none (`lower_trim_eq_iff`).

The tables leave ASCII out, and ASCII letters are cased in either case. So a text comes to the same
in lower case whatever the case of its ASCII letters (`lower_map_toLower`).
-/
import Mathlib.Data.List.Basic
import RepoContract.Language.Table
import RepoContract.Proofs.Text.Blank

namespace RepoContract.Text

set_option autoImplicit false

/-! ## Runs of capitals -/

namespace CapitalRun

/-- The last lower form of a run. -/
def lastLower (run : CapitalRun) : Nat :=
  run.lower + (run.last - run.first)

/-- Whether no lower form of a run is a capital of another: they stand in different ranges, or the
two take turns in one range. -/
def isApart (run other : CapitalRun) : Bool :=
  Nat.blt other.last run.lower || Nat.blt run.lastLower other.first ||
    other.step == 2 && (run.step == 2 || run.first == run.last) &&
      (run.lower + other.first) % 2 == 1

/-- The ranges of code points that no lower form is in: white space, the capital sigma, what is
below the small letters of ASCII or above them in it, and what is no character. -/
def barred : List (Nat × Nat) :=
  [(0, 0x60), (0x7B, 0x85), (0xA0, 0xA0), (0x130, 0x130), (0x3A3, 0x3A3), (0x1680, 0x1680),
    (0x2000, 0x200A), (0x2028, 0x2029), (0x202F, 0x202F), (0x205F, 0x205F), (0x3000, 0x3000),
    (0xD800, 0xDFFF)]

/-- Whether the lower forms of a run are in no barred range. -/
def isSound (run : CapitalRun) : Bool :=
  run.lastLower < 0x110000 &&
    barred.all fun (low, high) => high < run.lower || run.lastLower < low

theorem lower?_eq_some_iff {run : CapitalRun} {code lower : Nat} :
    run.lower? code = some lower ↔ run.first ≤ code ∧ code ≤ run.last ∧
      (code - run.first) % run.step = 0 ∧ run.lower + (code - run.first) = lower := by
  unfold lower?
  split
  · next inRun =>
      simp only [Bool.and_eq_true, decide_eq_true_eq, beq_iff_eq] at inRun
      simp [inRun]
  · next notInRun =>
      simp only [Bool.and_eq_true, decide_eq_true_eq, beq_iff_eq] at notInRun
      simp only [reduceCtorEq, false_iff, not_and]
      intro notBelow notAbove inStep
      exact absurd ⟨⟨notBelow, notAbove⟩, inStep⟩ notInRun

/-- A lower form of a run is no capital of a run that is apart from it. -/
theorem lower?_eq_none {run other : CapitalRun} {code lower : Nat}
    (apart : run.isApart other = true) (isLower : run.lower? code = some lower) :
    other.lower? lower = none := by
  rw [Option.eq_none_iff_forall_ne_some]
  intro again isAgain
  obtain ⟨notBelow, notAbove, inStep, rfl⟩ := lower?_eq_some_iff.1 isLower
  obtain ⟨otherNotBelow, otherNotAbove, otherInStep, -⟩ := lower?_eq_some_iff.1 isAgain
  simp only [isApart, lastLower, Bool.or_eq_true, Bool.and_eq_true, Nat.blt_eq,
    beq_iff_eq] at apart
  rcases apart with (below | above) | ⟨⟨alternates, steps | single⟩, odd⟩
  · omega
  · omega
  · rw [steps] at inStep
    rw [alternates] at otherInStep
    omega
  · rw [alternates] at otherInStep
    omega

theorem notBarred_of_isSound {run : CapitalRun} {code lower : Nat} (sound : run.isSound = true)
    (isLower : run.lower? code = some lower) :
    lower < 0x110000 ∧ ∀ range ∈ barred, ¬ (range.1 ≤ lower ∧ lower ≤ range.2) := by
  obtain ⟨notBelow, notAbove, -, rfl⟩ := lower?_eq_some_iff.1 isLower
  simp only [isSound, Bool.and_eq_true, decide_eq_true_eq, List.all_eq_true, Bool.or_eq_true]
    at sound
  simp only [lastLower] at sound
  refine ⟨by omega, fun range isBarred inRange => ?_⟩
  rcases sound.2 range isBarred with below | above
  · omega
  · omega

end CapitalRun

/-! ## Characters -/

/-- A character that lower case leaves as it is, wherever it stands. -/
def IsSettled (c : Char) : Prop :=
  c ≠ '\u03A3' ∧ lowerChar c = [c]

instance (c : Char) : Decidable (IsSettled c) :=
  inferInstanceAs (Decidable (_ ∧ _))

theorem settled_ascii : ∀ code < 0x80, IsSettled (Char.ofNat code).toLower ∧
    (isBlank (Char.ofNat code) = false → isBlank (Char.ofNat code).toLower = false) := by
  decide +kernel

theorem settled_letter : ∀ code < 0x7B, 0x61 ≤ code →
    lowerChar (Char.ofNat code) = [Char.ofNat code] := by
  decide +kernel

/-- So is what stands in the place of a dotted capital or of a sigma, which is no white space. -/
theorem settled_special {c : Char} (isSpecial : c ∈ ['i', '\u0307', '\u03C2', '\u03C3']) :
    IsSettled c ∧ isBlank c = false := by
  have all : ['i', '\u0307', '\u03C2', '\u03C3'].all
      (fun c => IsSettled c ∧ isBlank c = false) = true := by
    decide +kernel
  exact of_decide_eq_true (List.all_eq_true.1 all c isSpecial)

/-- No lower form of the table is a capital of the table. -/
theorem capitalRuns_apart :
    (capitalRuns.all fun run => capitalRuns.all fun other => run.isApart other) = true := by
  decide +kernel

theorem capitalRuns_sound : capitalRuns.all CapitalRun.isSound = true := by
  decide +kernel

/-- A lower form of the table is settled, and it is no white space. -/
theorem settled_of_run {code lower : Nat}
    (isLower : capitalRuns.findSome? (·.lower? code) = some lower) :
    IsSettled (Char.ofNat lower) ∧ isBlank (Char.ofNat lower) = false := by
  obtain ⟨run, isRun, isLower⟩ := List.exists_of_findSome?_eq_some isLower
  have notCapital : capitalRuns.findSome? (·.lower? lower) = none := by
    rw [List.findSome?_eq_none_iff]
    intro other isOther
    have apart := List.all_eq_true.1 (List.all_eq_true.1 capitalRuns_apart run isRun) other isOther
    exact CapitalRun.lower?_eq_none apart isLower
  obtain ⟨isCode, notBarred⟩ := CapitalRun.notBarred_of_isSound
    (List.all_eq_true.1 capitalRuns_sound run isRun) isLower
  simp only [CapitalRun.barred, List.forall_mem_cons] at notBarred
  have toNat : (Char.ofNat lower).toNat = lower := by
    rw [Char.ofNat, dif_pos (by unfold Nat.isValidChar; omega)]
    rfl
  have differs (other : Char) (isOther : lower ≠ other.toNat) : Char.ofNat lower ≠ other :=
    fun same => isOther (by rw [← same, toNat])
  refine ⟨⟨differs '\u03A3' (show lower ≠ 0x3A3 by omega), ?_⟩, ?_⟩
  · by_cases isAscii : lower < 0x80
    · exact settled_letter lower (by omega) (by omega)
    · rw [lowerChar, toNat, if_neg isAscii,
        if_neg (differs '\u0130' (show lower ≠ 0x130 by omega)), notCapital]
  · simp only [isBlank, toNat, Bool.or_eq_false_iff, Bool.and_eq_false_iff,
      decide_eq_false_iff_not, beq_eq_false_iff_ne]
    omega

/-- What lower case makes of a character is settled, and it is white space only if the character
was. -/
theorem settled_of_mem_lowerChar {c d : Char} (notSigma : c ≠ '\u03A3')
    (isLower : d ∈ lowerChar c) : IsSettled d ∧ (isBlank c = false → isBlank d = false) := by
  by_cases isAscii : c.toNat < 0x80
  · rw [lowerChar, if_pos isAscii] at isLower
    have settled := settled_ascii c.toNat isAscii
    rw [Char.ofNat_toNat, ← List.mem_singleton.1 isLower] at settled
    exact settled
  · by_cases isDotted : c = '\u0130'
    · rw [lowerChar, if_neg isAscii, if_pos isDotted] at isLower
      have settled := settled_special (List.mem_append_left ['\u03C2', '\u03C3'] isLower)
      exact settled.imp_right fun notBlank _ => notBlank
    · cases found : capitalRuns.findSome? (·.lower? c.toNat) with
      | some lower =>
          rw [lowerChar, if_neg isAscii, if_neg isDotted, found, List.mem_singleton] at isLower
          rw [isLower]
          exact (settled_of_run found).imp_right fun notBlank _ => notBlank
      | none =>
          have same : lowerChar c = [c] := by
            rw [lowerChar, if_neg isAscii, if_neg isDotted, found]
          rw [same, List.mem_singleton] at isLower
          rw [isLower]
          exact ⟨⟨notSigma, same⟩, id⟩

theorem lowerChar_ne_nil (c : Char) : lowerChar c ≠ [] := by
  unfold lowerChar
  split
  · exact List.cons_ne_nil _ _
  · split
    · exact List.cons_ne_nil _ _
    · split <;> exact List.cons_ne_nil _ _

/-! ## Texts -/

/-- What lower case puts in the place of one character of a text. -/
def lowerAt (before : List Char) (c : Char) (rest : List Char) : List Char :=
  if c = '\u03A3' then [if meetsCased before && !meetsCased rest then '\u03C2' else '\u03C3']
  else lowerChar c

theorem lowerFrom_cons (before : List Char) (c : Char) (rest : List Char) :
    lowerFrom before (c :: rest) = lowerAt before c rest ++ lowerFrom (c :: before) rest := by
  rw [lowerFrom, lowerAt]

theorem settled_of_mem_lowerAt {before rest : List Char} {c d : Char}
    (isLower : d ∈ lowerAt before c rest) :
    IsSettled d ∧ (isBlank c = false → isBlank d = false) := by
  by_cases isSigma : c = '\u03A3'
  · rw [lowerAt, if_pos isSigma, List.mem_singleton] at isLower
    have settled : IsSettled d ∧ isBlank d = false := by
      refine settled_special ?_
      rw [isLower]
      split <;> decide
    exact settled.imp_right fun notBlank _ => notBlank
  · rw [lowerAt, if_neg isSigma] at isLower
    exact settled_of_mem_lowerChar isSigma isLower

theorem lowerAt_ne_nil (before : List Char) (c : Char) (rest : List Char) :
    lowerAt before c rest ≠ [] := by
  unfold lowerAt
  split
  · exact List.cons_ne_nil _ _
  · exact lowerChar_ne_nil c

theorem settled_of_mem_lowerFrom {before text : List Char} {d : Char}
    (isLower : d ∈ lowerFrom before text) : IsSettled d := by
  induction text generalizing before with
  | nil => simp [lowerFrom] at isLower
  | cons c rest ih =>
      rw [lowerFrom_cons, List.mem_append] at isLower
      rcases isLower with here | behind
      · exact (settled_of_mem_lowerAt here).1
      · exact ih behind

theorem lowerFrom_eq_self {before text : List Char} (settled : ∀ c ∈ text, IsSettled c) :
    lowerFrom before text = text := by
  induction text generalizing before with
  | nil => rw [lowerFrom]
  | cons c rest ih =>
      obtain ⟨⟨notSigma, same⟩, restSettled⟩ := List.forall_mem_cons.1 settled
      rw [lowerFrom_cons, lowerAt, if_neg notSigma, same, ih restSettled]
      rfl

/-- **Lower case leaves a text in lower case as it is.** -/
theorem lower_lower (text : List Char) : lower (lower text) = lower text :=
  lowerFrom_eq_self fun _ isLower => settled_of_mem_lowerFrom isLower

/-! ## Trimmed texts -/

theorem not_isBlank_last_lowerFrom {before text : List Char}
    (last : ∀ c ∈ text.getLast?, isBlank c = false) :
    ∀ c ∈ (lowerFrom before text).getLast?, isBlank c = false := by
  induction text generalizing before with
  | nil => simp [lowerFrom]
  | cons c rest ih =>
      cases rest with
      | nil =>
          intro d isLast
          rw [lowerFrom_cons, lowerFrom, List.append_nil] at isLast
          exact (settled_of_mem_lowerAt (List.mem_of_getLast? isLast)).2 (last c rfl)
      | cons next more =>
          have filled : lowerFrom (c :: before) (next :: more) ≠ [] := by
            rw [lowerFrom_cons]
            exact List.append_ne_nil_of_left_ne_nil (lowerAt_ne_nil _ _ _) _
          rw [lowerFrom_cons, List.getLast?_append_of_ne_nil _ filled]
          exact ih (by rwa [List.getLast?_cons_cons] at last)

/-- Lower case makes no white space. -/
theorem IsTrim.lower {text : List Char} (isTrim : IsTrim text) : IsTrim (lower text) := by
  refine ⟨fun d isHead => ?_, not_isBlank_last_lowerFrom isTrim.last⟩
  cases text with
  | nil => simp [Text.lower, lowerFrom] at isHead
  | cons c rest =>
      rw [Text.lower, lowerFrom_cons,
        List.head?_append_of_ne_nil _ (lowerAt_ne_nil _ _ _)] at isHead
      exact (settled_of_mem_lowerAt (List.mem_of_head? isHead)).2 (isTrim.head c rfl)

/-- **A text that is trimmed and put in lower case stays as it is when both are done again.** -/
theorem lower_trim_lower_trim (text : List Char) :
    lower (trim (lower (trim text))) = lower (trim text) := by
  rw [(isTrim_trim text).lower.trim_eq, lower_lower]

/-! ## White space around a text -/

/-- The code points of white space. -/
def blankCodes : List Nat :=
  [0x9, 0xA, 0xB, 0xC, 0xD, 0x20, 0x85, 0xA0, 0x1680, 0x2000, 0x2001, 0x2002, 0x2003, 0x2004,
    0x2005, 0x2006, 0x2007, 0x2008, 0x2009, 0x200A, 0x2028, 0x2029, 0x202F, 0x205F, 0x3000]

theorem mem_blankCodes {c : Char} (blank : isBlank c = true) : c.toNat ∈ blankCodes := by
  simp only [isBlank, Bool.or_eq_true, Bool.and_eq_true, decide_eq_true_eq, beq_iff_eq] at blank
  simp only [blankCodes, List.mem_cons, List.not_mem_nil, or_false]
  omega

theorem settled_blankCodes : ∀ code ∈ blankCodes, IsSettled (Char.ofNat code) ∧
    isCased (Char.ofNat code) = false ∧ isCaseIgnorable (Char.ofNat code) = false := by
  decide +kernel

/-- White space is settled, and a search for a cased character ends there and finds none. -/
theorem settled_of_isBlank {c : Char} (blank : isBlank c = true) :
    IsSettled c ∧ isCased c = false ∧ isCaseIgnorable c = false := by
  have settled := settled_blankCodes c.toNat (mem_blankCodes blank)
  rwa [Char.ofNat_toNat] at settled

theorem meetsCased_append_blank (text : List Char) {blanks : List Char}
    (blank : ∀ c ∈ blanks, isBlank c = true) : meetsCased (text ++ blanks) = meetsCased text := by
  cases blanks with
  | nil => rw [List.append_nil]
  | cons c more =>
      obtain ⟨-, notCased, notIgnorable⟩ := settled_of_isBlank (blank c List.mem_cons_self)
      have stops : (c :: more).dropWhile isCaseIgnorable = c :: more :=
        List.dropWhile_cons_of_neg (by simp [notIgnorable])
      rw [meetsCased, meetsCased, List.dropWhile_append, stops]
      cases text.dropWhile isCaseIgnorable with
      | nil => exact notCased
      | cons first rest => rfl

/-- White space behind a text does not change what lower case makes of it, nor itself. -/
theorem lowerFrom_append_blank (before text : List Char) {blanks : List Char}
    (blank : ∀ c ∈ blanks, isBlank c = true) :
    lowerFrom before (text ++ blanks) = lowerFrom before text ++ blanks := by
  induction text generalizing before with
  | nil => exact lowerFrom_eq_self fun c isIn => (settled_of_isBlank (blank c isIn)).1
  | cons c rest ih =>
      have here : lowerAt before c (rest ++ blanks) = lowerAt before c rest := by
        rw [lowerAt, lowerAt, meetsCased_append_blank rest blank]
      rw [List.cons_append, lowerFrom_cons, lowerFrom_cons, here, ih, List.append_assoc]

/-- White space in front of what stands before a text does not matter to the text. -/
theorem lowerFrom_behind_blank (before text : List Char) {blanks : List Char}
    (blank : ∀ c ∈ blanks, isBlank c = true) :
    lowerFrom (before ++ blanks) text = lowerFrom before text := by
  induction text generalizing before with
  | nil => rfl
  | cons c rest ih =>
      have here : lowerAt (before ++ blanks) c rest = lowerAt before c rest := by
        rw [lowerAt, lowerAt, meetsCased_append_blank before blank]
      rw [lowerFrom_cons, lowerFrom_cons, here, ← List.cons_append, ih]

theorem lowerFrom_blank_append (before text : List Char) {blanks : List Char}
    (blank : ∀ c ∈ blanks, isBlank c = true) :
    lowerFrom before (blanks ++ text) = blanks ++ lowerFrom (blanks.reverse ++ before) text := by
  induction blanks generalizing before with
  | nil => rfl
  | cons c rest ih =>
      obtain ⟨here, restBlank⟩ := List.forall_mem_cons.1 blank
      obtain ⟨⟨notSigma, same⟩, -⟩ := settled_of_isBlank here
      rw [List.cons_append, lowerFrom_cons, lowerAt, if_neg notSigma, same, ih _ restBlank]
      simp

/-- **Lower case goes past white space around a text.** -/
theorem lower_padded {front back : List Char} (frontBlank : ∀ c ∈ front, isBlank c = true)
    (backBlank : ∀ c ∈ back, isBlank c = true) (text : List Char) :
    lower (front ++ (text ++ back)) = front ++ (lower text ++ back) := by
  have frontReversed : ∀ c ∈ front.reverse, isBlank c = true := fun c isIn =>
    frontBlank c (List.mem_reverse.1 isIn)
  rw [lower, lowerFrom_blank_append _ _ frontBlank, List.append_nil,
    lowerFrom_append_blank _ _ backBlank, lower]
  congr 2
  exact lowerFrom_behind_blank [] text frontReversed

/-- **It does not matter whether a text is trimmed before it is put in lower case or after.** -/
theorem trim_lower (text : List Char) : trim (lower text) = lower (trim text) := by
  obtain ⟨front, back, isText, frontBlank, backBlank⟩ := exists_padding text
  calc trim (lower text)
      = trim (front ++ (lower (trim text) ++ back)) := by
        conv_lhs => rw [isText]
        rw [lower_padded frontBlank backBlank]
    _ = trim (lower (trim text)) := trim_padded frontBlank backBlank _
    _ = lower (trim text) := (isTrim_trim text).lower.trim_eq

/-- **Trimming changes the lower form of a text unless there is no white space around it.** -/
theorem lower_trim_eq_iff {text : List Char} : lower (trim text) = lower text ↔ IsTrim text := by
  constructor
  · intro same
    obtain ⟨front, back, isText, frontBlank, backBlank⟩ := exists_padding text
    have padded : lower text = front ++ (lower (trim text) ++ back) := by
      conv_lhs => rw [isText]
      exact lower_padded frontBlank backBlank _
    -- the white space would make the lower form longer
    have noRoom := congrArg List.length padded
    rw [same, List.length_append, List.length_append] at noRoom
    have noFront : front = [] := List.eq_nil_of_length_eq_zero (by omega)
    have noBack : back = [] := List.eq_nil_of_length_eq_zero (by omega)
    rw [isText, noFront, noBack, List.append_nil]
    exact isTrim_trim text
  · intro isTrim
    rw [isTrim.trim_eq]

/-! ## The case of ASCII letters -/

theorem alike_ascii : ∀ code < 0x80,
    isCased (Char.ofNat code).toLower = isCased (Char.ofNat code) ∧
      isCaseIgnorable (Char.ofNat code).toLower = isCaseIgnorable (Char.ofNat code) ∧
      lowerChar (Char.ofNat code).toLower = lowerChar (Char.ofNat code) ∧
      ((Char.ofNat code).toLower = '\u03A3' ↔ Char.ofNat code = '\u03A3') := by
  decide +kernel

/-- Nothing that lower case looks at tells an ASCII letter from its lower form. -/
theorem alike_toLower (c : Char) :
    isCased c.toLower = isCased c ∧ isCaseIgnorable c.toLower = isCaseIgnorable c ∧
      lowerChar c.toLower = lowerChar c ∧ (c.toLower = '\u03A3' ↔ c = '\u03A3') := by
  by_cases isAscii : c.toNat < 0x80
  · have same := alike_ascii c.toNat isAscii
    rwa [Char.ofNat_toNat] at same
  · have isOther : ¬ (c.val ≥ 'A'.val ∧ c.val ≤ 'Z'.val) := by
      rintro ⟨-, notAbove⟩
      have bound : c.toNat ≤ 'Z'.toNat := UInt32.le_iff_toNat_le.1 notAbove
      have last : 'Z'.toNat = 0x5A := rfl
      omega
    have same : c.toLower = c := dif_neg isOther
    rw [same]
    exact ⟨rfl, rfl, rfl, Iff.rfl⟩

theorem meetsCased_map_toLower (text : List Char) :
    meetsCased (text.map Char.toLower) = meetsCased text := by
  have same : isCaseIgnorable ∘ Char.toLower = isCaseIgnorable :=
    funext fun c => (alike_toLower c).2.1
  rw [meetsCased, meetsCased, List.dropWhile_map, same]
  cases text.dropWhile isCaseIgnorable with
  | nil => rfl
  | cons c rest => exact (alike_toLower c).1

theorem lowerFrom_map_toLower (before text : List Char) :
    lowerFrom (before.map Char.toLower) (text.map Char.toLower) = lowerFrom before text := by
  induction text generalizing before with
  | nil => rfl
  | cons c rest ih =>
      have here : lowerAt (before.map Char.toLower) c.toLower (rest.map Char.toLower) =
          lowerAt before c rest := by
        obtain ⟨-, -, sameLower, sameSigma⟩ := alike_toLower c
        simp only [lowerAt, sameSigma, meetsCased_map_toLower, sameLower]
      have behind := ih (c :: before)
      rw [List.map_cons] at behind
      rw [List.map_cons, lowerFrom_cons, lowerFrom_cons, here, behind]

/-- **The case of ASCII letters does not matter to lower case**, not even to the form of a sigma
beside them. -/
theorem lower_map_toLower (text : List Char) : lower (text.map Char.toLower) = lower text :=
  lowerFrom_map_toLower [] text

end RepoContract.Text

namespace RepoContract

/-- A name as it is looked up is looked up as it is. -/
theorem plainName_plainName (name : String) : plainName (plainName name) = plainName name := by
  rw [plainName, plainName, String.toList_ofList, Text.lower_trim_lower_trim]

/-- Names that are the same in lower case are looked up alike, whatever white space they have around
them. -/
theorem plainName_of_lowerName {name other : String} (same : lowerName name = lowerName other) :
    plainName name = plainName other := by
  have sameText := congrArg String.toList same
  rw [lowerName, lowerName, String.toList_ofList, String.toList_ofList] at sameText
  rw [plainName, plainName, ← Text.trim_lower, ← Text.trim_lower, sameText]

end RepoContract
