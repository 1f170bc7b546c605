/-
# RepoContract.Proofs.Glob.Spans: what a glob stands for

`Glob.isMatch` moves marks over all places of a path at once. `Token.Takes` says of a token which
byte strings it stands for instead, and `RowTakes` of tokens in a row that a byte string splits into
one for each of them. Neither knows of places, since a token looks at nothing around what it takes.

Marks are moved over just these byte strings (`Token.moves`, `moves_moveRow`): a place is marked
behind a token if a string that the token takes leads there from a place that was marked in front of
it. A move is put together from few others, each told by such strings alone (`Marks.Moves`). So
tokens take a path from its start to its end just if they take its bytes (`isWhole_iff`), leading
directories alone excepted, which match everything.
-/
import Mathlib.Data.List.Basic
import RepoContract.Glob.Match

namespace RepoContract.Glob

set_option autoImplicit false

/-! ## What tokens take -/

mutual

/-- The byte strings that a token stands for. -/
def Token.Takes : Token → List UInt8 → Prop
  | .char c, span => span = Text.Utf8.encode [c]
  | .anyByte, span => ∃ b, span = [b]
  | .anyRun, _ => True
  | .leadingDirs, span => span = [] ∨ ∃ dirs, span = dirs ++ [Path.slash]
  | .trailingDirs, span => ∃ below, span = Path.slash :: below
  | .innerDirs, span => span = [Path.slash] ∨ ∃ dirs, span = Path.slash :: (dirs ++ [Path.slash])
  | .oneOf negated ranges, span => ∃ b, span = [b] ∧ classHas negated (byteRanges ranges) b = true
  | .branches alternatives, span =>
    if allHollow alternatives then span = [] else BranchTakes alternatives span

/-- The byte strings that tokens in a row stand for. -/
def RowTakes : List Token → List UInt8 → Prop
  | [], span => span = []
  | token :: rest, span =>
    ∃ left right, span = left ++ right ∧ token.Takes left ∧ RowTakes rest right

/-- The byte strings that one of some branches stands for; a branch with nothing in it is none. -/
def BranchTakes : List (List Token) → List UInt8 → Prop
  | [], _ => False
  | tokens :: rest, span =>
    (isHollowGlob tokens = false ∧ RowTakes tokens span) ∨ BranchTakes rest span

end

/-! ## Marks -/

namespace Marks

variable {bytes : List UInt8} {takes others : List UInt8 → Prop} {marks moved further : Marks}
  {place : Nat}

/-- A place is marked. -/
def Has (marks : Marks) (place : Nat) : Prop :=
  marks[place]? = some true

/-- There is a mark for each place of a byte string. -/
def Fits (bytes : List UInt8) (marks : Marks) : Prop :=
  marks.length = bytes.length + 1

theorem Has.lt (has : marks.Has place) : place < marks.length :=
  (List.getElem?_eq_some_iff.1 has).1

/-- A marked place splits the byte string. -/
theorem Fits.exists_front (fits : marks.Fits bytes) (has : marks.Has place) :
    ∃ front behind, bytes = front ++ behind ∧ front.length = place := by
  have inside := has.lt
  rw [fits] at inside
  exact ⟨bytes.take place, bytes.drop place, (List.take_append_drop _ _).symm,
    List.length_take_of_le (Nat.le_of_lt_succ inside)⟩

theorem has_pass (accepts : UInt8 → Bool) :
    (marks.pass accepts bytes).Has place ↔
      ∃ count b, place = count + 1 ∧ bytes[count]? = some b ∧ marks.Has count ∧
        accepts b = true := by
  cases place with
  | zero => simp [Has, pass]
  | succ count =>
      have moved : (marks.pass accepts bytes).Has (count + 1) ↔
          ∃ b, bytes[count]? = some b ∧ marks.Has count ∧ accepts b = true := by
        simp only [Has, pass, List.getElem?_cons_succ, List.getElem?_zipWith]
        cases bytes[count]? <;> cases marks[count]? <;> simp
      rw [moved]
      constructor
      · rintro ⟨b, isByte, has, accepted⟩
        exact ⟨count, b, rfl, isByte, has, accepted⟩
      · rintro ⟨_, b, same, isByte, has, accepted⟩
        obtain rfl := Nat.succ.inj same
        exact ⟨b, isByte, has, accepted⟩

theorem has_spreadFrom (reached : Bool) :
    Has (spreadFrom reached marks) place ↔
      place < marks.length ∧ (reached = true ∨ ∃ count ≤ place, marks.Has count) := by
  induction marks generalizing reached place with
  | nil => simp [Has, spreadFrom]
  | cons mark rest ih =>
      cases place with
      | zero => simp [Has, spreadFrom]
      | succ count =>
          have later : Has (spreadFrom reached (mark :: rest)) (count + 1) ↔
              Has (spreadFrom (reached || mark) rest) count := Iff.rfl
          rw [later, ih, List.length_cons, Nat.succ_lt_succ_iff, Bool.or_eq_true, or_assoc]
          refine and_congr_right fun _ => or_congr_right ?_
          constructor
          · rintro (rfl | ⟨earlier, before, has⟩)
            · exact ⟨0, Nat.zero_le _, rfl⟩
            · exact ⟨earlier + 1, Nat.succ_le_succ before, has⟩
          · rintro ⟨earlier, before, has⟩
            cases earlier with
            | zero => exact .inl (Option.some.inj has)
            | succ earlier => exact .inr ⟨earlier, Nat.le_of_succ_le_succ before, has⟩

theorem has_union (sameLength : moved.length = further.length) :
    (moved.union further).Has place ↔ moved.Has place ∨ further.Has place := by
  simp only [Has, union, List.getElem?_zipWith]
  by_cases inside : place < moved.length
  · rw [List.getElem?_eq_getElem inside, List.getElem?_eq_getElem (sameLength ▸ inside)]
    simp
  · rw [List.getElem?_eq_none (Nat.le_of_not_lt inside),
      List.getElem?_eq_none (sameLength ▸ Nat.le_of_not_lt inside)]
    simp

/-- Marks are moved over the byte strings that are taken: a place is marked behind the move if such
a string leads there from one that was marked in front of it. -/
structure Moves (bytes : List UInt8) (takes : List UInt8 → Prop) (marks moved : Marks) : Prop where
  fits : moved.Fits bytes
  has_iff : ∀ place, moved.Has place ↔ ∃ front span behind, bytes = front ++ (span ++ behind) ∧
    marks.Has front.length ∧ takes span ∧ place = front.length + span.length

namespace Moves

theorem congr (moves : Moves bytes takes marks moved) (same : ∀ span, takes span ↔ others span) :
    Moves bytes others marks moved := by
  obtain rfl : takes = others := funext fun span => propext (same span)
  exact moves

theorem stay (fits : marks.Fits bytes) : Moves bytes (· = []) marks marks where
  fits := fits
  has_iff place := by
    constructor
    · intro has
      obtain ⟨front, behind, isBytes, rfl⟩ := fits.exists_front has
      exact ⟨front, [], behind, isBytes, has, rfl, rfl⟩
    · rintro ⟨front, _, behind, -, has, rfl, rfl⟩
      exact has

theorem none (fits : marks.Fits bytes) :
    Moves bytes (fun _ => False) marks (marks.map fun _ => false) where
  fits := (List.length_map _).trans fits
  has_iff place := by
    refine iff_of_false ?_ (by simp)
    rw [Has, List.getElem?_map]
    cases marks[place]? <;> simp

theorem pass (fits : marks.Fits bytes) (accepts : UInt8 → Bool) :
    Moves bytes (fun span => ∃ b, span = [b] ∧ accepts b = true) marks (marks.pass accepts bytes)
    where
  fits := by
    rw [Fits] at fits ⊢
    simp [Marks.pass, fits]
  has_iff place := by
    rw [has_pass]
    constructor
    · rintro ⟨count, b, rfl, isByte, has, accepted⟩
      obtain ⟨inside, rfl⟩ := List.getElem?_eq_some_iff.1 isByte
      have isFront : (bytes.take count).length = count :=
        List.length_take_of_le (Nat.le_of_lt inside)
      refine ⟨bytes.take count, [bytes[count]], bytes.drop (count + 1), ?_, ?_, ⟨_, rfl, accepted⟩,
        by rw [isFront]; rfl⟩
      · rw [List.singleton_append, ← List.drop_eq_getElem_cons inside, List.take_append_drop]
      · rwa [isFront]
    · rintro ⟨front, _, behind, rfl, has, ⟨b, rfl, accepted⟩, rfl⟩
      exact ⟨front.length, b, rfl, by simp, has, accepted⟩

theorem spread (fits : marks.Fits bytes) : Moves bytes (fun _ => True) marks marks.spread where
  fits := by
    have length (reached : Bool) (marks : Marks) :
        (spreadFrom reached marks).length = marks.length := by
      induction marks generalizing reached with
      | nil => rfl
      | cons mark rest ih => rw [spreadFrom, List.length_cons, ih, List.length_cons]
    exact (length false marks).trans fits
  has_iff place := by
    rw [Marks.spread, has_spreadFrom, fits]
    constructor
    · rintro ⟨inside, reached | ⟨count, before, has⟩⟩
      · contradiction
      · obtain ⟨front, rest, rfl, rfl⟩ := fits.exists_front has
        rw [List.length_append] at inside
        refine ⟨front, rest.take (place - front.length), rest.drop (place - front.length), ?_, has,
          trivial, ?_⟩
        · rw [List.take_append_drop]
        · rw [List.length_take]
          omega
    · rintro ⟨front, span, behind, rfl, has, -, rfl⟩
      refine ⟨?_, .inr ⟨front.length, Nat.le_add_right _ _, has⟩⟩
      simp only [List.length_append]
      omega

theorem union (first : Moves bytes takes marks moved) (second : Moves bytes others marks further) :
    Moves bytes (fun span => takes span ∨ others span) marks (moved.union further) where
  fits := by
    have firstFits := first.fits
    have secondFits := second.fits
    rw [Fits] at firstFits secondFits ⊢
    simp [Marks.union, firstFits, secondFits]
  has_iff place := by
    rw [has_union (first.fits.trans second.fits.symm), first.has_iff, second.has_iff]
    simp only [or_and_right, and_or_left, exists_or]

/-- One move behind another takes what the first takes and then what the second takes. -/
theorem trans (first : Moves bytes takes marks moved) (second : Moves bytes others moved further) :
    Moves bytes (fun span => ∃ left right, span = left ++ right ∧ takes left ∧ others right) marks
      further where
  fits := second.fits
  has_iff place := by
    rw [second.has_iff]
    constructor
    · rintro ⟨middle, right, behind, isBytes, isMoved, taken, rfl⟩
      obtain ⟨front, left, rest, isFront, has, takenFirst, sameLength⟩ :=
        (first.has_iff _).1 isMoved
      have sameBytes : middle ++ (right ++ behind) = (front ++ left) ++ rest := by
        rw [← isBytes, isFront, List.append_assoc]
      obtain rfl : middle = front ++ left :=
        (List.append_inj sameBytes (by rw [sameLength, List.length_append])).1
      exact ⟨front, left ++ right, behind, by simp [isBytes], has,
        ⟨left, right, rfl, takenFirst, taken⟩, by simp [Nat.add_assoc]⟩
    · rintro ⟨front, _, behind, isBytes, has, ⟨left, right, rfl, takenFirst, taken⟩, rfl⟩
      refine ⟨front ++ left, right, behind, by simp [isBytes], ?_, taken, by simp [Nat.add_assoc]⟩
      exact (first.has_iff _).2 ⟨front, left, right ++ behind, by simp [isBytes], has, takenFirst,
        List.length_append⟩

theorem passSlash (fits : marks.Fits bytes) :
    Moves bytes (· = [Path.slash]) marks (marks.passSlash bytes) :=
  (pass fits _).congr fun span => by simp

/-- A byte string that stands for itself is passed byte by byte. -/
theorem passAll (fits : marks.Fits bytes) (word : List UInt8) :
    Moves bytes (· = word) marks
      (word.foldl (fun marks own => marks.pass (· == own) bytes) marks) := by
  induction word generalizing marks with
  | nil => exact stay fits
  | cons own word ih =>
      have first := pass fits (· == own)
      exact (first.trans (ih first.fits)).congr fun span => by simp

end Moves

theorem fits_atStart (bytes : List UInt8) : (atStart bytes).Fits bytes := by
  simp [Fits, atStart]

theorem has_atStart : (atStart bytes).Has place ↔ place = 0 := by
  cases place with
  | zero => simp [Has, atStart]
  | succ count =>
      simp only [Has, atStart, List.getElem?_cons_succ, List.getElem?_map, Nat.succ_ne_zero,
        iff_false]
      cases bytes[count]? <;> simp

end Marks

/-! ## Globs -/

open Marks (Moves)

variable {bytes : List UInt8}

mutual

/-- **A token moves marks over what it takes.** -/
theorem Token.moves : (token : Token) → {marks : Marks} → marks.Fits bytes →
    Moves bytes token.Takes marks (token.move bytes marks)
  | .char c, _, fits => (Moves.passAll fits _).congr fun span => by rw [Token.Takes]
  | .anyByte, _, fits => (Moves.pass fits _).congr fun span => by simp [Token.Takes]
  | .anyRun, _, fits => (Moves.spread fits).congr fun span => by rw [Token.Takes]
  | .leadingDirs, _, fits =>
    have spread := Moves.spread fits
    ((Moves.stay fits).union (spread.trans (.passSlash spread.fits))).congr fun span => by
      simp [Token.Takes]
  | .trailingDirs, _, fits =>
    have slash := Moves.passSlash fits
    (slash.trans (.spread slash.fits)).congr fun span => by simp [Token.Takes]
  | .innerDirs, _, fits =>
    have slash := Moves.passSlash fits
    have spread := Moves.spread slash.fits
    (slash.union ((slash.trans spread).trans (.passSlash spread.fits))).congr fun span => by
      simp [Token.Takes]
  | .oneOf negated ranges, _, fits => (Moves.pass fits _).congr fun span => by rw [Token.Takes]
  | .branches alternatives, _, fits => by
    rw [Token.move]
    split
    · next hollow => exact (Moves.stay fits).congr fun span => by rw [Token.Takes, if_pos hollow]
    · next filled =>
      exact (moves_moveBranches alternatives fits).congr fun span => by
        rw [Token.Takes, if_neg filled]

theorem moves_moveRow : (tokens : List Token) → {marks : Marks} → marks.Fits bytes →
    Moves bytes (RowTakes tokens) marks (moveRow bytes tokens marks)
  | [], _, fits => (Moves.stay fits).congr fun span => by rw [RowTakes]
  | token :: rest, _, fits =>
    have first := token.moves fits
    (first.trans (moves_moveRow rest first.fits)).congr fun span => by rw [RowTakes]

theorem moves_moveBranches : (alternatives : List (List Token)) → {marks : Marks} →
    marks.Fits bytes →
    Moves bytes (BranchTakes alternatives) marks (moveBranches bytes alternatives marks)
  | [], _, fits => (Moves.none fits).congr fun span => by rw [BranchTakes]
  | tokens :: rest, _, fits => by
    have others := moves_moveBranches rest fits
    rw [moveBranches]
    split
    · next hollow => exact others.congr fun span => by simp [BranchTakes, hollow]
    · next filled =>
      exact ((moves_moveRow tokens fits).union others).congr fun span => by
        simp [BranchTakes, filled]

end

/-- **Tokens take a byte string from its start to its end just if they stand for it.** -/
theorem isWhole_iff {tokens : List Token} (filled : tokens ≠ [.leadingDirs])
    (bytes : List UInt8) : isWhole tokens bytes = true ↔ RowTakes tokens bytes := by
  have moves := moves_moveRow tokens (Marks.fits_atStart bytes)
  have atEnd : isWhole tokens bytes = true ↔
      Marks.Has (moveRow bytes tokens (Marks.atStart bytes)) bytes.length := by
    have isLast : bytes.length = (moveRow bytes tokens (Marks.atStart bytes)).length - 1 := by
      rw [moves.fits, Nat.add_sub_cancel]
    rw [isWhole, Marks.Has, isLast, ← List.getLast?_eq_getElem?, List.getLastD_eq_getLast?]
    · cases (moveRow bytes tokens (Marks.atStart bytes)).getLast? <;> simp
    · exact filled
  rw [atEnd, moves.has_iff]
  constructor
  · rintro ⟨front, span, behind, isBytes, has, taken, isLength⟩
    obtain rfl := List.length_eq_zero_iff.1 (Marks.has_atStart.1 has)
    have none : behind = [] := by
      rw [isBytes] at isLength
      simpa using isLength
    rwa [isBytes, none, List.nil_append, List.append_nil]
  · intro taken
    exact ⟨[], bytes, [], by simp, Marks.has_atStart.2 rfl, taken, by simp⟩

/-! ## Rows -/

variable {span : List UInt8}

/-- Characters in a row stand for their bytes. -/
theorem rowTakes_chars (word : List Char) (rest : List Token) :
    RowTakes (word.map .char ++ rest) span ↔
      ∃ more, span = Text.Utf8.encode word ++ more ∧ RowTakes rest more := by
  induction word generalizing span with
  | nil => simp [Text.Utf8.encode]
  | cons c word ih =>
      have isFirst : Text.Utf8.encode (c :: word) =
          Text.Utf8.encode [c] ++ Text.Utf8.encode word := by
        simp [Text.Utf8.encode]
      rw [List.map_cons, List.cons_append, RowTakes, isFirst]
      simp only [ih, Token.Takes]
      constructor
      · rintro ⟨_, _, rfl, rfl, more, rfl, taken⟩
        exact ⟨more, by simp, taken⟩
      · rintro ⟨more, rfl, taken⟩
        exact ⟨_, _, List.append_assoc .., rfl, more, rfl, taken⟩

/-- **A row of characters between two runs looks for them anywhere**, as a run takes slashes too. -/
theorem rowTakes_within (word : List Char) :
    RowTakes (.leadingDirs :: .anyRun :: (word.map .char ++ [.anyRun])) span ↔
      Text.Utf8.encode word <:+: span := by
  have behind {span : List UInt8} : RowTakes (word.map .char ++ [.anyRun]) span ↔
      Text.Utf8.encode word <+: span := by
    rw [rowTakes_chars]
    simp [RowTakes, Token.Takes, List.IsPrefix, eq_comm]
  simp only [RowTakes, Token.Takes, behind, true_and]
  constructor
  · rintro ⟨dirs, _, rfl, -, run, _, rfl, more, rfl⟩
    exact ⟨dirs ++ run, more, by simp⟩
  · rintro ⟨run, more, rfl⟩
    exact ⟨[], _, rfl, .inl rfl, run, _, List.append_assoc .., more, rfl⟩

end RepoContract.Glob
