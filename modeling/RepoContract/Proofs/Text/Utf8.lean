/-
# RepoContract.Proofs.Text.Utf8: text that is written is read back

The bytes of a character begin with one that announces how many follow, and each of these carries
six bits. The ranges of an announcement are narrow enough to leave out overlong forms and
surrogates and wide enough for the bytes of every character, so one step reads a character back
(`step_utf8EncodeChar`), and both readers give back the text that was written (`decode?_encode`,
`decodeLossy_encode`). They are narrow enough for the way back too: what one step reads is the
character that was written there (`utf8EncodeChar_of_step`), so bytes that are read as a text are
the bytes of that text and of no other (`encode_of_decode?`).
-/
import Mathlib.Tactic.IntervalCases
import RepoContract.Text.Utf8

namespace RepoContract.Text.Utf8

set_option autoImplicit false

/-! ## Announcements -/

theorem announced?_two {byte : Nat} (low : 0xC2 ≤ byte) (high : byte ≤ 0xDF) :
    announced? byte = some ⟨1, 0x80, 0xBF, byte - 0xC0⟩ := by
  rw [announced?, if_pos (by simp [low, high])]

theorem announced?_three {byte : Nat} (low : 0xE0 ≤ byte) (high : byte ≤ 0xEF) :
    announced? byte = some ⟨2, if byte = 0xE0 then 0xA0 else 0x80,
      if byte = 0xED then 0x9F else 0xBF, byte - 0xE0⟩ := by
  interval_cases byte <;> rfl

theorem announced?_four {byte : Nat} (low : 0xF0 ≤ byte) (high : byte ≤ 0xF4) :
    announced? byte = some ⟨3, if byte = 0xF0 then 0x90 else 0x80,
      if byte = 0xF4 then 0x8F else 0xBF, byte - 0xF0⟩ := by
  interval_cases byte <;> rfl

/-! ## Characters -/

/-- A byte in range is read, and its six bits are added to those read before. -/
theorem following_cons {count low high bits byte : Nat} (isByte : byte < 256)
    (notBelow : low ≤ byte) (notAbove : byte ≤ high) (rest : Bytes) :
    following (count + 1) low high bits (UInt8.ofNat byte :: rest) =
      following count 0x80 0xBF (bits * 64 + (byte - 0x80)) rest := by
  have toNat : (UInt8.ofNat byte).toNat = byte := by
    rw [UInt8.toNat_ofNat']
    omega
  rw [following, toNat, if_pos (by simp [notBelow, notAbove])]

theorem step_of_announced {byte : Nat} {announced : Announced} (isByte : byte < 256)
    (notAscii : 0x80 ≤ byte) (isAnnounced : announced? byte = some announced) (rest : Bytes) :
    step (UInt8.ofNat byte) rest =
      following announced.following announced.low announced.high announced.bits rest := by
  have toNat : (UInt8.ofNat byte).toNat = byte := by
    rw [UInt8.toNat_ofNat']
    omega
  rw [step, toNat, if_neg (by omega), isAnnounced]

/-- **One step reads the bytes of a character.** -/
theorem step_utf8EncodeChar (c : Char) (rest : Bytes) :
    ∃ byte more, String.utf8EncodeChar c ++ rest = byte :: more ∧
      step byte more = (some c, rest) := by
  have valid : c.toNat < 0xD800 ∨ 0xDFFF < c.toNat ∧ c.toNat < 0x110000 := c.valid
  have same (bits : Nat) (isCode : bits = c.toNat) : Char.ofNat bits = c := by
    rw [isCode, Char.ofNat_toNat]
  have code : c.val.toNat = c.toNat := rfl
  simp only [String.utf8EncodeChar, code]
  generalize c.toNat = v at valid same
  split
  · next isAscii =>
      refine ⟨_, _, List.cons_append, ?_⟩
      have toNat : (UInt8.ofNat v).toNat = v := by
        rw [UInt8.toNat_ofNat']
        omega
      rw [List.nil_append, step, toNat, if_pos (by omega), same v rfl]
  · next notAscii =>
      split
      · next two =>
          refine ⟨_, _, List.cons_append, ?_⟩
          rw [step_of_announced (by omega) (by omega) (announced?_two (by omega) (by omega))]
          simp only [List.cons_append, List.nil_append]
          rw [following_cons, following, same]
          all_goals omega
      · next notTwo =>
          split
          · next three =>
              refine ⟨_, _, List.cons_append, ?_⟩
              rw [step_of_announced (by omega) (by omega) (announced?_three (by omega) (by omega))]
              have notOverlong : (if v / 4096 % 16 + 224 = 0xE0 then 0xA0 else 0x80) ≤
                  v / 64 % 64 + 128 := by
                split <;> omega
              have noSurrogate : v / 64 % 64 + 128 ≤
                  if v / 4096 % 16 + 224 = 0xED then 0x9F else 0xBF := by
                split <;> omega
              simp only [List.cons_append, List.nil_append]
              rw [following_cons (by omega) notOverlong noSurrogate, following_cons, following,
                same]
              all_goals omega
          · next notThree =>
              refine ⟨_, _, List.cons_append, ?_⟩
              rw [step_of_announced (by omega) (by omega) (announced?_four (by omega) (by omega))]
              have notOverlong : (if v / 262144 % 8 + 240 = 0xF0 then 0x90 else 0x80) ≤
                  v / 4096 % 64 + 128 := by
                split <;> omega
              have notBeyond : v / 4096 % 64 + 128 ≤
                  if v / 262144 % 8 + 240 = 0xF4 then 0x8F else 0xBF := by
                split <;> omega
              simp only [List.cons_append, List.nil_append]
              rw [following_cons (by omega) notOverlong notBeyond, following_cons, following_cons,
                following, same]
              all_goals omega

/-! ## Texts -/

/-- **The bytes of a text are read as its characters**, and none of them is ill-formed. -/
theorem decode_encode (text : List Char) : decode (encode text) = text.map some := by
  induction text with
  | nil => rw [encode, List.flatMap_nil, decode, List.map_nil]
  | cons c text ih =>
      obtain ⟨byte, more, isBytes, isRead⟩ := step_utf8EncodeChar c (encode text)
      have bytes : encode (c :: text) = byte :: more := isBytes
      rw [bytes, decode, isRead, ih, List.map_cons]

theorem decode?_encode (text : List Char) : decode? (encode text) = some text := by
  rw [decode?, decode_encode]
  induction text with
  | nil => rfl
  | cons c text ih => rw [List.map_cons, List.mapM_cons, ih]; rfl

theorem decodeLossy_encode (text : List Char) : decodeLossy (encode text) = text := by
  rw [decodeLossy, decode_encode, List.map_map]
  exact List.map_id text

/-! ## Characters that are read were written -/

/-- A byte announces nothing but what it announces by its range. -/
theorem announced?_cases {byte : Nat} {announced : Announced}
    (isAnnounced : announced? byte = some announced) :
    (0xC2 ≤ byte ∧ byte ≤ 0xDF ∧ announced = ⟨1, 0x80, 0xBF, byte - 0xC0⟩) ∨
    (0xE0 ≤ byte ∧ byte ≤ 0xEF ∧ announced = ⟨2, if byte = 0xE0 then 0xA0 else 0x80,
      if byte = 0xED then 0x9F else 0xBF, byte - 0xE0⟩) ∨
    (0xF0 ≤ byte ∧ byte ≤ 0xF4 ∧ announced = ⟨3, if byte = 0xF0 then 0x90 else 0x80,
      if byte = 0xF4 then 0x8F else 0xBF, byte - 0xF0⟩) := by
  by_cases two : 0xC2 ≤ byte ∧ byte ≤ 0xDF
  · rw [announced?_two two.1 two.2, Option.some.injEq] at isAnnounced
    exact .inl ⟨two.1, two.2, isAnnounced.symm⟩
  by_cases three : 0xE0 ≤ byte ∧ byte ≤ 0xEF
  · rw [announced?_three three.1 three.2, Option.some.injEq] at isAnnounced
    exact .inr (.inl ⟨three.1, three.2, isAnnounced.symm⟩)
  by_cases four : 0xF0 ≤ byte ∧ byte ≤ 0xF4
  · rw [announced?_four four.1 four.2, Option.some.injEq] at isAnnounced
    exact .inr (.inr ⟨four.1, four.2, isAnnounced.symm⟩)
  have nothing : announced? byte = none := by
    simp only [announced?, Bool.and_eq_true, decide_eq_true_eq, beq_iff_eq]
    repeat rw [if_neg (by omega)]
  rw [nothing] at isAnnounced
  contradiction

/-- A character that goes on has a further byte in range, whose six bits are added. -/
theorem following_eq_some {count low high bits : Nat} {c : Char} {bytes rest : Bytes}
    (isRead : following (count + 1) low high bits bytes = (some c, rest)) :
    ∃ byte more, bytes = byte :: more ∧ low ≤ byte.toNat ∧ byte.toNat ≤ high ∧
      following count 0x80 0xBF (bits * 64 + (byte.toNat - 0x80)) more = (some c, rest) := by
  cases bytes with
  | nil => simp [following] at isRead
  | cons byte more =>
      rw [following] at isRead
      split at isRead
      · next inRange =>
          simp only [Bool.and_eq_true, decide_eq_true_eq] at inRange
          exact ⟨byte, more, rfl, inRange.1, inRange.2, isRead⟩
      · simp at isRead

/-- The number of a character that has one. -/
theorem toNat_ofNat (code : Nat) (valid : code < 0xD800 ∨ 0xDFFF < code ∧ code < 0x110000) :
    (Char.ofNat code).val.toNat = code := by
  have isValid : code.isValidChar := valid
  rw [Char.ofNat, dif_pos isValid]
  rfl

theorem ofNat_eq_of_toNat {code : Nat} (byte : UInt8) (same : code = byte.toNat) :
    UInt8.ofNat code = byte := by
  rw [same, UInt8.ofNat_toNat]

theorem utf8EncodeChar_one {byte : UInt8} (isAscii : byte.toNat < 0x80) :
    String.utf8EncodeChar (Char.ofNat byte.toNat) = [byte] := by
  simp only [String.utf8EncodeChar, toNat_ofNat byte.toNat (by omega)]
  rw [if_pos (by omega), ofNat_eq_of_toNat byte rfl]

theorem utf8EncodeChar_two {first second : UInt8} (low : 0xC2 ≤ first.toNat)
    (high : first.toNat ≤ 0xDF) (secondLow : 0x80 ≤ second.toNat)
    (secondHigh : second.toNat ≤ 0xBF) :
    String.utf8EncodeChar (Char.ofNat ((first.toNat - 0xC0) * 64 + (second.toNat - 0x80))) =
      [first, second] := by
  generalize isCode : (first.toNat - 0xC0) * 64 + (second.toNat - 0x80) = code
  simp only [String.utf8EncodeChar, toNat_ofNat code (by omega)]
  rw [if_neg (by omega), if_pos (by omega), ofNat_eq_of_toNat first (by omega),
    ofNat_eq_of_toNat second (by omega)]

theorem utf8EncodeChar_three {first second third : UInt8} (low : 0xE0 ≤ first.toNat)
    (high : first.toNat ≤ 0xEF)
    (secondLow : (if first.toNat = 0xE0 then 0xA0 else 0x80) ≤ second.toNat)
    (secondHigh : second.toNat ≤ if first.toNat = 0xED then 0x9F else 0xBF)
    (thirdLow : 0x80 ≤ third.toNat) (thirdHigh : third.toNat ≤ 0xBF) :
    String.utf8EncodeChar (Char.ofNat
        (((first.toNat - 0xE0) * 64 + (second.toNat - 0x80)) * 64 + (third.toNat - 0x80))) =
      [first, second, third] := by
  have secondInside : 0x80 ≤ second.toNat ∧ second.toNat ≤ 0xBF := by
    split at secondLow <;> split at secondHigh <;> omega
  have notOverlong : first.toNat = 0xE0 → 0xA0 ≤ second.toNat := fun isLead => by
    rwa [if_pos isLead] at secondLow
  have noSurrogate : first.toNat = 0xED → second.toNat ≤ 0x9F := fun isLead => by
    rwa [if_pos isLead] at secondHigh
  generalize isCode :
    ((first.toNat - 0xE0) * 64 + (second.toNat - 0x80)) * 64 + (third.toNat - 0x80) = code
  simp only [String.utf8EncodeChar, toNat_ofNat code (by omega)]
  rw [if_neg (by omega), if_neg (by omega), if_pos (by omega),
    ofNat_eq_of_toNat first (by omega), ofNat_eq_of_toNat second (by omega),
    ofNat_eq_of_toNat third (by omega)]

theorem utf8EncodeChar_four {first second third fourth : UInt8} (low : 0xF0 ≤ first.toNat)
    (high : first.toNat ≤ 0xF4)
    (secondLow : (if first.toNat = 0xF0 then 0x90 else 0x80) ≤ second.toNat)
    (secondHigh : second.toNat ≤ if first.toNat = 0xF4 then 0x8F else 0xBF)
    (thirdLow : 0x80 ≤ third.toNat) (thirdHigh : third.toNat ≤ 0xBF)
    (fourthLow : 0x80 ≤ fourth.toNat) (fourthHigh : fourth.toNat ≤ 0xBF) :
    String.utf8EncodeChar (Char.ofNat
        ((((first.toNat - 0xF0) * 64 + (second.toNat - 0x80)) * 64 + (third.toNat - 0x80)) * 64 +
          (fourth.toNat - 0x80))) =
      [first, second, third, fourth] := by
  have secondInside : 0x80 ≤ second.toNat ∧ second.toNat ≤ 0xBF := by
    split at secondLow <;> split at secondHigh <;> omega
  have notOverlong : first.toNat = 0xF0 → 0x90 ≤ second.toNat := fun isLead => by
    rwa [if_pos isLead] at secondLow
  have notBeyond : first.toNat = 0xF4 → second.toNat ≤ 0x8F := fun isLead => by
    rwa [if_pos isLead] at secondHigh
  generalize isCode :
    (((first.toNat - 0xF0) * 64 + (second.toNat - 0x80)) * 64 + (third.toNat - 0x80)) * 64 +
      (fourth.toNat - 0x80) = code
  simp only [String.utf8EncodeChar, toNat_ofNat code (by omega)]
  rw [if_neg (by omega), if_neg (by omega), if_neg (by omega),
    ofNat_eq_of_toNat first (by omega), ofNat_eq_of_toNat second (by omega),
    ofNat_eq_of_toNat third (by omega), ofNat_eq_of_toNat fourth (by omega)]

/-- **A character that one step reads was written there.** -/
theorem utf8EncodeChar_of_step {byte : UInt8} {bytes rest : Bytes} {c : Char}
    (isRead : step byte bytes = (some c, rest)) :
    byte :: bytes = String.utf8EncodeChar c ++ rest := by
  rw [step] at isRead
  split at isRead
  · next isAscii =>
      simp only [Prod.mk.injEq, Option.some.injEq] at isRead
      obtain ⟨rfl, rfl⟩ := isRead
      rw [utf8EncodeChar_one isAscii]
      rfl
  · split at isRead
    · simp at isRead
    · next announced isAnnounced =>
        rcases announced?_cases isAnnounced with ⟨low, high, rfl⟩ | ⟨low, high, rfl⟩ |
          ⟨low, high, rfl⟩
        · obtain ⟨second, more, rfl, secondLow, secondHigh, isRead⟩ := following_eq_some isRead
          simp only [following, Prod.mk.injEq, Option.some.injEq] at isRead
          obtain ⟨rfl, rfl⟩ := isRead
          rw [utf8EncodeChar_two low high secondLow secondHigh]
          rfl
        · obtain ⟨second, more, rfl, secondLow, secondHigh, isRead⟩ := following_eq_some isRead
          obtain ⟨third, more, rfl, thirdLow, thirdHigh, isRead⟩ := following_eq_some isRead
          simp only [following, Prod.mk.injEq, Option.some.injEq] at isRead
          obtain ⟨rfl, rfl⟩ := isRead
          rw [utf8EncodeChar_three low high secondLow secondHigh thirdLow thirdHigh]
          rfl
        · obtain ⟨second, more, rfl, secondLow, secondHigh, isRead⟩ := following_eq_some isRead
          obtain ⟨third, more, rfl, thirdLow, thirdHigh, isRead⟩ := following_eq_some isRead
          obtain ⟨fourth, more, rfl, fourthLow, fourthHigh, isRead⟩ := following_eq_some isRead
          simp only [following, Prod.mk.injEq, Option.some.injEq] at isRead
          obtain ⟨rfl, rfl⟩ := isRead
          rw [utf8EncodeChar_four low high secondLow secondHigh thirdLow thirdHigh fourthLow
            fourthHigh]
          rfl

/-- **Bytes that are read as a text are the bytes of that text.** -/
theorem encode_of_decode? {bytes : Bytes} {text : List Char} (isRead : decode? bytes = some text) :
    encode text = bytes := by
  unfold decode? at isRead
  induction text generalizing bytes with
  | nil =>
      cases bytes with
      | nil => rfl
      | cons byte bytes =>
          rw [decode, List.mapM_cons] at isRead
          obtain ⟨_, -, isRead⟩ := Option.bind_eq_some_iff.1 isRead
          obtain ⟨_, -, isRead⟩ := Option.bind_eq_some_iff.1 isRead
          cases isRead
  | cons c text ih =>
      cases bytes with
      | nil => simp [decode] at isRead
      | cons byte bytes =>
          rw [decode, List.mapM_cons] at isRead
          obtain ⟨_, isChar, isRead⟩ := Option.bind_eq_some_iff.1 isRead
          obtain ⟨_, areChars, isRead⟩ := Option.bind_eq_some_iff.1 isRead
          cases isRead
          have isStep : step byte bytes = (some c, (step byte bytes).2) := Prod.ext isChar rfl
          rw [utf8EncodeChar_of_step isStep, encode, List.flatMap_cons]
          exact congrArg _ (ih areChars)

/-- A byte string is read as a text just when it holds the bytes of that text. -/
theorem decode?_eq_some_iff {bytes : Bytes} {text : List Char} :
    decode? bytes = some text ↔ encode text = bytes := by
  constructor
  · exact encode_of_decode?
  · rintro rfl
    exact decode?_encode text

/-- **On a well-formed byte string both readers read the same text.** -/
theorem decodeLossy_of_decode? {bytes : Bytes} {text : List Char}
    (isRead : decode? bytes = some text) : decodeLossy bytes = text := by
  rw [← encode_of_decode? isRead, decodeLossy_encode]

/-! ## Bytes that are characters -/

variable {byte : UInt8}

theorem decode_cons_of_ascii (isAscii : byte.toNat < 0x80) (rest : Bytes) :
    decode (byte :: rest) = some (Char.ofNat byte.toNat) :: decode rest := by
  rw [decode, step, if_pos isAscii]

/-- The bytes of a text begin with a byte that is a character just when the text begins with it. -/
theorem head?_encode_iff (isAscii : byte.toNat < 0x80) (text : List Char) :
    (encode text).head? = some byte ↔ text.head? = some (Char.ofNat byte.toNat) := by
  cases text with
  | nil => simp [encode]
  | cons c text =>
      constructor
      · intro starts
        obtain ⟨rest, isBytes⟩ := List.head?_eq_some_iff.1 starts
        have read := decode_encode (c :: text)
        rw [isBytes, decode_cons_of_ascii isAscii, List.map_cons] at read
        exact (List.cons.inj read).1.symm
      · rintro starts
        obtain rfl := Option.some.inj starts
        rw [encode, List.flatMap_cons, utf8EncodeChar_one isAscii]
        rfl

/-- What follows a byte that announces more is read as before with a character behind it, as no such
byte goes on. -/
theorem following_append_ascii (isAscii : byte.toNat < 0x80) (rest : Bytes) {low : Nat}
    (isHigh : 0x80 ≤ low) (count high bits : Nat) (front : Bytes) :
    following count low high bits (front ++ byte :: rest) =
      ((following count low high bits front).1,
        (following count low high bits front).2 ++ byte :: rest) := by
  induction count generalizing low high bits front with
  | zero => simp [following]
  | succ count ih =>
      cases front with
      | nil =>
          have isBelow : ¬ low ≤ byte.toNat := by omega
          simp [following, isBelow]
      | cons first more =>
          rw [List.cons_append, following, following]
          split
          · exact ih (Nat.le_refl _) _ _ _
          · rfl

theorem step_append_ascii (isAscii : byte.toNat < 0x80) (rest : Bytes) (first : UInt8)
    (front : Bytes) :
    step first (front ++ byte :: rest) =
      ((step first front).1, (step first front).2 ++ byte :: rest) := by
  rw [step, step]
  split
  · rfl
  · split
    · rfl
    · next announced isAnnounced =>
        have isHigh : 0x80 ≤ announced.low := by
          rcases announced?_cases isAnnounced with ⟨-, -, rfl⟩ | ⟨-, -, rfl⟩ | ⟨-, -, rfl⟩
          · exact Nat.le_refl _
          all_goals dsimp only; split <;> decide
        exact following_append_ascii isAscii rest isHigh _ _ _ _

/-- **A byte that is a character cuts a byte string in two that are read by themselves.** -/
theorem decode_append_ascii (isAscii : byte.toNat < 0x80) (front rest : Bytes) :
    decode (front ++ byte :: rest) =
      decode front ++ some (Char.ofNat byte.toNat) :: decode rest := by
  -- a step at the front leaves the byte unread, so what it leaves of the front is shorter
  induction front using decode.induct with
  | case1 => rw [List.nil_append, decode_cons_of_ascii isAscii, decode, List.nil_append]
  | case2 first front ih =>
      rw [List.cons_append, decode, step_append_ascii isAscii, ih, ← List.cons_append, ← decode]

theorem following_suffix (count low high bits : Nat) (bytes : Bytes) :
    (following count low high bits bytes).2 <:+ bytes := by
  induction count generalizing low high bits bytes with
  | zero => exact List.suffix_rfl
  | succ count ih =>
      cases bytes with
      | nil => exact List.suffix_rfl
      | cons first more =>
          rw [following]
          split
          · exact (ih _ _ _ _).trans (List.suffix_cons _ _)
          · exact List.suffix_rfl

theorem step_suffix (first : UInt8) (bytes : Bytes) : (step first bytes).2 <:+ bytes := by
  rw [step]
  split
  · exact List.suffix_rfl
  · split
    · exact List.suffix_rfl
    · exact following_suffix _ _ _ _ _

/-- **A character that is read stands in the bytes**, and what is read behind it stands behind. -/
theorem exists_of_decode {bytes : Bytes} {front behind : List (Option Char)} {c : Char}
    (isRead : decode bytes = front ++ some c :: behind) :
    ∃ before after, bytes = before ++ (String.utf8EncodeChar c ++ after) ∧
      decode after = behind := by
  induction bytes using decode.induct generalizing front with
  | case1 => simp [decode] at isRead
  | case2 first bytes ih =>
      rw [decode] at isRead
      cases front with
      | nil =>
          obtain ⟨isChar, isBehind⟩ := List.cons.inj isRead
          have isStep : step first bytes = (some c, (step first bytes).2) := Prod.ext isChar rfl
          exact ⟨[], _, utf8EncodeChar_of_step isStep, isBehind⟩
      | cons item front =>
          obtain ⟨before, after, isRest, isBehind⟩ := ih (List.cons.inj isRead).2
          obtain ⟨skipped, isBytes⟩ := step_suffix first bytes
          refine ⟨first :: (skipped ++ before), after, ?_, isBehind⟩
          rw [← isBytes, isRest]
          simp

/-! ### Through the reader that replaces -/

theorem decodeLossy_eq_nil_iff {bytes : Bytes} : decodeLossy bytes = [] ↔ bytes = [] := by
  cases bytes <;> simp [decodeLossy, decode]

theorem decodeLossy_cons_of_ascii (isAscii : byte.toNat < 0x80) (rest : Bytes) :
    decodeLossy (byte :: rest) = Char.ofNat byte.toNat :: decodeLossy rest := by
  rw [decodeLossy, decode_cons_of_ascii isAscii, List.map_cons]
  rfl

theorem decodeLossy_append_ascii (isAscii : byte.toNat < 0x80) (front rest : Bytes) :
    decodeLossy (front ++ byte :: rest) =
      decodeLossy front ++ Char.ofNat byte.toNat :: decodeLossy rest := by
  rw [decodeLossy, decode_append_ascii isAscii, List.map_append, List.map_cons]
  rfl

/-- Where such a character is read, its byte stands. -/
theorem exists_of_decodeLossy (isAscii : byte.toNat < 0x80) {bytes : Bytes}
    {front behind : List Char}
    (isRead : decodeLossy bytes = front ++ Char.ofNat byte.toNat :: behind) :
    ∃ before after, bytes = before ++ byte :: after ∧ decodeLossy after = behind := by
  obtain ⟨read, more, isDecoded, -, isMore⟩ := List.map_eq_append_iff.1 isRead
  obtain ⟨item, rest, rfl, isChar, rfl⟩ := List.map_eq_cons_iff.1 isMore
  obtain rfl : item = some (Char.ofNat byte.toNat) := by
    cases item with
    | some c => exact congrArg some isChar
    | none =>
        have sameNumber : (0xFFFD : Nat) = byte.toNat := by
          have := congrArg (·.val.toNat) isChar
          rwa [toNat_ofNat _ (by omega)] at this
        omega
  obtain ⟨before, after, isBytes, isRest⟩ := exists_of_decode isDecoded
  rw [utf8EncodeChar_one isAscii] at isBytes
  exact ⟨before, after, isBytes, by rw [decodeLossy, isRest]⟩

end RepoContract.Text.Utf8
