/-
# RepoContract.Text.Utf8: bytes as characters

`decode` reads a byte string from the front. Each step yields one character, or `none` for a
longest byte sequence that could have begun a character and does not go on as one. The two
readers are views of it: `decode?` refuses a byte string with such a step, and `decodeLossy`
puts one replacement character in its place.
-/
namespace RepoContract.Text.Utf8

set_option autoImplicit false

abbrev Bytes := List UInt8

/-- What a leading byte announces: how many bytes follow, the range of the first of them, and
the bits the leading byte gives. -/
structure Announced where
  following : Nat
  low : Nat
  high : Nat
  bits : Nat

/-- The announcement of a byte that begins a character of two to four bytes. The narrow ranges
leave out overlong forms, surrogates and what lies above the last code point. -/
def announced? (byte : Nat) : Option Announced :=
  if 0xC2 ≤ byte && byte ≤ 0xDF then some ⟨1, 0x80, 0xBF, byte - 0xC0⟩
  else if byte == 0xE0 then some ⟨2, 0xA0, 0xBF, 0⟩
  else if byte == 0xED then some ⟨2, 0x80, 0x9F, 0xD⟩
  else if 0xE1 ≤ byte && byte ≤ 0xEF then some ⟨2, 0x80, 0xBF, byte - 0xE0⟩
  else if byte == 0xF0 then some ⟨3, 0x90, 0xBF, 0⟩
  else if 0xF1 ≤ byte && byte ≤ 0xF3 then some ⟨3, 0x80, 0xBF, byte - 0xF0⟩
  else if byte == 0xF4 then some ⟨3, 0x80, 0x8F, 4⟩
  else none

/-- Read the bytes that follow a leading byte; a byte out of range is left unread. -/
def following : Nat → Nat → Nat → Nat → Bytes → Option Char × Bytes
  | 0, _, _, bits, rest => (some (Char.ofNat bits), rest)
  | _ + 1, _, _, _, [] => (none, [])
  | count + 1, low, high, bits, byte :: rest =>
    if low ≤ byte.toNat && byte.toNat ≤ high then
      following count 0x80 0xBF (bits * 64 + (byte.toNat - 0x80)) rest
    else (none, byte :: rest)

/-- One step of reading, at a byte and what follows it. -/
def step (byte : UInt8) (rest : Bytes) : Option Char × Bytes :=
  if byte.toNat < 0x80 then (some (Char.ofNat byte.toNat), rest)
  else
    match announced? byte.toNat with
    | none => (none, rest)
    | some a => following a.following a.low a.high a.bits rest

theorem following_length_le (count low high bits : Nat) (rest : Bytes) :
    (following count low high bits rest).2.length ≤ rest.length := by
  induction rest generalizing count low high bits with
  | nil => cases count <;> simp [following]
  | cons byte rest ih =>
    cases count with
    | zero => simp [following]
    | succ count =>
      unfold following
      split
      · exact Nat.le_succ_of_le (ih ..)
      · simp

theorem step_length_le (byte : UInt8) (rest : Bytes) :
    (step byte rest).2.length ≤ rest.length := by
  unfold step
  split
  · simp
  · split
    · simp
    · exact following_length_le ..

/-- The characters of a byte string, with `none` where it is ill-formed. -/
def decode : Bytes → List (Option Char)
  | [] => []
  | byte :: rest => (step byte rest).1 :: decode (step byte rest).2
  termination_by bytes => bytes.length
  decreasing_by exact Nat.lt_succ_of_le (step_length_le byte rest)

/-- The characters of a well-formed byte string. -/
def decode? (bytes : Bytes) : Option (List Char) :=
  (decode bytes).mapM id

/-- The characters of a byte string, with U+FFFD where it is ill-formed. -/
def decodeLossy (bytes : Bytes) : List Char :=
  (decode bytes).map (·.getD '\uFFFD')

/-- The bytes of a text. -/
def encode (text : List Char) : Bytes :=
  text.flatMap String.utf8EncodeChar

end RepoContract.Text.Utf8
