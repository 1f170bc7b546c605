/-
# RepoContract.Json.Reader: reading a document

`parse` reads one document from a text and says, when it cannot, what is wrong and where. Arrays
and objects nest at most 127 deep. The recursion carries a count that starts above twice the
length of the text; every bracket, comma and member takes text away, so the count never runs out.
-/
import RepoContract.Json.Number

namespace RepoContract.Json

set_option autoImplicit false

/-- The blanks that may stand between the parts of a document. -/
def isSpace (c : Char) : Bool :=
  c = ' ' || c = '\n' || c = '\t' || c = '\r'

def skipSpace (text : List Char) : List Char :=
  text.dropWhile isSpace

/-- The value of a hexadecimal digit. -/
def hexValue? (c : Char) : Option Nat :=
  if '0' ≤ c && c ≤ '9' then some (c.toNat - 0x30)
  else if 'a' ≤ c && c ≤ 'f' then some (c.toNat - 0x57)
  else if 'A' ≤ c && c ≤ 'F' then some (c.toNat - 0x37)
  else none

/-- The number of four hexadecimal digits. -/
def hexUnit? (a b c d : Char) : Option Nat := do
  let a ← hexValue? a
  let b ← hexValue? b
  let c ← hexValue? c
  let d ← hexValue? d
  return ((a * 16 + b) * 16 + c) * 16 + d

/-- Read four hexadecimal digits. -/
def readUnit : List Char → Except Stop (Nat × List Char)
  | a :: b :: c :: d :: rest =>
    match hexUnit? a b c d with
    | some unit => .ok (unit, rest)
    | none => .error ⟨.badEscape, a :: b :: c :: d :: rest, 4⟩
  | short =>
    if (Text.Utf8.encode short).length < 4 then .error (.before .endInText [])
    else .error ⟨.badEscape, short, 4⟩

/-- Read the backslash and letter in front of the second half of a pair. -/
def readPairSign : List Char → Except Stop (Unit × List Char)
  | [] => .error (.before .endInText [])
  | '\\' :: [] => .error (.before .endInText [])
  | '\\' :: 'u' :: rest => .ok ((), rest)
  | '\\' :: rest => .error (.at .shortEscape rest)
  | rest => .error (.at .shortEscape rest)

/-- Read a character given by its number, which takes two units above U+FFFF. -/
def readCodePoint (text : List Char) : Except Stop (Char × List Char) := do
  let (unit, rest) ← readUnit text
  if 0xDC00 ≤ unit && unit ≤ 0xDFFF then throw (.before .loneSurrogate rest)
  if unit < 0xD800 || 0xDBFF < unit then return (Char.ofNat unit, rest)
  let (_, rest) ← readPairSign rest
  let (low, rest) ← readUnit rest
  if low < 0xDC00 || 0xDFFF < low then throw (.before .loneSurrogate rest)
  return (Char.ofNat ((unit - 0xD800) * 0x400 + (low - 0xDC00) + 0x10000), rest)

/-- The character of a one-letter escape. -/
def escaped? : Char → Option Char
  | '"' => some '"'
  | '\\' => some '\\'
  | '/' => some '/'
  | 'b' => some '\x08'
  | 'f' => some '\x0C'
  | 'n' => some '\n'
  | 'r' => some '\r'
  | 't' => some '\t'
  | _ => none

/-- Read what follows a backslash. -/
def readEscape : List Char → Except Stop (Char × List Char)
  | [] => .error (.before .endInText [])
  | 'u' :: rest => readCodePoint rest
  | letter :: rest =>
    match escaped? letter with
    | some c => .ok (c, rest)
    | none => .error (.at .badEscape (letter :: rest))

/-- Read the characters of a text up to its closing quote. -/
def readCharacters : Nat → List Char → Except Stop (List Char × List Char)
  | 0, text => .error (.before .endInText text)
  | _ + 1, [] => .error (.before .endInText [])
  | _ + 1, '"' :: rest => .ok ([], rest)
  | fuel + 1, '\\' :: rest => do
    let (c, rest) ← readEscape rest
    let (more, rest) ← readCharacters fuel rest
    return (c :: more, rest)
  | fuel + 1, c :: rest =>
    if c.toNat < 0x20 then .error (.at .controlCharacter (c :: rest))
    else do
      let (more, rest) ← readCharacters fuel rest
      return (c :: more, rest)

/-- Read a text from after its opening quote. -/
def readText (text : List Char) : Except Stop (String × List Char) := do
  let (characters, rest) ← readCharacters (text.length + 1) text
  return (String.ofList characters, rest)

/-- Read the rest of a word whose first letter has been seen. -/
def readWord : List Char → Value → List Char → Except Stop (Value × List Char)
  | [], value, rest => .ok (value, rest)
  | _ :: _, _, [] => .error (.before .endInValue [])
  | w :: word, value, c :: rest =>
    if c = w then readWord word value rest else .error (.at .noWord (c :: rest))

mutual

/-- Read a value that may open `depth - 1` more brackets. -/
def readValue : Nat → Nat → List Char → Except Stop (Value × List Char)
  | 0, _, text => .error (.before .tooDeep text)
  | fuel + 1, depth, text =>
    match skipSpace text with
    | [] => .error (.before .endInValue [])
    | 'n' :: rest => readWord ['u', 'l', 'l'] .null rest
    | 't' :: rest => readWord ['r', 'u', 'e'] (.bool true) rest
    | 'f' :: rest => readWord ['a', 'l', 's', 'e'] (.bool false) rest
    | '"' :: rest => do
      let (value, rest) ← readText rest
      return (.text value, rest)
    | '[' :: rest =>
      if depth ≤ 1 then .error (.at .tooDeep ('[' :: rest))
      else do
        let (items, rest) ← readItems fuel (depth - 1) true rest
        return (.array items, rest)
    | '{' :: rest =>
      if depth ≤ 1 then .error (.at .tooDeep ('{' :: rest))
      else do
        let (members, rest) ← readMembers fuel (depth - 1) true rest
        return (.ofMembers members, rest)
    | '-' :: rest => do
      let (number, rest) ← readDigits true rest
      return (.number number, rest)
    | c :: rest =>
      if c.isDigit then do
        let (number, rest) ← readDigits false (c :: rest)
        return (.number number, rest)
      else .error (.at .noValue (c :: rest))

/-- Read the items of an array up to its end; `first` before the first of them. -/
def readItems : Nat → Nat → Bool → List Char → Except Stop (List Value × List Char)
  | 0, _, _, text => .error (.before .tooDeep text)
  | fuel + 1, depth, first, text =>
    match skipSpace text with
    | [] => .error (.before .endInArray [])
    | ']' :: rest => .ok ([], rest)
    | c :: rest => do
      let start ←
        if first then pure (c :: rest)
        else if c = ',' then
          match skipSpace rest with
          | [] => throw (.before .endInValue [])
          | ']' :: rest => throw (.at .trailingComma (']' :: rest))
          | rest => pure rest
        else throw (.at .noArrayEnd (c :: rest))
      let (item, rest) ← readValue fuel depth start
      let (items, rest) ← readItems fuel depth false rest
      return (item :: items, rest)

/-- Read the members of an object up to its end; `first` before the first of them. -/
def readMembers : Nat → Nat → Bool → List Char → Except Stop (List (String × Value) × List Char)
  | 0, _, _, text => .error (.before .tooDeep text)
  | fuel + 1, depth, first, text =>
    match skipSpace text with
    | [] => .error (.before .endInObject [])
    | '}' :: rest => .ok ([], rest)
    | c :: rest => do
      let start ←
        if first then
          if c = '"' then pure rest else throw (.at .keyNotText (c :: rest))
        else if c = ',' then
          match skipSpace rest with
          | [] => throw (.before .endInValue [])
          | '"' :: rest => pure rest
          | '}' :: rest => throw (.at .trailingComma ('}' :: rest))
          | rest => throw (.at .keyNotText rest)
        else throw (.at .noObjectEnd (c :: rest))
      let (key, rest) ← readText start
      let rest ←
        match skipSpace rest with
        | [] => throw (.before .endInObject [])
        | ':' :: rest => pure rest
        | rest => throw (.at .noColon rest)
      let (value, rest) ← readValue fuel depth rest
      let (members, rest) ← readMembers fuel depth false rest
      return ((key, value) :: members, rest)

end

/-- How many brackets may be open at once, and one. -/
def depthLimit : Nat := 128

/-- Read one value and nothing after it. -/
def readDocument (text : List Char) : Except Stop Value := do
  let (value, rest) ← readValue (2 * text.length + 2) depthLimit text
  match skipSpace rest with
  | [] => return value
  | rest => throw (.at .trailingCharacters rest)

/-- The document a text holds. -/
def parse (text : List Char) : Except Fault Value :=
  (readDocument text).mapError (·.locate text)

end RepoContract.Json
