/-
# RepoContract.Json.Stop: where and why reading stops

A reader that stops says what is wrong and where: what text was still unread, and how many bytes
of it count as seen. The place of a message is the line and the byte column at the end of the
seen part.
-/
import RepoContract.Text.Utf8

namespace RepoContract.Json

set_option autoImplicit false

inductive Problem where
  | endInValue
  | endInArray
  | endInObject
  | endInText
  | noValue
  | noWord
  | noArrayEnd
  | noColon
  | noObjectEnd
  | keyNotText
  | trailingComma
  | trailingCharacters
  | controlCharacter
  | badEscape
  | shortEscape
  | loneSurrogate
  | badNumber
  | numberTooLarge
  | tooDeep
  deriving DecidableEq, Repr

def Problem.message : Problem → String
  | .endInValue => "EOF while parsing a value"
  | .endInArray => "EOF while parsing a list"
  | .endInObject => "EOF while parsing an object"
  | .endInText => "EOF while parsing a string"
  | .noValue => "expected value"
  | .noWord => "expected ident"
  | .noArrayEnd => "expected `,` or `]`"
  | .noColon => "expected `:`"
  | .noObjectEnd => "expected `,` or `\x7d`"
  | .keyNotText => "key must be a string"
  | .trailingComma => "trailing comma"
  | .trailingCharacters => "trailing characters"
  | .controlCharacter => "control character (\\u0000-\\u001F) found while parsing a string"
  | .badEscape => "invalid escape"
  | .shortEscape => "unexpected end of hex escape"
  | .loneSurrogate => "lone leading surrogate in hex escape"
  | .badNumber => "invalid number"
  | .numberTooLarge => "number out of range"
  | .tooDeep => "recursion limit exceeded"

/-- A problem, the text not yet read, and how many bytes of that text count as seen. -/
structure Stop where
  problem : Problem
  unread : List Char
  seen : Nat
  deriving Repr

/-- Stop before a text, none of which counts as seen. -/
def Stop.before (problem : Problem) (unread : List Char) : Stop :=
  ⟨problem, unread, 0⟩

/-- Stop at a text whose first byte, if there is one, counts as seen. -/
def Stop.at (problem : Problem) (unread : List Char) : Stop :=
  ⟨problem, unread, 1⟩

/-- A problem with its line, from one, and the number of bytes after that line's start. -/
structure Fault where
  problem : Problem
  line : Nat
  column : Nat
  deriving DecidableEq, Repr

/-- Line and column after some bytes, from a line and column before them. -/
def advance : Nat × Nat → Text.Utf8.Bytes → Nat × Nat
  | place, [] => place
  | (line, column), byte :: rest =>
    advance (if byte == 0x0A then (line + 1, 0) else (line, column + 1)) rest

/-- The place of a stop in the text that was being read. -/
def Stop.locate (text : List Char) (stop : Stop) : Fault :=
  let bytes := Text.Utf8.encode text
  let read := bytes.length - (Text.Utf8.encode stop.unread).length
  let (line, column) := advance (1, 0) (bytes.take (read + stop.seen))
  ⟨stop.problem, line, column⟩

def Fault.message (fault : Fault) : String :=
  s!"{fault.problem.message} at line {fault.line} column {fault.column}"

end RepoContract.Json
