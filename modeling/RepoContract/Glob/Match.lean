/-
# RepoContract.Glob.Match: which paths a glob matches

The places of a byte string are in front of each byte and at the end. Marks tell which places
are reached; a token moves the marks, and a glob matches when its tokens move a mark from the
start to the end. So the work grows with the product of both lengths, whatever the tokens are. A
glob of leading directories alone matches everything.
-/
import RepoContract.Glob.Manner
import RepoContract.Path

namespace RepoContract.Glob

set_option autoImplicit false

/-- For each place of a byte string whether it is reached; one more than there are bytes. -/
abbrev Marks := List Bool

namespace Marks

/-- A mark at the start. -/
def atStart (bytes : List UInt8) : Marks :=
  true :: bytes.map fun _ => false

/-- Marks moved over one accepted byte. -/
def pass (accepts : UInt8 → Bool) (bytes : List UInt8) (marks : Marks) : Marks :=
  false :: List.zipWith (fun byte mark => mark && accepts byte) bytes marks

/-- Marks moved over one slash. -/
def passSlash (bytes : List UInt8) (marks : Marks) : Marks :=
  pass (· == Path.slash) bytes marks

/-- The marks at a place and at all places after it, `reached` when one was before. -/
def spreadFrom (reached : Bool) : Marks → Marks
  | [] => []
  | mark :: rest => (reached || mark) :: spreadFrom (reached || mark) rest

/-- Marks moved over any bytes. -/
def spread (marks : Marks) : Marks :=
  spreadFrom false marks

/-- The marks of either. -/
def union (left right : Marks) : Marks :=
  List.zipWith (· || ·) left right

end Marks

/-- Whether a byte lies in a class of byte ranges. -/
def classHas (negated : Bool) (ranges : List (UInt8 × UInt8)) (byte : UInt8) : Bool :=
  negated != ranges.any fun (low, high) => low ≤ byte && byte ≤ high

mutual

/-- Marks moved over what a token stands for. -/
def Token.move (bytes : List UInt8) : Token → Marks → Marks
  | .char c, marks =>
    (Text.Utf8.encode [c]).foldl (fun marks own => marks.pass (· == own) bytes) marks
  | .anyByte, marks => marks.pass (fun _ => true) bytes
  | .anyRun, marks => marks.spread
  | .leadingDirs, marks => marks.union (marks.spread.passSlash bytes)
  | .trailingDirs, marks => (marks.passSlash bytes).spread
  | .innerDirs, marks =>
    let behind := marks.passSlash bytes
    behind.union (behind.spread.passSlash bytes)
  | .oneOf negated ranges, marks => marks.pass (classHas negated (byteRanges ranges)) bytes
  | .branches alternatives, marks =>
    if allHollow alternatives then marks else moveBranches bytes alternatives marks

/-- Marks moved over tokens in a row. -/
def moveRow (bytes : List UInt8) : List Token → Marks → Marks
  | [], marks => marks
  | token :: rest, marks => moveRow bytes rest (token.move bytes marks)

/-- Marks moved over one of the branches; a branch with nothing in it is none. -/
def moveBranches (bytes : List UInt8) : List (List Token) → Marks → Marks
  | [], marks => marks.map fun _ => false
  | tokens :: rest, marks =>
    if isHollowGlob tokens then moveBranches bytes rest marks
    else (moveRow bytes tokens marks).union (moveBranches bytes rest marks)

end

/-- Whether tokens can take a byte string from its start to its end. -/
def isWhole (tokens : List Token) (bytes : List UInt8) : Bool :=
  match tokens with
  | [.leadingDirs] => true
  | _ => (moveRow bytes tokens (Marks.atStart bytes)).getLastD false

/-- Whether a path has a last name: its last part does not lead up. -/
def hasName (path : Path) : Bool :=
  (Path.parts path.bytes).getLast? != some [Path.dot, Path.dot]

/-- Whether a glob matches a path. -/
def isMatch (tokens : List Token) (path : Path) : Bool :=
  (!(Manner.ofTokens tokens).needsName || hasName path) && isWhole tokens path.bytes

end RepoContract.Glob
