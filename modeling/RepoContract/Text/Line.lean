/-
# RepoContract.Text.Line: the lines of a text

A line ends at a line feed, and one carriage return in front of that line feed goes with it. A
text that ends in a line feed has no empty line after it, and a carriage return anywhere else is
part of its line.
-/
namespace RepoContract.Text

set_option autoImplicit false

/-- The text cut after every line feed: every piece but the last ends in one, and no piece is
empty. -/
def pieces : List Char → List (List Char)
  | [] => []
  | c :: rest =>
    if c = '\n' then ['\n'] :: pieces rest
    else
      match pieces rest with
      | [] => [[c]]
      | piece :: more => (c :: piece) :: more

/-- A piece without its line end. -/
def chop : List Char → List Char
  | [] => []
  | ['\n'] => []
  | ['\r', '\n'] => []
  | c :: rest => c :: chop rest

/-- The lines of a text, without their ends. -/
def lines (text : List Char) : List (List Char) :=
  (pieces text).map chop

/-- The lines of a text, numbered from one. -/
def numberedLines (text : List Char) : List (Nat × List Char) :=
  (lines text).zipIdx.map fun (line, index) => (index + 1, line)

end RepoContract.Text
