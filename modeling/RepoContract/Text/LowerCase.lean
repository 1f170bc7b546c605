/-
# RepoContract.Text.LowerCase: lower case

Lower case of a text, character by character, with one rule that looks around: a capital sigma
at the end of a word takes its final form. A word ends there when a cased character comes before
and none follows, the characters that do not separate letters being passed over.
-/
import RepoContract.Text.LetterCase

namespace RepoContract.Text

set_option autoImplicit false

/-- The lower form of a character, looked at on its own. -/
def lowerChar (c : Char) : List Char :=
  if c.toNat < 0x80 then [c.toLower]
  else if c = '\u0130' then ['i', '\u0307']
  else
    match capitalRuns.findSome? (·.lower? c.toNat) with
    | some code => [Char.ofNat code]
    | none => [c]

/-- Whether the first character that is not passed over is cased. -/
def meetsCased (text : List Char) : Bool :=
  match text.dropWhile isCaseIgnorable with
  | [] => false
  | c :: _ => isCased c

/-- Lower case of what follows `before`, which is given in reverse. -/
def lowerFrom : List Char → List Char → List Char
  | _, [] => []
  | before, c :: rest =>
    let here :=
      if c = '\u03A3' then [if meetsCased before && !meetsCased rest then '\u03C2' else '\u03C3']
      else lowerChar c
    here ++ lowerFrom (c :: before) rest

/-- The text in lower case. -/
def lower (text : List Char) : List Char :=
  lowerFrom [] text

end RepoContract.Text
