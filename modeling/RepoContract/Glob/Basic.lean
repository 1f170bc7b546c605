/-
# RepoContract.Glob.Basic: what the tokens of a glob stand for

A glob judges bytes: a character stands for its bytes, and a class is a list of byte ranges.
Branches with nothing in any of them are hollow, as if they were not there.
-/
import RepoContract.Glob.Token

namespace RepoContract.Glob

set_option autoImplicit false

def Token.isChar : Token → Bool
  | .char _ => true
  | _ => false

def Token.isCharOf (c : Char) : Token → Bool
  | .char d => d = c
  | _ => false

/-- The byte ranges of a class: characters count by their bytes, and a range runs from the last
byte of its low end to the first byte of its high end. -/
def byteRanges (ranges : List (Char × Char)) : List (UInt8 × UInt8) :=
  ranges.flatMap fun (low, high) =>
    let lows := Text.Utf8.encode [low]
    let highs := Text.Utf8.encode [high]
    if low = high then lows.map fun b => (b, b)
    else
      (lows.dropLast.map fun b => (b, b)) ++ [(lows.getLastD 0, highs.headD 0)]
        ++ (highs.drop 1).map fun b => (b, b)

mutual

/-- Whether a token takes nothing because none of its branches has anything in it. -/
def Token.isHollow : Token → Bool
  | .branches alternatives => allHollow alternatives
  | _ => false

def isHollowGlob : List Token → Bool
  | [] => true
  | token :: rest => token.isHollow && isHollowGlob rest

def allHollow : List (List Token) → Bool
  | [] => true
  | tokens :: more => isHollowGlob tokens && allHollow more

end

end RepoContract.Glob
