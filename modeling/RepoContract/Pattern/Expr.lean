/-
# RepoContract.Pattern.Expr: patterns of text

A pattern is built from character classes, sequence, choice, repetition, the ends of the text
and word edges. A place in a text is what stands before it and what follows; `Expr.ends` lists
the places where a match that starts at a place may end. A pattern matches a text when it has a
match anywhere in it.
-/
import RepoContract.Text.Blank
import RepoContract.Text.WordChar

namespace RepoContract.Pattern

set_option autoImplicit false

/-- A set of characters by its kind. -/
inductive Kind where
  | char (c : Char)
  | range (low high : Char)
  | word
  | blank
  | digit
  /-- Everything but a line feed. -/
  | visible
  deriving DecidableEq, Repr

def Kind.has : Kind → Char → Bool
  | .char d, c => c = d
  | .range low high, c => low ≤ c && c ≤ high
  | .word, c => Text.isWordChar c
  | .blank, c => Text.isBlank c
  | .digit, c => Text.isDigitChar c
  | .visible, c => c ≠ '\n'

/-- A kind, or its complement. -/
structure Member where
  kind : Kind
  negated : Bool
  deriving DecidableEq, Repr

def Member.has (member : Member) (c : Char) : Bool :=
  member.negated != member.kind.has c

/-- The characters of some members, or all others. -/
structure Class where
  members : List Member
  negated : Bool
  deriving DecidableEq, Repr

def Class.has (cls : Class) (c : Char) : Bool :=
  cls.negated != cls.members.any (·.has c)

inductive Expr where
  | empty
  | one (cls : Class)
  | seq (first second : Expr)
  | choice (first second : Expr)
  /-- Any number of characters of a class. -/
  | run (cls : Class)
  | many (body : Expr)
  | start
  | stop
  /-- Between a word character and something that is none; inside or outside a word if negated. -/
  | edge (negated : Bool)
  deriving DecidableEq, Repr

/-- A place in a text: the character before it and the characters that follow. -/
structure Place where
  before : Option Char
  rest : List Char
  deriving DecidableEq, Repr

namespace Place

/-- The start of a text. -/
def ofText (text : List Char) : Place := ⟨none, text⟩

/-- Whether exactly one side of the place is a word character. -/
def isEdge (place : Place) : Bool :=
  place.before.any Text.isWordChar != place.rest.head?.any Text.isWordChar

/-- The places from one on, the end of the text last. -/
def following (before : Option Char) : List Char → List Place
  | [] => [⟨before, []⟩]
  | c :: rest => ⟨before, c :: rest⟩ :: following (some c) rest

end Place

/-- The places behind any number of characters of a class. -/
def Class.runEnds (cls : Class) (before : Option Char) : List Char → List Place
  | [] => [⟨before, []⟩]
  | c :: rest =>
    ⟨before, c :: rest⟩ :: if cls.has c then cls.runEnds (some c) rest else []

/-- The places that so many steps reach at most, each of which moves on. -/
def closure (step : Place → List Place) : Nat → Place → List Place
  | 0, place => [place]
  | count + 1, place =>
    place :: ((step place).filter fun next => next.rest.length < place.rest.length).flatMap
      (closure step count)

/-- The places where a match from a place may end. -/
def Expr.ends : Expr → Place → List Place
  | .empty, place => [place]
  | .one cls, place =>
    match place.rest with
    | [] => []
    | c :: rest => if cls.has c then [⟨some c, rest⟩] else []
  | .seq first second, place => (first.ends place).flatMap second.ends
  | .choice first second, place => first.ends place ++ second.ends place
  | .run cls, place => cls.runEnds place.before place.rest
  | .many body, place => closure body.ends place.rest.length place
  | .start, place => if place.before.isNone then [place] else []
  | .stop, place => if place.rest.isEmpty then [place] else []
  | .edge negated, place => if place.isEdge != negated then [place] else []

/-- Whether a pattern has a match anywhere in a text. -/
def Expr.isMatch (expr : Expr) (text : List Char) : Bool :=
  (Place.following none text).any fun place => !(expr.ends place).isEmpty

/-! Ways to build patterns. -/

namespace Expr

def char (c : Char) : Expr := .one ⟨[⟨.char c, false⟩], false⟩

/-- One character of some kinds. -/
def among (kinds : List Kind) : Expr := .one ⟨kinds.map (⟨·, false⟩), false⟩

/-- One character of none of some kinds. -/
def outside (kinds : List Kind) : Expr := .one ⟨kinds.map (⟨·, false⟩), true⟩

/-- Patterns one after another. -/
def row : List Expr → Expr
  | [] => .empty
  | [expr] => expr
  | expr :: more => .seq expr (row more)

/-- One of some patterns. -/
def anyOf : List Expr → Expr
  | [] => .empty
  | [expr] => expr
  | expr :: more => .choice expr (anyOf more)

/-- Characters that stand for themselves. -/
def chars (text : List Char) : Expr := row (text.map char)

def maybe (expr : Expr) : Expr := .choice expr .empty

/-- A pattern any number of times. -/
def repeated : Expr → Expr
  | .one cls => .run cls
  | expr => .many expr

def oneOrMore (expr : Expr) : Expr := .seq expr (repeated expr)

def blanks : Expr := repeated (among [.blank])

def someBlanks : Expr := oneOrMore (among [.blank])

end Expr

end RepoContract.Pattern
