/-
# RepoContract.Path: paths and their components

A path is a byte string whose parts are separated by slashes. Two paths mean the same place when
their components agree: empty parts and inner dots do not count, a leading slash and a leading
dot do. `join` appends by text; `relativeTo` takes the components of a root off the front and
keeps the text of the rest.
-/
import RepoContract.Text.Utf8

namespace RepoContract

set_option autoImplicit false

/-- The name of a file or directory. -/
abbrev Name := List UInt8

structure Path where
  bytes : List UInt8
  deriving DecidableEq, Repr, Inhabited

namespace Path

def slash : UInt8 := 0x2F
def dot : UInt8 := 0x2E

def ofString (text : String) : Path :=
  ⟨Text.Utf8.encode text.toList⟩

/-- The text of a path that is well-formed. -/
def text? (path : Path) : Option String :=
  (Text.Utf8.decode? path.bytes).map String.ofList

/-- The path as it is shown. -/
def display (path : Path) : String :=
  String.ofList (Text.Utf8.decodeLossy path.bytes)

/-- The byte strings between slashes; one more than there are slashes. -/
def parts : List UInt8 → List Name
  | [] => [[]]
  | b :: rest =>
    if b = slash then [] :: parts rest
    else
      match parts rest with
      | [] => [[b]]
      | part :: more => (b :: part) :: more

/-- Parts with slashes between them. -/
def glue (parts : List Name) : List UInt8 :=
  [slash].intercalate parts

inductive Component where
  | root
  | here
  | up
  | name (bytes : Name)
  deriving DecidableEq, Repr

/-- A part that names no step. -/
def isIdle (part : Name) : Bool :=
  part = [] || part = [dot]

def stepOf (part : Name) : Component :=
  if part = [dot, dot] then .up else .name part

def isAbsolute (path : Path) : Bool :=
  path.bytes.head? = some slash

/-- What a path starts with, besides its steps: a slash, a dot, or nothing. -/
def anchor (path : Path) : List Component :=
  if path.isAbsolute then [.root]
  else if (parts path.bytes).head? = some [dot] then [.here]
  else []

/-- The steps of a path, without its anchor. -/
def steps (path : Path) : List Component :=
  ((parts path.bytes).filter (!isIdle ·)).map stepOf

/-- The components by which paths are compared. -/
def components (path : Path) : List Component :=
  path.anchor ++ path.steps

/-- A path below another: an absolute one stands for itself. -/
def join (path below : Path) : Path :=
  if below.isAbsolute || path.bytes = [] then below
  else if path.bytes.getLast? = some slash then ⟨path.bytes ++ below.bytes⟩
  else ⟨path.bytes ++ slash :: below.bytes⟩

/-- Parts without the idle ones at the end. -/
def dropIdleEnd (parts : List Name) : List Name :=
  (parts.reverse.dropWhile isIdle).reverse

/-- What is left after so many parts that are steps. -/
def afterSteps : Nat → List Name → List Name
  | 0, parts => parts
  | _ + 1, [] => []
  | count + 1, part :: rest =>
    if isIdle part then afterSteps (count + 1) rest else afterSteps count rest

/-- The parts of a path after its anchor. -/
def body (path : Path) : List Name :=
  match path.anchor with
  | [] => parts path.bytes
  | _ => parts (path.bytes.drop 1)

/-- The text of the anchor. -/
def anchorBytes (path : Path) : List UInt8 :=
  match path.anchor with
  | [] => []
  | _ => path.bytes.take 1

/-- The path without idle parts at its end; an anchor stays. -/
def trimmed (path : Path) : Path :=
  ⟨path.anchorBytes ++ glue (dropIdleEnd path.body)⟩

/-- The text of a path below a root; none when it does not lie there. -/
def below? (root path : Path) : Option Path :=
  if root.components.isPrefixOf path.components then
    if root.components = [] then some path.trimmed
    else
      let rest := afterSteps root.steps.length path.body
      some ⟨glue (dropIdleEnd (rest.dropWhile isIdle))⟩
  else none

/-- The path as seen from a root, unchanged when it does not lie there. -/
def relativeTo (path root : Path) : Path :=
  (below? root path).getD path

/-- The last component, when it is a name. -/
def fileName? (path : Path) : Option Name :=
  match path.components.getLast? with
  | some (.name bytes) => some bytes
  | _ => none

/-- What follows the last dot of a name that has something in front of it. -/
def suffixOf? (name : Name) : Option Name :=
  let tail := (name.reverse.takeWhile (· ≠ dot)).reverse
  if tail.length + 1 < name.length then some tail else none

/-- The extension of the last component. -/
def extension? (path : Path) : Option Name :=
  path.fileName?.bind suffixOf?

/-- The extension as text. -/
def extensionText? (path : Path) : Option String :=
  path.extension?.bind fun bytes => (Text.Utf8.decode? bytes).map String.ofList

/-- The path of names below each other. -/
def ofNames (names : List Name) : Path :=
  ⟨glue names⟩

theorem parts_ne_nil (bytes : List UInt8) : parts bytes ≠ [] := by
  cases bytes with
  | nil => simp [parts]
  | cons b rest => simp only [parts]; split <;> (try split) <;> simp

theorem glue_parts (bytes : List UInt8) : glue (parts bytes) = bytes := by
  induction bytes with
  | nil => rfl
  | cons b rest ih =>
    simp only [parts]
    split
    · next h =>
      cases hp : parts rest with
      | nil => exact absurd hp (parts_ne_nil rest)
      | cons part more =>
        rw [hp] at ih
        simp [glue, List.intercalate, List.intersperse, h] at ih ⊢
        exact ih
    · cases hp : parts rest with
      | nil => exact absurd hp (parts_ne_nil rest)
      | cons part more =>
        rw [hp] at ih
        cases more <;> simp [glue, List.intercalate, List.intersperse] at ih ⊢ <;> exact ih

end Path

end RepoContract
