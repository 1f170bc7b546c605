/-
# RepoContract.Text.Blank: white space

White space is the Unicode property of that name, twenty-five characters. Trimming and counting
words go by it; the zero width space, the byte order mark and the information separators are no
white space.
-/
namespace RepoContract.Text

set_option autoImplicit false

/-- A character of the White_Space property. -/
def isBlank (c : Char) : Bool :=
  let code := c.toNat
  (0x9 ≤ code && code ≤ 0xD) || code == 0x20 || code == 0x85 || code == 0xA0 || code == 0x1680 ||
    (0x2000 ≤ code && code ≤ 0x200A) || code == 0x2028 || code == 0x2029 || code == 0x202F ||
    code == 0x205F || code == 0x3000

/-- The text without the white space in front. -/
def trimStart (text : List Char) : List Char :=
  text.dropWhile isBlank

/-- The text without the white space at its end. -/
def trimEnd (text : List Char) : List Char :=
  (text.reverse.dropWhile isBlank).reverse

/-- The text without the white space around it. -/
def trim (text : List Char) : List Char :=
  trimEnd (trimStart text)

/-- The words of a text that follows a word character when `inside` holds. -/
def wordCountFrom : Bool → List Char → Nat
  | _, [] => 0
  | inside, c :: rest =>
    if isBlank c then wordCountFrom false rest
    else (if inside then 0 else 1) + wordCountFrom true rest

/-- How many maximal runs of characters other than white space a text has. -/
def wordCount (text : List Char) : Nat :=
  wordCountFrom false text

end RepoContract.Text
