/-!
# White space, words and trimming

A line of a document is read through one set of white-space characters, the
characters that carry the Unicode property White_Space. Words, trimming and the
columns of `Stepwise.Text.Line` are all built on the same test, so that they
agree on what is content.
-/
namespace Stepwise.Text

/-- The characters with the property White_Space. The ASCII separators U+001C to
U+001F, the zero width space and the byte order mark are not among them. -/
def isBlank (c : Char) : Bool :=
  let n := c.toNat
  (9 ≤ n && n ≤ 13) || n == 0x20 || n == 0x85 || n == 0xA0 || n == 0x1680 ||
    (0x2000 ≤ n && n ≤ 0x200A) || n == 0x2028 || n == 0x2029 || n == 0x202F ||
    n == 0x205F || n == 0x3000

/-- The maximal runs of characters that are not white space, in order. -/
def wordsOf : List Char → List (List Char)
  | [] => []
  | c :: cs =>
    if isBlank c then wordsOf cs
    else match cs, wordsOf cs with
      | d :: _, w :: ws => if isBlank d then [c] :: w :: ws else (c :: w) :: ws
      | _, ws => [c] :: ws

/-- The white-space delimited words of a text. -/
def words (text : String) : List String :=
  (wordsOf text.toList).map String.ofList

def trimStart (cs : List Char) : List Char :=
  cs.dropWhile isBlank

/-- Drops white space at the end. -/
def trimEnd (cs : List Char) : List Char :=
  (trimStart cs.reverse).reverse

/-- Drops white space at both ends. -/
def trimBoth (cs : List Char) : List Char :=
  trimEnd (trimStart cs)

/-- A text without the white space at its two ends. -/
def trim (text : String) : String :=
  String.ofList (trimBoth text.toList)

def joinWords (ws : List String) : String :=
  " ".intercalate ws

def startsWith (opening text : String) : Bool :=
  opening.toList.isPrefixOf text.toList

/-- The parts of a text between the occurrences of a separator. There is always at
least one part. -/
def splitAtChar (separator : Char) (text : String) : List String :=
  (text.toList.splitOnP (· == separator)).map String.ofList

end Stepwise.Text
