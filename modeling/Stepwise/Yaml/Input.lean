/-!
# Text with a position

Reading YAML needs the place of every character: its line decides where a node
starts, its column the indentation, its index the length of a key. `Input` is the
text still to be read together with the place of its first character.
-/
namespace Stepwise.Yaml

/-- A place in a text: characters before it, lines before it, and characters before
it on its line. -/
structure Mark where
  index : Nat
  line : Nat
  column : Nat
  deriving DecidableEq, Repr, Inhabited

/-- The text still to be read, from a place on. -/
structure Input where
  rest : List Char
  mark : Mark
  deriving DecidableEq, Repr, Inhabited

def isBlank (c : Char) : Bool :=
  c == ' ' || c == '\t'

def isBreak (c : Char) : Bool :=
  c == '\n' || c == '\r' || c == '\u0085' || c == '\u2028' || c == '\u2029'

/-- The characters of names: letters, digits, the underscore and the hyphen. -/
def isNameChar (c : Char) : Bool :=
  ('0' ≤ c && c ≤ '9') || ('A' ≤ c && c ≤ 'Z') || ('a' ≤ c && c ≤ 'z') || c == '_' || c == '-'

/-- The characters that may stand in a text at all. -/
def isAllowed (c : Char) : Bool :=
  let n := c.toNat
  n == 0x09 || n == 0x0A || n == 0x0D || (0x20 ≤ n && n ≤ 0x7E) || n == 0x85 ||
    (0xA0 ≤ n && n ≤ 0xFFFD) || 0x10000 ≤ n

/-- Whether a place in a text is a blank, a line break or the end. -/
def isBlankOrEnd : Option Char → Bool
  | some c => isBlank c || isBreak c
  | none => true

/-- Whether a place in a text is a line break or the end. -/
def isBreakOrEnd : Option Char → Bool
  | some c => isBreak c
  | none => true

namespace Input

def ofText (text : List Char) : Input :=
  ⟨text, ⟨0, 0, 0⟩⟩

def next? (i : Input) : Option Char :=
  i.rest.head?

def ahead? (i : Input) (n : Nat) : Option Char :=
  i.rest[n]?

def isAt (i : Input) (c : Char) : Bool :=
  i.rest.head? == some c

/-- Passes one character of a line. -/
def skip (i : Input) : Input :=
  match i.rest with
  | [] => i
  | _ :: rest => ⟨rest, ⟨i.mark.index + 1, i.mark.line, i.mark.column + 1⟩⟩

/-- Passes a number of characters of a line. -/
def skipMany : Nat → Input → Input
  | 0, i => i
  | n + 1, i => skipMany n i.skip

/-- Passes one line break, which a carriage return and a line feed form together. -/
def skipBreak (i : Input) : Input :=
  match i.rest with
  | '\r' :: '\n' :: rest => ⟨rest, ⟨i.mark.index + 2, i.mark.line + 1, 0⟩⟩
  | _ :: rest => ⟨rest, ⟨i.mark.index + 1, i.mark.line + 1, 0⟩⟩
  | [] => i

/-- The characters that the next line break stands for: a line feed, or one of the two
Unicode separators as it is. Nothing when no break is next. -/
def breakText (i : Input) : List Char :=
  match i.rest with
  | c :: _ =>
    if c == '\u2028' || c == '\u2029' then [c]
    else if isBreak c then ['\n'] else []
  | [] => []

/-- Passes the characters of a line that satisfy a test. -/
def skipWhile (p : Char → Bool) (i : Input) : Input :=
  skipMany (i.rest.takeWhile p).length i

/-- Reads the characters of a line that satisfy a test. -/
def readWhile (p : Char → Bool) (i : Input) : List Char × Input :=
  (i.rest.takeWhile p, i.skipWhile p)

def skipLineRest (i : Input) : Input :=
  i.skipWhile fun c => !isBreak c

/-- Whether a line starts here with three equal marks that stand alone. -/
def isAtMarker (i : Input) (c : Char) : Bool :=
  i.mark.column == 0 && i.ahead? 0 == some c && i.ahead? 1 == some c && i.ahead? 2 == some c &&
    isBlankOrEnd (i.ahead? 3)

/-- Whether a document start or end mark stands here. -/
def isAtDocumentMark (i : Input) : Bool :=
  i.isAtMarker '-' || i.isAtMarker '.'

end Input
end Stepwise.Yaml
