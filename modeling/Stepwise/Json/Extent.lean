import Stepwise.Json.Read

/-!
# Where a value ends

A request is read with the least care that finds its fields. A value that no field
asks for is passed over by its brackets and quotes alone: inside an object only
braces are counted, inside an array only square brackets, and a string ends at the
first quote that no backslash protects. Each function splits a text into the value
and what follows it, so nothing is lost and the value keeps its exact spelling.
-/
namespace Stepwise.Json

/-- The value as it is written, and the text after it. -/
abbrev Extent := List Char × List Char

/-- Splits off the rest of a string, closing quote included. A backslash takes the
next character with it. -/
def restOfString : List Char → Option Extent
  | [] => none
  | '"' :: rest => some (['"'], rest)
  | '\\' :: c :: rest => (restOfString rest).map fun (s, rest) => ('\\' :: c :: s, rest)
  | c :: rest =>
    if c == '\\' then none
    else (restOfString rest).map fun (s, rest) => (c :: s, rest)

/-- Splits off the rest of an object or an array after its opening bracket. Only the
brackets of that kind are counted, and strings are passed over whole. -/
def restOfNested (opening closing : Char) (depth : Nat) (inString : Bool) :
    List Char → Option Extent
  | [] => none
  | c :: rest =>
    if inString then
      match c, rest with
      | '\\', d :: rest =>
        (restOfNested opening closing depth true rest).map fun (s, rest) => ('\\' :: d :: s, rest)
      | '\\', [] => none
      | c, rest =>
        (restOfNested opening closing depth (c != '"') rest).map fun (s, rest) => (c :: s, rest)
    else if c == closing then
      match depth with
      | 0 => some ([c], rest)
      | depth + 1 =>
        (restOfNested opening closing depth false rest).map fun (s, rest) => (c :: s, rest)
    else
      let depth := if c == opening then depth + 1 else depth
      (restOfNested opening closing depth (c == '"') rest).map fun (s, rest) => (c :: s, rest)

def isNumberChar (c : Char) : Bool :=
  c.isDigit || c == '.' || c == 'e' || c == 'E' || c == '+' || c == '-'

/-- Splits off a fixed word. -/
def spanWord (word : String) (cs : List Char) : Option Extent :=
  (afterWord? word cs).map fun rest => (word.toList, rest)

/-- Whether a value begins with this character. -/
def startsValue (c : Char) : Bool :=
  c == '\x7b' || c == '[' || c == '"' || c == '-' || c.isDigit ||
    c == 't' || c == 'f' || c == 'n'

/-- Splits off the value at the very start of a text. -/
def spanValue : List Char → Option Extent
  | [] => none
  | c :: rest =>
    if c == '\x7b' then
      (restOfNested '\x7b' '\x7d' 0 false rest).map fun (s, rest) => (c :: s, rest)
    else if c == '[' then
      (restOfNested '[' ']' 0 false rest).map fun (s, rest) => (c :: s, rest)
    else if c == '"' then (restOfString rest).map fun (s, rest) => (c :: s, rest)
    else if c == '-' || c.isDigit then
      some (c :: rest.takeWhile isNumberChar, rest.dropWhile isNumberChar)
    else if c == 't' then spanWord "true" (c :: rest)
    else if c == 'f' then spanWord "false" (c :: rest)
    else if c == 'n' then spanWord "null" (c :: rest)
    else none

/-- Whether brackets outside strings are nested at most `room` deep. Brackets of both
kinds count alike, and a string ends as in `restOfString`. -/
def nestsWithin (room : Int) (inString : Bool) : List Char → Bool
  | [] => true
  | c :: rest =>
    if inString then
      match c, rest with
      | '\\', _ :: rest => nestsWithin room true rest
      | c, rest => nestsWithin room (c != '"') rest
    else if c == '\x7b' || c == '[' then 0 < room && nestsWithin (room - 1) false rest
    else if c == '\x7d' || c == ']' then nestsWithin (room + 1) false rest
    else nestsWithin room (c == '"') rest

/-- Splits off the value at the very start of a text, unless it is nested too deep. -/
def spanWithin (depth : Nat) (cs : List Char) : Option Extent :=
  match spanValue cs with
  | some (value, rest) => if nestsWithin depth false value then some (value, rest) else none
  | none => none

/-- The text up to the first NUL, which ends an input. -/
def upToNul (text : String) : List Char :=
  text.toList.takeWhile fun c => c.toNat != 0

end Stepwise.Json
