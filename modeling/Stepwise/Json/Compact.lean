import Stepwise.Json.Extent
import Stepwise.Json.Fault
import Stepwise.Number.Literal

/-!
# Compaction

Compaction drops the white space between the tokens of a value and leaves the
tokens as they are written. The structure is checked on the way: members have
names, items have separators, and a number is one that has a double. Strings are
not looked into, except that characters unsafe inside a page can be escaped.
-/
namespace Stepwise.Json

/-- What has to stand at a place between two values. -/
inductive Mark where
  | colon
  | commaOfMembers
  | commaOfItems
  deriving DecidableEq, Repr

/-- Why a text is not compacted. A character that is missing because the text is at its
end is `none`. -/
inductive CompactFault where
  | noValue (c : Option Char)
  | noString (c : Option Char)
  | openString
  | cutWord (word : String)
  | badWord (word : String)
  | number (text : String) (fault : Number.LiteralFault)
  | expected (mark : Mark)
  | afterValue (c : Char)
  deriving DecidableEq, Repr

def Mark.text : Mark → String
  | colon => "colon after object key"
  | commaOfMembers => "comma after object value"
  | commaOfItems => "comma after array value"

def CompactFault.message : CompactFault → String
  | noValue c => "unexpected character '" ++ (firstOctet (c.getD '\x00')).toString ++ "'"
  | noString (some c) => "json: invalid character " ++ (firstOctet c).toString ++ " as string"
  | noString none => "json: invalid character as string"
  | openString => "json: string unexpected end of JSON input"
  | cutWord word => "json: " ++ word ++ " unexpected end of JSON input"
  | badWord word =>
    "json: invalid character " ++ String.ofList (word.toList.take 1) ++ " as " ++ word
  | number text fault =>
    "strconv.ParseFloat: parsing " ++ Text.quoted text ++ ": " ++
      match fault with
      | .notLiteral => "invalid syntax"
      | .outOfRange => "value out of range"
  | expected mark => "expected " ++ mark.text
  | afterValue c =>
    "invalid character '" ++ (firstOctet c).toString ++ "' after top-level value"

/-- What compaction makes of the front of a text, and the rest of the text. -/
abbrev Compaction := Except CompactFault Extent

/-- The text of a string with its unsafe characters written as escapes. A character
after a backslash stays as it is. -/
def escapeUnsafe : List Char → List Char
  | [] => []
  | '\\' :: c :: rest => '\\' :: c :: escapeUnsafe rest
  | c :: rest =>
    (if isUnsafeInPage c then unicodeEscape c.toNat else [c]) ++ escapeUnsafe rest

/-- Splits off a string; with `escape`, unsafe characters are written as escapes. -/
def compactString (escape : Bool) : List Char → Compaction
  | '"' :: rest =>
    match restOfString rest with
    | some (s, rest) => .ok ('"' :: (if escape then escapeUnsafe s else s), rest)
    | none => .error .openString
  | cs => .error (.noString cs.head?)

/-- Splits off a number that has a double. -/
def compactNumber : List Char → Compaction
  | [] => .error (.noValue none)
  | c :: rest =>
    if c == '-' || c.isDigit then
      let number := c :: rest.takeWhile isNumberChar
      let text := String.ofList number
      if (Number.parseFloat? text).isSome then .ok (number, rest.dropWhile isNumberChar)
      else .error (.number text (Number.literalFault text))
    else .error (.noValue (some c))

/-- Splits off a fixed word. A text that is too short for it by more than one octet ends
inside the word. -/
def compactWord (word : String) (cs : List Char) : Compaction :=
  match spanWord word cs with
  | some extent => .ok extent
  | none =>
    if (String.ofList cs).utf8ByteSize + 1 < word.utf8ByteSize then .error (.cutWord word)
    else .error (.badWord word)

mutual

/-- Splits off one value without its white space. The first argument bounds the nesting
and the number of items together; the length of the text is always enough. -/
def compactValue (escape : Bool) : Nat → List Char → Compaction
  | 0, _ => .error (.noValue none)
  | fuel + 1, cs =>
    match skipSpace cs with
    | '\x7b' :: rest =>
      match skipSpace rest with
      | '\x7d' :: rest => .ok (['\x7b', '\x7d'], rest)
      | rest => (compactMembers escape fuel rest).map fun (s, rest) => ('\x7b' :: s, rest)
    | '[' :: rest =>
      match skipSpace rest with
      | ']' :: rest => .ok (['[', ']'], rest)
      | rest => (compactItems escape fuel rest).map fun (s, rest) => ('[' :: s, rest)
    | '"' :: rest => compactString escape ('"' :: rest)
    | 't' :: rest => compactWord "true" ('t' :: rest)
    | 'f' :: rest => compactWord "false" ('f' :: rest)
    | 'n' :: rest => compactWord "null" ('n' :: rest)
    | rest => compactNumber rest

/-- Splits off the items of an array, closing bracket included. -/
def compactItems (escape : Bool) : Nat → List Char → Compaction
  | 0, _ => .error (.noValue none)
  | fuel + 1, cs =>
    match compactValue escape fuel cs with
    | .error fault => .error fault
    | .ok (value, rest) =>
      match skipSpace rest with
      | ',' :: rest =>
        (compactItems escape fuel rest).map fun (s, rest) => (value ++ ',' :: s, rest)
      | ']' :: rest => .ok (value ++ [']'], rest)
      | _ => .error (.expected .commaOfItems)

/-- Splits off the members of an object, closing brace included. -/
def compactMembers (escape : Bool) : Nat → List Char → Compaction
  | 0, _ => .error (.noString none)
  | fuel + 1, cs =>
    match compactString escape (skipSpace cs) with
    | .error fault => .error fault
    | .ok (name, rest) =>
      match skipSpace rest with
      | ':' :: rest =>
        match compactValue escape fuel rest with
        | .error fault => .error fault
        | .ok (value, rest) =>
          match skipSpace rest with
          | ',' :: rest =>
            (compactMembers escape fuel rest).map fun (s, rest) =>
              (name ++ ':' :: value ++ ',' :: s, rest)
          | '\x7d' :: rest => .ok (name ++ ':' :: value ++ ['\x7d'], rest)
          | _ => .error (.expected .commaOfMembers)
      | _ => .error (.expected .colon)

end

/-- The value of a text without the white space between its tokens. Nothing but white
space may follow it. -/
def compact (escape : Bool) (text : String) : Except CompactFault String :=
  let cs := upToNul text
  match compactValue escape (cs.length + 2) cs with
  | .error fault => .error fault
  | .ok (value, rest) =>
    match skipSpace rest with
    | [] => .ok (String.ofList value)
    | c :: _ => .error (.afterValue c)

/-- The compacted text alone, for a reader that does not tell one fault from another. -/
def compact? (escape : Bool) (text : String) : Option String :=
  (compact escape text).toOption

end Stepwise.Json
