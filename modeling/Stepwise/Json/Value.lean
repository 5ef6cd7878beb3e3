import Stepwise.Text.Hex

/-!
# JSON values and their text

A value keeps the members of an object in source order and the text of a number
as written, so that an echo of a value does not change it. `render` writes the
compact text that responses use: no spaces, and every character that is unsafe
inside a page written as an escape.
-/
namespace Stepwise

/-- A JSON value. Members keep their order and repeats; a number keeps its text. -/
inductive Json where
  | null
  | bool (value : Bool)
  | number (text : String)
  | string (text : String)
  | array (items : List Json)
  | object (members : List (String × Json))
  deriving BEq, Repr, Inhabited

namespace Json

/-- The escape of a character by its four-digit number. -/
def unicodeEscape (n : Nat) : List Char :=
  '\\' :: 'u' :: Text.hexDigits 4 n

/-- Characters that are written as escapes although JSON does not ask for it: the
angle brackets, the ampersand and the two line separators. -/
def isUnsafeInPage (c : Char) : Bool :=
  c == '<' || c == '>' || c == '&' || c == '\u2028' || c == '\u2029'

/-- The written form of one character of a string. -/
def escapeChar (c : Char) : List Char :=
  if c == '"' then ['\\', '"']
  else if c == '\\' then ['\\', '\\']
  else if c == '\n' then ['\\', 'n']
  else if c == '\r' then ['\\', 'r']
  else if c == '\t' then ['\\', 't']
  else if c.toNat < 0x20 || isUnsafeInPage c then unicodeEscape c.toNat
  else [c]

def quote (text : String) : String :=
  String.ofList ('"' :: text.toList.flatMap escapeChar ++ ['"'])

mutual

def render : Json → String
  | null => "null"
  | bool true => "true"
  | bool false => "false"
  | number text => text
  | string text => quote text
  | array items => "[" ++ renderItems items ++ "]"
  | object members => "\x7b" ++ renderMembers members ++ "\x7d"

/-- The items of an array, separated by commas. -/
def renderItems : List Json → String
  | [] => ""
  | [v] => render v
  | v :: w :: rest => render v ++ "," ++ renderItems (w :: rest)

/-- The members of an object, separated by commas. -/
def renderMembers : List (String × Json) → String
  | [] => ""
  | [(k, v)] => quote k ++ ":" ++ render v
  | (k, v) :: m :: rest => quote k ++ ":" ++ render v ++ "," ++ renderMembers (m :: rest)

end

def ofInt (n : Int) : Json :=
  number (toString n)

def ofNat (n : Nat) : Json :=
  number (toString n)

def ofStrings (texts : List String) : Json :=
  array (texts.map string)

/-- An object from its members, leaving out the absent ones. -/
def record (members : List (String × Option Json)) : Json :=
  object (members.filterMap fun (k, v) => v.map fun v => (k, v))

/-- A text member that is left out when empty. -/
def nonEmpty (text : String) : Option Json :=
  if text.isEmpty then none else some (string text)

/-- The last member with a given name. -/
def get? (v : Json) (name : String) : Option Json :=
  match v with
  | object members => (members.reverse.find? (·.1 == name)).map (·.2)
  | _ => none

end Json
end Stepwise
