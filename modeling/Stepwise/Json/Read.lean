import Stepwise.Json.Value

/-!
# Reading JSON

A strict reader of the JSON grammar. `first?` reads the value at the start of a
text and ignores what follows; `parse?` asks that nothing but white space
follows. Neither takes a value that is nested deeper than `maxDepth`.
-/
namespace Stepwise.Json

def isSpace (c : Char) : Bool :=
  c == ' ' || c == '\t' || c == '\n' || c == '\r'

def skipSpace (cs : List Char) : List Char :=
  cs.dropWhile isSpace

/-- The value of four hexadecimal digits. -/
def hexFour? (a b c d : Char) : Option Nat :=
  Text.hexNumber? [a, b, c, d]

/-- A unit of a string literal: a character as it is, or the number of a
`\u` escape, which may be half of a surrogate pair. -/
inductive StringUnit where
  | char (c : Char)
  | code (n : Nat)
  deriving DecidableEq, Repr

/-- The characters of a sequence of units. Two escapes that form a surrogate pair
are one character; half a pair on its own is the replacement character. -/
def joinUnits : List StringUnit → List Char
  | [] => []
  | [.char c] => [c]
  | [.code n] => [if 0xD800 ≤ n && n < 0xE000 then '\ufffd' else Char.ofNat n]
  | .char c :: u :: rest => c :: joinUnits (u :: rest)
  | .code n :: .char c :: rest =>
    (if 0xD800 ≤ n && n < 0xE000 then '\ufffd' else Char.ofNat n) :: joinUnits (.char c :: rest)
  | .code n :: .code m :: rest =>
    if 0xD800 ≤ n && n < 0xDC00 && 0xDC00 ≤ m && m < 0xE000 then
      Char.ofNat (0x10000 + (n - 0xD800) * 1024 + (m - 0xDC00)) :: joinUnits rest
    else
      (if 0xD800 ≤ n && n < 0xE000 then '\ufffd' else Char.ofNat n) ::
        joinUnits (.code m :: rest)

/-- The character a one-letter escape stands for. -/
def simpleEscape? (c : Char) : Option Char :=
  if c == '"' then some '"'
  else if c == '\\' then some '\\'
  else if c == '/' then some '/'
  else if c == 'b' then some '\x08'
  else if c == 'f' then some '\x0c'
  else if c == 'n' then some '\n'
  else if c == 'r' then some '\r'
  else if c == 't' then some '\t'
  else none

inductive Place where
  | valueStart
  | keyStart
  | afterKey
  | afterMember
  | afterItem
  | afterValue
  | stringText
  | escape
  | unicodeEscape
  | number
  | fraction
  | exponent
  | word (word : String) (expected : Char)
  deriving DecidableEq, Repr

def Place.text : Place → String
  | valueStart => "looking for beginning of value"
  | keyStart => "looking for beginning of object key string"
  | afterKey => "after object key"
  | afterMember => "after object key:value pair"
  | afterItem => "after array element"
  | afterValue => "after top-level value"
  | stringText => "in string literal"
  | escape => "in string escape code"
  | unicodeEscape => "in \\u hexadecimal character escape"
  | number => "in numeric literal"
  | fraction => "after decimal point in numeric literal"
  | exponent => "in exponent of numeric literal"
  | word name expected => "in literal " ++ name ++ " (expecting '" ++ expected.toString ++ "')"

inductive SyntaxFault where
  | endOfText
  | badChar (c : Char) (place : Place)
  | tooDeep
  deriving DecidableEq, Repr

abbrev Reading (α : Type) := Except SyntaxFault (α × List Char)

/-- The fault of a text that cannot go on at a place. -/
def refuse {α : Type} (place : Place) : List Char → Except SyntaxFault α
  | [] => .error .endOfText
  | c :: _ => .error (.badChar c place)

/-- Reads the rest of a string literal after its opening quote. Control characters
and unknown escapes are refused. -/
def readUnits : List Char → Reading (List StringUnit)
  | [] => .error .endOfText
  | '"' :: rest => .ok ([], rest)
  | '\\' :: 'u' :: rest =>
    match rest with
    | a :: b :: c :: d :: more =>
      match hexFour? a b c d with
      | some n => (readUnits more).map fun (units, rest) => (.code n :: units, rest)
      | none => refuse .unicodeEscape (rest.dropWhile fun c => (Text.hexValue? c).isSome)
    | rest => refuse .unicodeEscape (rest.dropWhile fun c => (Text.hexValue? c).isSome)
  | ['\\'] => .error .endOfText
  | '\\' :: e :: rest =>
    match simpleEscape? e with
    | some c => (readUnits rest).map fun (units, rest) => (.char c :: units, rest)
    | none => .error (.badChar e .escape)
  | c :: rest =>
    if c.toNat < 0x20 then .error (.badChar c .stringText)
    else (readUnits rest).map fun (units, rest) => (.char c :: units, rest)

/-- The text of a string literal after its opening quote, and what follows it. -/
def readString (cs : List Char) : Reading String :=
  (readUnits cs).map fun (units, rest) => (String.ofList (joinUnits units), rest)

/-- Splits off a run of decimal digits. -/
def spanDigits (cs : List Char) : List Char × List Char :=
  cs.span Char.isDigit

/-- Reads digits, at least one. -/
def readDigits (place : Place) (cs : List Char) : Reading (List Char) :=
  match spanDigits cs with
  | ([], rest) => refuse place rest
  | (digits, rest) => .ok (digits, rest)

/-- Reads the fraction of a number, if one starts here. -/
def readFraction : List Char → Reading (List Char)
  | '.' :: rest => (readDigits .fraction rest).map fun (digits, rest) => ('.' :: digits, rest)
  | rest => .ok ([], rest)

/-- Reads the exponent of a number, if one starts here. -/
def readExponent : List Char → Reading (List Char)
  | [] => .ok ([], [])
  | e :: rest =>
    if e == 'e' || e == 'E' then
      let (sign, rest) := match rest with
        | '+' :: rest => (['+'], rest)
        | '-' :: rest => (['-'], rest)
        | rest => ([], rest)
      (readDigits .exponent rest).map fun (digits, rest) => (e :: sign ++ digits, rest)
    else .ok ([], e :: rest)

/-- Reads the digits before the point: a single zero, or digits that do not start
with a zero. -/
def readWhole (place : Place) : List Char → Reading (List Char)
  | '0' :: rest => .ok (['0'], rest)
  | rest => readDigits place rest

def readNumber (cs : List Char) : Except SyntaxFault (String × List Char) := do
  let (sign, cs) := match cs with
    | '-' :: rest => (['-'], rest)
    | rest => ([], rest)
  let (whole, cs) ← readWhole (if sign.isEmpty then .valueStart else .number) cs
  let (fraction, cs) ← readFraction cs
  let (exponent, cs) ← readExponent cs
  return (String.ofList (sign ++ whole ++ fraction ++ exponent), cs)

/-- The rest of the text after a fixed word. -/
def afterWord? (word : String) (cs : List Char) : Option (List Char) :=
  word.toList.isPrefixOf? cs

/-- Reads the letters of a word that are left. -/
def readLetters (word : String) : List Char → List Char → Except SyntaxFault (List Char)
  | [], cs => .ok cs
  | _ :: _, [] => .error .endOfText
  | letter :: letters, c :: cs =>
    if c == letter then readLetters word letters cs else .error (.badChar c (.word word letter))

def readWord (word : String) (value : Json) (cs : List Char) : Reading Json :=
  (readLetters word word.toList cs).map fun rest => (value, rest)

mutual

/-- Reads one value. The first argument bounds the nesting and the number of items
together; the length of the text is always enough. -/
def readValue : Nat → List Char → Reading Json
  | 0, _ => .error .endOfText
  | fuel + 1, cs =>
    match skipSpace cs with
    | '"' :: rest => (readString rest).map fun (s, rest) => (.string s, rest)
    | '[' :: rest =>
      match skipSpace rest with
      | ']' :: rest => .ok (.array [], rest)
      | rest => (readItems fuel rest).map fun (vs, rest) => (.array vs, rest)
    | '\x7b' :: rest =>
      match skipSpace rest with
      | '\x7d' :: rest => .ok (.object [], rest)
      | rest => (readMembers fuel rest).map fun (ms, rest) => (.object ms, rest)
    | 't' :: rest => readWord "true" (.bool true) ('t' :: rest)
    | 'f' :: rest => readWord "false" (.bool false) ('f' :: rest)
    | 'n' :: rest => readWord "null" .null ('n' :: rest)
    | rest => (readNumber rest).map fun (n, rest) => (.number n, rest)

/-- Reads the items of an array up to its closing bracket. -/
def readItems : Nat → List Char → Reading (List Json)
  | 0, _ => .error .endOfText
  | fuel + 1, cs =>
    match readValue fuel cs with
    | .error e => .error e
    | .ok (v, rest) =>
      match skipSpace rest with
      | ',' :: rest => (readItems fuel rest).map fun (vs, rest) => (v :: vs, rest)
      | ']' :: rest => .ok ([v], rest)
      | rest => refuse .afterItem rest

/-- Reads the members of an object up to its closing brace. -/
def readMembers : Nat → List Char → Reading (List (String × Json))
  | 0, _ => .error .endOfText
  | fuel + 1, cs =>
    match skipSpace cs with
    | '"' :: rest =>
      match readString rest with
      | .error e => .error e
      | .ok (k, rest) =>
        match skipSpace rest with
        | ':' :: rest =>
          match readValue fuel rest with
          | .error e => .error e
          | .ok (v, rest) =>
            match skipSpace rest with
            | ',' :: rest => (readMembers fuel rest).map fun (ms, rest) => ((k, v) :: ms, rest)
            | '\x7d' :: rest => .ok ([(k, v)], rest)
            | rest => refuse .afterMember rest
        | rest => refuse .afterKey rest
    | rest => refuse .keyStart rest

end

/-- The greatest depth to which arrays and objects may be nested. -/
def maxDepth : Nat := 10000

mutual

/-- Whether a value is nested at most to a depth. -/
def fitsDepth : Nat → Json → Bool
  | 0, .array _ => false
  | 0, .object _ => false
  | depth + 1, .array items => itemsFitDepth depth items
  | depth + 1, .object members => membersFitDepth depth members
  | _, _ => true

/-- Whether all items are nested at most to a depth. -/
def itemsFitDepth (depth : Nat) : List Json → Bool
  | [] => true
  | v :: rest => fitsDepth depth v && itemsFitDepth depth rest

/-- Whether the values of all members are nested at most to a depth. -/
def membersFitDepth (depth : Nat) : List (String × Json) → Bool
  | [] => true
  | (_, v) :: rest => fitsDepth depth v && membersFitDepth depth rest

end

/-- The value at the start of a text; what follows it is ignored. -/
def first? (text : String) : Option Json :=
  match readValue (text.length + 2) text.toList with
  | .ok (v, _) => if fitsDepth maxDepth v then some v else none
  | .error _ => none

/-- The value of a text that holds nothing else. -/
def parse (text : String) : Except SyntaxFault Json :=
  match readValue (text.length + 2) text.toList with
  | .error e => .error e
  | .ok (v, rest) =>
    match skipSpace rest with
    | [] => if fitsDepth maxDepth v then .ok v else .error .tooDeep
    | rest => refuse .afterValue rest

/-- The value of a text that holds nothing else, if it has one. -/
def parse? (text : String) : Option Json :=
  (parse text).toOption

end Stepwise.Json
