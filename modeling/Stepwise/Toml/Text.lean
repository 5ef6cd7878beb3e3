import Stepwise.Json.Read
import Stepwise.Settings.Value

/-!
# Keys and strings of TOML

A key is a dotted sequence of bare words and quoted strings. A string is basic, with
escapes, or literal, without; either may span lines when its quotes are tripled.
-/
namespace Stepwise.Toml

/-- The white space inside a line. -/
def isSpace (c : Char) : Bool :=
  c == ' ' || c == '\t'

/-- Drops white space inside a line. -/
def skipSpace (cs : List Char) : List Char :=
  cs.dropWhile isSpace

/-- A control character that may not stand in a string or a comment. -/
def isForbidden (c : Char) : Bool :=
  (c.toNat < 0x20 && c != '\t') || c.toNat == 0x7f

def isBare (c : Char) : Bool :=
  c.isAlphanum || c == '_' || c == '-'

/-- The character with a number, if it is one. -/
def scalarOf? (n : Nat) : Option Char :=
  if n.isValidChar then some (Char.ofNat n) else none

/-- The character of an escape after its backslash, and the rest. -/
def readEscape : List Char → Option (Char × List Char)
  | 'b' :: rest => some ('\x08', rest)
  | 't' :: rest => some ('\t', rest)
  | 'n' :: rest => some ('\n', rest)
  | 'f' :: rest => some ('\x0c', rest)
  | 'r' :: rest => some ('\r', rest)
  | 'e' :: rest => some ('\x1b', rest)
  | '"' :: rest => some ('"', rest)
  | '\\' :: rest => some ('\\', rest)
  | 'u' :: rest =>
    if rest.length < 4 then none
    else ((Text.hexNumber? (rest.take 4)).bind scalarOf?).map fun c => (c, rest.drop 4)
  | 'U' :: rest =>
    if rest.length < 8 then none
    else ((Text.hexNumber? (rest.take 8)).bind scalarOf?).map fun c => (c, rest.drop 8)
  | _ => none

def dropLineEnd : List Char → List Char
  | '\n' :: rest => rest
  | '\r' :: '\n' :: rest => rest
  | rest => rest

/-- Whether a backslash here only joins two lines: nothing but white space follows on its
line. -/
def joinsLines (cs : List Char) : Bool :=
  match skipSpace cs with
  | '\n' :: _ => true
  | '\r' :: '\n' :: _ => true
  | _ => false

/-- Drops all white space and line ends. -/
def skipBlank (cs : List Char) : List Char :=
  cs.dropWhile fun c => isSpace c || c == '\n' || c == '\r'

/-- Reads a basic string after its opening quote. -/
def readBasic : Nat → List Char → Option (List Char × List Char)
  | 0, _ => none
  | _, [] => none
  | fuel + 1, c :: rest =>
    if c == '"' then some ([], rest)
    else if c == '\\' then
      match readEscape rest with
      | some (e, rest) => (readBasic fuel rest).map fun (s, rest) => (e :: s, rest)
      | none => none
    else if isForbidden c then none
    else (readBasic fuel rest).map fun (s, rest) => (c :: s, rest)

/-- Reads a basic string of many lines after its opening quotes. One or two quotes before
the closing ones belong to the string. -/
def readLongBasic : Nat → List Char → Option (List Char × List Char)
  | 0, _ => none
  | _, [] => none
  | fuel + 1, c :: rest =>
    match c, rest with
    | '"', '"' :: '"' :: '"' :: '"' :: rest => some (['"', '"'], rest)
    | '"', '"' :: '"' :: '"' :: rest => some (['"'], rest)
    | '"', '"' :: '"' :: rest => some ([], rest)
    | '\\', rest =>
      if joinsLines rest then readLongBasic fuel (skipBlank rest)
      else
        match readEscape rest with
        | some (e, rest) => (readLongBasic fuel rest).map fun (s, rest) => (e :: s, rest)
        | none => none
    | '\r', '\n' :: rest =>
      (readLongBasic fuel rest).map fun (s, rest) => ('\r' :: '\n' :: s, rest)
    | c, rest =>
      if isForbidden c && c != '\n' then none
      else (readLongBasic fuel rest).map fun (s, rest) => (c :: s, rest)

/-- Reads a literal string after its opening quote. -/
def readLiteral (cs : List Char) : Option (List Char × List Char) :=
  let body := cs.takeWhile fun c => c != '\'' && !isForbidden c
  match cs.dropWhile fun c => c != '\'' && !isForbidden c with
  | '\'' :: rest => some (body, rest)
  | _ => none

/-- Reads a literal string of many lines after its opening quotes. -/
def readLongLiteral : List Char → Option (List Char × List Char)
  | [] => none
  | '\'' :: '\'' :: '\'' :: '\'' :: '\'' :: rest => some (['\'', '\''], rest)
  | '\'' :: '\'' :: '\'' :: '\'' :: rest => some (['\''], rest)
  | '\'' :: '\'' :: '\'' :: rest => some ([], rest)
  | c :: rest =>
    if isForbidden c && c != '\n' && c != '\r' then none
    else (readLongLiteral rest).map fun (s, rest) => (c :: s, rest)

def readString : List Char → Option (String × List Char)
  | '"' :: '"' :: '"' :: rest =>
    let rest := dropLineEnd rest
    (readLongBasic (rest.length + 1) rest).map fun (s, rest) => (String.ofList s, rest)
  | '"' :: rest => (readBasic (rest.length + 1) rest).map fun (s, rest) => (String.ofList s, rest)
  | '\'' :: '\'' :: '\'' :: rest =>
    (readLongLiteral (dropLineEnd rest)).map fun (s, rest) => (String.ofList s, rest)
  | '\'' :: rest => (readLiteral rest).map fun (s, rest) => (String.ofList s, rest)
  | _ => none

/-- Reads one part of a key. A quoted part is on one line. -/
def readKeyPart (cs : List Char) : Option (String × List Char) :=
  match cs with
  | '"' :: rest => (readBasic (rest.length + 1) rest).map fun (s, rest) => (String.ofList s, rest)
  | '\'' :: rest => (readLiteral rest).map fun (s, rest) => (String.ofList s, rest)
  | cs =>
    match cs.takeWhile isBare with
    | [] => none
    | word => some (String.ofList word, cs.dropWhile isBare)

def readKey : Nat → List Char → Option (List String × List Char)
  | 0, _ => none
  | fuel + 1, cs =>
    match readKeyPart (skipSpace cs) with
    | none => none
    | some (part, rest) =>
      match skipSpace rest with
      | '.' :: rest => (readKey fuel rest).map fun (parts, rest) => (part :: parts, rest)
      | rest => some ([part], rest)

end Stepwise.Toml
