import Stepwise.Json.Extent
import Stepwise.Number.Word

/-!
# Reading records

A reader takes a value of its type from the front of a text and needs the value
that stood there before: `null` leaves it as it is, and a record changes only the
fields that it names. Of a field that is written twice the last wins, field names
are compared without regard to ASCII case, and unknown fields are passed over.
-/
namespace Stepwise.Json

/-- Takes a new value from the front of a text, given the old one. -/
def Reader (α : Type) : Type := α → List Char → Option (α × List Char)

namespace Reader

def afterNull? (cs : List Char) : Option (List Char) :=
  afterWord? "null" cs

/-- The units of a string after its opening quote, and the text after it. An escape by
number needs four digits; an unknown escape stands for NUL. -/
def stringUnits : List Char → Option (List StringUnit × List Char)
  | [] => none
  | '"' :: rest => some ([], rest)
  | '\\' :: 'u' :: a :: b :: c :: d :: rest =>
    match hexFour? a b c d with
    | some n => (stringUnits rest).map fun (units, rest) => (.code n :: units, rest)
    | none => none
  | '\\' :: e :: rest =>
    if e == 'u' then none
    else
      (stringUnits rest).map fun (units, rest) =>
        (.char ((simpleEscape? e).getD '\x00') :: units, rest)
  | c :: rest =>
    if c == '\\' then none
    else (stringUnits rest).map fun (units, rest) => (.char c :: units, rest)

/-- A string after its opening quote. -/
def restOfText (cs : List Char) : Option (String × List Char) :=
  (stringUnits cs).map fun (units, rest) => (String.ofList (joinUnits units), rest)

def text : Reader String := fun old cs =>
  match skipSpace cs with
  | '"' :: rest => restOfText rest
  | rest => (afterNull? rest).map fun rest => (old, rest)

def digitsValue (digits : List Char) : Nat :=
  digits.foldl (fun n c => 10 * n + (c.toNat - 48)) 0

/-- Reads a whole number of at most nineteen digits; what exceeds 64 bits wraps around.
A leading zero is a number of its own. -/
def int : Reader Int := fun old cs =>
  match skipSpace cs with
  | '0' :: rest => some (0, rest)
  | '-' :: rest =>
    let (digits, rest) := spanDigits rest
    if digits.length ≤ 19 then some (Number.wrap64 (-(digitsValue digits : Int)), rest) else none
  | rest =>
    match spanDigits rest with
    | ([], rest) => (afterNull? rest).map fun rest => (old, rest)
    | (digits, rest) =>
      if digits.length ≤ 19 then some (Number.wrap64 (digitsValue digits), rest) else none

/-- Reads a whole number that has to lie in a range. -/
def intIn (low high : Int) : Reader Int := fun old cs =>
  match int old cs with
  | some (n, rest) => if low ≤ n && n ≤ high then some (n, rest) else none
  | none => none

/-- Reads a number from 0 to 2^32 - 1. -/
def word32 : Reader Nat := fun old cs =>
  match skipSpace cs with
  | '0' :: rest => some (0, rest)
  | rest =>
    match spanDigits rest with
    | ([], rest) => (afterNull? rest).map fun rest => (old, rest)
    | (digits, rest) =>
      let n := digitsValue digits % Number.wordCount64
      if digits.length ≤ 20 && n < Number.wordCount32 then some (n, rest) else none

/-- The greatest depth of a value inside a record, which is one level itself. -/
def fieldDepth : Nat := maxDepth - 1

/-- Keeps a value of any form as it is written. -/
def raw : Reader (Option String) := fun _ cs =>
  (spanWithin fieldDepth (skipSpace cs)).map fun (value, rest) => (some (String.ofList value), rest)

/-- Passes over a value of any form. -/
def ignored {α : Type} : Reader α := fun old cs =>
  (spanWithin fieldDepth (skipSpace cs)).map fun (_, rest) => (old, rest)

/-- Reads a value that may be absent: `null` makes it so. -/
def optional {α : Type} (fresh : α) (item : Reader α) : Reader (Option α) := fun old cs =>
  match afterNull? (skipSpace cs) with
  | some rest => some (none, rest)
  | none => (item (old.getD fresh) cs).map fun (a, rest) => (some a, rest)

/-- Reads the items of an array up to its closing bracket, each onto the old item in its
place. -/
def items {α : Type} (fresh : α) (item : Reader α) : Nat → List α → List Char →
    Option (List α × List Char)
  | 0, _, _ => none
  | fuel + 1, old, cs =>
    match item (old.headD fresh) cs with
    | none => none
    | some (a, rest) =>
      match skipSpace rest with
      | ',' :: rest => (items fresh item fuel old.tail rest).map fun (as, rest) => (a :: as, rest)
      | ']' :: rest => some ([a], rest)
      | _ => none

def list {α : Type} (fresh : α) (item : Reader α) : Reader (List α) := fun old cs =>
  match skipSpace cs with
  | '[' :: rest =>
    match skipSpace rest with
    | ']' :: rest => some ([], rest)
    | rest => items fresh item (rest.length + 1) old rest
  | rest => (afterNull? rest).map fun rest => ([], rest)

/-- A field of a record: its name, and how the record changes when it is read. -/
structure Field (σ : Type) where
  name : String
  read : Reader σ

/-- A field through a view of the record. -/
def field {σ α : Type} (name : String) (get : σ → α) (set : σ → α → σ) (item : Reader α) :
    Field σ where
  name := name
  read := fun s cs => (item (get s) cs).map fun (a, rest) => (set s a, rest)

def asciiLower (text : String) : String :=
  String.ofList (text.toList.map Char.toLower)

/-- Reads the value of the field with a name; an unknown field is passed over. -/
def member {σ : Type} (fields : List (Field σ)) (name : String) : Reader σ :=
  match fields.find? fun f => asciiLower f.name == asciiLower name with
  | some f => f.read
  | none => ignored

/-- Reads the members of a record up to its closing brace. -/
def members {σ : Type} (fields : List (Field σ)) : Nat → σ → List Char → Option (σ × List Char)
  | 0, _, _ => none
  | fuel + 1, s, cs =>
    match skipSpace cs with
    | '"' :: rest =>
      match restOfText rest with
      | none => none
      | some (name, rest) =>
        match skipSpace rest with
        | ':' :: rest =>
          match member fields name s rest with
          | none => none
          | some (s, rest) =>
            match skipSpace rest with
            | '\x7d' :: rest => some (s, rest)
            | ',' :: rest => members fields fuel s rest
            | _ => none
        | _ => none
    | _ => none

def record {σ : Type} (fields : List (Field σ)) : Reader σ := fun old cs =>
  match skipSpace cs with
  | '\x7b' :: rest =>
    match skipSpace rest with
    | '\x7d' :: rest => some (old, rest)
    | rest => members fields (rest.length + 1) old rest
  | rest => (afterNull? rest).map fun rest => (old, rest)

/-- Reads a whole text, which may hold nothing more than white space after the value. -/
def run {α : Type} (reader : Reader α) (start : α) (text : String) : Option α :=
  match reader start (upToNul text) with
  | some (a, rest) => if (skipSpace rest).isEmpty then some a else none
  | none => none

end Reader
end Stepwise.Json
