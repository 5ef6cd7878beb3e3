import Stepwise.Number.Decimal
import Stepwise.Number.Literal
import Stepwise.Number.Word
import Stepwise.Yaml.Timestamp

/-!
# The meaning of scalars

A plain scalar is a null, a truth value, a number or a timestamp if it is written
like one, and a text otherwise. A tag may ask for one of these; a scalar that is
not written like it is then refused.
-/
namespace Stepwise.Yaml

inductive Tag where
  | str
  | int
  | float
  | bool
  | null
  | timestamp
  | binary
  | merge
  | seq
  | map
  | other (text : String)
  deriving DecidableEq, Repr

namespace Tag

/-- What the tags of the standard types start with. -/
def standard : String := "tag:yaml.org,2002:"

/-- The tag that a full or short text names. -/
def ofText (text : String) : Tag :=
  let name := ((standard.toList.isPrefixOf? text.toList).orElse fun _ =>
    "!!".toList.isPrefixOf? text.toList).map String.ofList
  match name with
  | some "str" => str
  | some "int" => int
  | some "float" => float
  | some "bool" => bool
  | some "null" => null
  | some "timestamp" => timestamp
  | some "binary" => binary
  | some "merge" => merge
  | some "seq" => seq
  | some "map" => map
  | _ => other text

/-- A tag as it is shown, in its short form. -/
def text : Tag → String
  | str => "!!str"
  | int => "!!int"
  | float => "!!float"
  | bool => "!!bool"
  | null => "!!null"
  | timestamp => "!!timestamp"
  | binary => "!!binary"
  | merge => "!!merge"
  | seq => "!!seq"
  | map => "!!map"
  | other full =>
    match standard.toList.isPrefixOf? full.toList with
    | some name => "!!" ++ String.ofList name
    | none => full

end Tag

inductive Scalar where
  | null
  | bool (value : Bool)
  | int (value : Int)
  | float (value : Number.Binary64)
  | infinity (negative : Bool)
  | notANumber
  | time (value : Timestamp)
  | text (value : String)
  deriving DecidableEq, Repr

namespace Scalar

def tag : Scalar → Tag
  | null => .null
  | bool _ => .bool
  | int _ => .int
  | float _ => .float
  | infinity _ => .float
  | notANumber => .float
  | time _ => .timestamp
  | text _ => .str

def words : List (String × Scalar) := [
  ("true", bool true), ("True", bool true), ("TRUE", bool true),
  ("false", bool false), ("False", bool false), ("FALSE", bool false),
  ("", null), ("~", null), ("null", null), ("Null", null), ("NULL", null),
  (".nan", notANumber), (".NaN", notANumber), (".NAN", notANumber),
  (".inf", infinity false), (".Inf", infinity false), (".INF", infinity false),
  ("+.inf", infinity false), ("+.Inf", infinity false), ("+.INF", infinity false),
  ("-.inf", infinity true), ("-.Inf", infinity true), ("-.INF", infinity true)]

def inSigned (n : Int) : Option Int :=
  if Number.fits64 n then some n else none

def inUnsigned (n : Nat) : Option Int :=
  if n < Number.wordCount64 then some n else none

/-- A whole number with an optional sign and a base mark. -/
def markedInt? (cs : List Char) : Option Int :=
  let (negative, digits) := Number.splitSign cs
  let signed := digits.length != cs.length
  match Number.parseMarked? digits with
  | some n =>
    (inSigned (if negative then -(n : Int) else n)).orElse fun _ =>
      if signed then none else inUnsigned n
  | none => none

/-- A whole number in a base, after the base mark; a sign may follow the mark. -/
def basedInt? (base : Nat) (negative : Bool) (cs : List Char) : Option Int :=
  let (minus, digits) := if negative then (true, cs) else Number.splitSign cs
  let signed := negative || digits.length != cs.length
  match Number.digitsValue? base digits with
  | some n =>
    (inSigned (if minus then -(n : Int) else n)).orElse fun _ =>
      if signed then none else inUnsigned n
  | none => none

/-- A whole number after the marks `0b` and `0o`, with the sign before the mark. -/
def lateInt? : List Char → Option Int
  | '0' :: 'b' :: rest => basedInt? 2 false rest
  | '-' :: '0' :: 'b' :: rest => basedInt? 2 true rest
  | '0' :: 'o' :: rest => basedInt? 8 false rest
  | '-' :: '0' :: 'o' :: rest => basedInt? 8 true rest
  | _ => none

/-- Whether a text is written as a decimal number with an optional fraction and
exponent. -/
def isDecimal (cs : List Char) : Bool :=
  let (_, cs) := Number.splitSign cs
  let (whole, rest) := cs.span Char.isDigit
  let (hasFraction, rest) := match rest with
    | '.' :: rest =>
      let (fraction, rest') := rest.span Char.isDigit
      (!fraction.isEmpty, rest')
    | rest => (false, rest)
  let hasExponent := match rest with
    | [] => true
    | e :: rest =>
      let (_, digits) := Number.splitSign rest
      (e == 'e' || e == 'E') && !digits.isEmpty && digits.all Char.isDigit
  (!whole.isEmpty || hasFraction) && hasExponent

/-- The number that a text starting with a digit or a sign is written as.
Underscores are dropped. -/
def number? (text : String) : Option Scalar :=
  let plain := text.toList.filter (· != '_')
  match markedInt? plain with
  | some n => some (int n)
  | none =>
    let asFloat := if isDecimal plain then Number.parseFloat? (String.ofList plain) else none
    match asFloat with
    | some x => some (float x)
    | none => (lateInt? plain).map int

/-- A double from a whole number. -/
def floatOfInt (n : Int) : Scalar :=
  match Number.Binary64.ofFraction? (n < 0) n.natAbs 1 with
  | some x => float x
  | none => infinity (n < 0)

/-- The meaning of a text by its writing alone. `times` says whether timestamps are
looked for. -/
def ofWriting (times : Bool) (value : String) : Scalar :=
  match value.toList.head? with
  | none => null
  | some c =>
    if c.isDigit || c == '+' || c == '-' then
      match words.lookup value with
      | some s => s
      | none =>
        match if times then Timestamp.parse? value else none with
        | some t => time t
        | none => (number? value).getD (text value)
    else if c == '.' then
      match words.lookup value with
      | some s => s
      | none =>
        match Number.parseFloat? value with
        | some x => float x
        | none => text value
    else if "yYnNtTfFoO~".toList.contains c then (words.lookup value).getD (text value)
    else text value

/-- The meaning of a scalar with a tag. A whole number may be asked for as a float;
any other difference between tag and writing is an error. -/
def resolve? (t : Tag) (value : String) : Option Scalar :=
  match t with
  | .str => some (text value)
  | .binary => some (text value)
  | .merge => if value == "<<" then some (text value) else none
  | t =>
    let s := ofWriting (t == .timestamp) value
    if s.tag == t then some s
    else match t, s with
      | .float, int n => if n ≤ Number.greatest64 then some (floatOfInt n) else none
      | _, _ => none

/-- The tag of a plain scalar without a tag of its own. -/
def plainTag (value : String) : Tag :=
  if value == "<<" then .merge else (ofWriting true value).tag

end Scalar
end Stepwise.Yaml
