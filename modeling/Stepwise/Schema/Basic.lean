import Stepwise.Json.Read
import Stepwise.Number.Power

/-!
# Schemas

A schema restricts the type of a value and, by type, its parts. Checking a value
collects findings and a score; of several alternatives that all fail, the findings
of the one with the best score are shown, because it is the one most likely meant.
-/
namespace Stepwise

inductive JsonType where
  | string
  | number
  | integer
  | boolean
  | null
  | array
  | object
  deriving DecidableEq, Repr

def JsonType.name : JsonType → String
  | string => "string"
  | number => "number"
  | integer => "integer"
  | boolean => "boolean"
  | null => "null"
  | array => "array"
  | object => "object"

/-- A schema. An empty list of types allows every type. Properties that are not listed
are checked by `additional`, and refused when the schema is closed. -/
inductive Schema where
  | rules (types : List JsonType) (anyOf allOf : List Schema) (items : Option Schema)
      (minItems : Nat) (properties : List (String × Schema)) (required : List String)
      (additional : Option Schema) (closed : Bool) (minLength : Nat) (minimum : Option Nat)

namespace Schema

def ofTypes (types : List JsonType) : Schema := .rules types [] [] none 0 [] [] none false 0 none

def text (minLength : Nat) : Schema :=
  .rules [.string] [] [] none 0 [] [] none false minLength none

/-- A whole number with a least value. -/
def wholeFrom (minimum : Nat) : Schema :=
  .rules [.integer] [] [] none 0 [] [] none false 0 (some minimum)

def arrayOf (items : Schema) (minItems : Nat) : Schema :=
  .rules [.array] [] [] (some items) minItems [] [] none false 0 none

/-- An object whose members all have one schema. -/
def mapOf (members : Schema) : Schema :=
  .rules [.object] [] [] none 0 [] [] (some members) false 0 none

def record (properties : List (String × Schema)) (required : List String)
    (alternatives : List Schema) : Schema :=
  .rules [.object] alternatives [] none 0 properties required none true 0 none

/-- A value that has some properties if it is an object. -/
def requiring (required : List String) : Schema :=
  .rules [] [] [] none 0 [] required none false 0 none

/-- A value that satisfies one of some schemas. -/
def oneOf (alternatives : List Schema) : Schema :=
  .rules [] alternatives [] none 0 [] [] none false 0 none

/-- A value that satisfies all of some schemas. -/
def allOf (parts : List Schema) : Schema :=
  .rules [] [] parts none 0 [] [] none false 0 none

end Schema

inductive Fault where
  | unknownProperty (name : String)
  | missingProperty (name : String)
  | wrongType (expected : List JsonType)
  | textTooShort (least : Nat)
  | numberTooSmall (least : Nat)
  | tooFewItems (least : Nat)
  | noAlternative
  | notAllParts
  deriving DecidableEq, Repr

structure Finding where
  fault : Fault
  path : List String
  deriving DecidableEq, Repr

structure Report where
  findings : List Finding
  score : Int
  deriving DecidableEq, Repr

namespace Report

/-- Nothing checked yet. -/
def start : Report := ⟨[], 0⟩

/-- A finished part of a check. -/
def pass (r : Report) : Report :=
  { r with score := r.score + 1 }

def fail (r : Report) (fault : Fault) (path : List String) : Report :=
  ⟨r.findings ++ [⟨fault, path⟩], r.score - 2⟩

/-- The report of a part added to the report of the whole. -/
def merge (r s : Report) : Report :=
  ⟨r.findings ++ s.findings, r.score + s.score⟩

def isValid (r : Report) : Bool :=
  r.findings.isEmpty

/-- The better of two failed reports, the first of two equal ones. -/
def better (best : Option Report) (r : Report) : Option Report :=
  match best with
  | some b => if b.score < r.score then some r else some b
  | none => some r

end Report

structure DecimalNumber where
  negative : Bool
  digits : Nat
  exponent : Int
  deriving DecidableEq, Repr

namespace DecimalNumber

def digitsValue (cs : List Char) : Nat :=
  cs.foldl (fun n c => n * 10 + (c.toNat - 48)) 0

/-- The number that the text of a JSON number denotes. -/
def ofText (text : String) : DecimalNumber :=
  let (negative, cs) := match text.toList with
    | '-' :: cs => (true, cs)
    | cs => (false, cs)
  let (whole, rest) := cs.span Char.isDigit
  let (fraction, rest) := match rest with
    | '.' :: rest => rest.span Char.isDigit
    | rest => ([], rest)
  let exponent : Int := match rest with
    | _ :: '-' :: ds => -(digitsValue ds : Int)
    | _ :: '+' :: ds => (digitsValue ds : Int)
    | _ :: ds => (digitsValue ds : Int)
    | [] => 0
  ⟨negative, digitsValue (whole ++ fraction), exponent - fraction.length⟩

/-- The greatest power of ten that is looked at. -/
def exponentLimit : Int := 1000000

/-- Whether the number is whole. A number with fewer digits than decimal places is not,
unless it is zero. -/
def isWhole (d : DecimalNumber) : Bool :=
  let places := (-d.exponent).toNat
  if d.exponent < -exponentLimit || exponentLimit < d.exponent then false
  else if d.digits == 0 then true
  else if (toString d.digits).length ≤ places then false
  else d.digits % Number.powTen places == 0

/-- Whether the number is less than a natural number. -/
def isBelow (d : DecimalNumber) (least : Nat) : Bool :=
  if d.negative && d.digits != 0 then true
  else if 0 ≤ d.exponent then d.digits * Number.powTen d.exponent.toNat < least
  else d.digits < least * Number.powTen (-d.exponent).toNat

end DecimalNumber

/-- The types that a value has; a whole number has two. -/
def Json.types : Json → List JsonType
  | .null => [.null]
  | .bool _ => [.boolean]
  | .number text => if (DecimalNumber.ofText text).isWhole then [.number, .integer] else [.number]
  | .string _ => [.string]
  | .array _ => [.array]
  | .object _ => [.object]

/-- The members of an object, the last of each name. -/
def Json.lastMembers (members : List (String × Json)) : List (String × Json) :=
  members.foldl (fun kept m =>
    if kept.any (·.1 == m.1) then kept.map (fun k => if k.1 == m.1 then m else k)
    else kept ++ [m]) []

namespace Schema

/-- Whether a value has one of the wanted types. -/
def typeFits (types : List JsonType) (v : Json) : Bool :=
  types.isEmpty || v.types.any types.contains

def checkNumber (minimum : Option Nat) (text : String) (path : List String) (r : Report) : Report :=
  match minimum with
  | some least =>
    (if (DecimalNumber.ofText text).isBelow least then r.fail (.numberTooSmall least) path
      else r).pass
  | none => r.pass

def checkText (minLength : Nat) (s : String) (path : List String) (r : Report) : Report :=
  (if s.length < minLength then r.fail (.textTooShort minLength) path else r).pass

def checkRequired (required : List String) (members : List (String × Json)) (path : List String)
    (r : Report) : Report :=
  required.foldl (fun r name =>
    if members.any (·.1 == name) then r.pass else r.fail (.missingProperty name) path) r

mutual

/-- Checks a value at a path. A wrong type ends the check at once. -/
def check : Schema → Json → List String → Report
  | .rules types anyOf allOf items minItems properties required additional closed minLength
      minimum, v, path =>
    if !typeFits types v then Report.start.fail (.wrongType types) path
    else
      let r := Report.start
      let r := match anyOf with
        | [] => r
        | _ :: _ =>
          match checkAny anyOf v path none with
          | none => r
          | some best => (r.fail .noAlternative path).merge best
      let r := match allOf with
        | [] => r
        | _ :: _ =>
          let (r, failed) := checkAll allOf v path r
          if failed then r.fail .notAllParts path else r
      let r := r.pass
      match v with
      | .array values =>
        let r := (checkItems items values path).foldl Report.merge r
        let r := if values.length < minItems then r.fail (.tooFewItems minItems) path else r
        r.pass.pass.pass
      | .object members =>
        let members := Json.lastMembers members
        let r := checkRequired required members path r
        let others := members.filter fun m => !properties.any (·.1 == m.1)
        let r :=
          if closed then others.foldl (fun r m => r.fail (.unknownProperty m.1) path) r
          else (checkOthers additional others path).foldl Report.merge r
        let r := r.pass.pass
        (checkProperties properties members path r).pass
      | .number text => (checkNumber minimum text path r).pass.pass
      | .string s => (checkText minLength s path r.pass).pass
      | .bool _ => r.pass.pass
      | .null => r.pass.pass

/-- Tries alternatives in order: nothing when one is valid, and otherwise the best
failed report. -/
def checkAny : List Schema → Json → List String → Option Report → Option Report
  | [], _, _, best => best
  | s :: rest, v, path, best =>
    let r := check s v path
    if r.isValid then none else checkAny rest v path (Report.better best r)

/-- Checks all parts: the merged report, and whether one failed. -/
def checkAll : List Schema → Json → List String → Report → Report × Bool
  | [], _, _, r => (r, false)
  | s :: rest, v, path, r =>
    let part := check s v path
    let (r, failed) := checkAll rest v path (r.merge part)
    (r, failed || !part.isValid)

def checkItems : Option Schema → List Json → List String → List Report
  | none, _, _ => []
  | some s, values, path =>
    values.zipIdx.map fun (v, i) => check s v (path ++ [toString i])

def checkOthers : Option Schema → List (String × Json) → List String → List Report
  | none, _, _ => []
  | some s, members, path => members.map fun m => check s m.2 (path ++ [m.1])

def checkProperties : List (String × Schema) → List (String × Json) → List String → Report → Report
  | [], _, _, r => r
  | (name, s) :: rest, members, path, r =>
    let r := match members.lookup name with
      | some v => r.merge (check s v (path ++ [name]))
      | none => r
    checkProperties rest members path r

end

end Schema
end Stepwise
