import Stepwise.Schema.Configuration

/-!
# Violations of a schema

Of the findings of a check one is reported, the most telling: unknown properties
come before missing ones, these before wrong types, and limits come last.
-/
namespace Stepwise

structure Violation where
  kind : ConfigKind
  reason : String
  path : String
  deriving DecidableEq, Repr

namespace Fault

/-- How telling a fault is, the least number first; some faults tell nothing by
themselves. -/
def rank? : Fault → Option Nat
  | unknownProperty _ => some 1
  | missingProperty _ => some 2
  | wrongType _ => some 3
  | textTooShort _ => some 4
  | numberTooSmall _ => some 5
  | tooFewItems _ => some 6
  | noAlternative => none
  | notAllParts => none

end Fault

def positionOf? (part : List Char) : List Char → Option Nat
  | [] => if part.isEmpty then some 0 else none
  | c :: cs =>
    if part.isPrefixOf (c :: cs) then some 0 else (positionOf? part cs).map (· + 1)

/-- What a description of an unknown property says before its name. -/
def unknownOpening : String := "Additional property "

/-- What a description of an unknown property says after its name. -/
def unknownEnding : String := " is not allowed"

/-- The name in a description of an unknown property: what stands between the first
opening and the first ending; nothing when there is none. -/
def propertyIn (description : String) : String :=
  let cs := description.toList
  match positionOf? unknownOpening.toList cs, positionOf? unknownEnding.toList cs with
  | some opening, some ending =>
    let start := opening + unknownOpening.length
    if start < ending then String.ofList ((cs.drop start).take (ending - start)) else ""
  | _, _ => ""

def isIndex (part : String) : Bool :=
  part != "" && part.toList.all fun c => '0' ≤ c && c ≤ '9'

/-- The last part of a dotted path that is no array index, or the whole path. -/
def fieldName (path : String) : String :=
  let parts := (path.toList.splitOnP (· == '.')).map String.ofList
  (parts.reverse.find? fun p => !isIndex p).getD path

def typeNames : List JsonType → String
  | [t] => t.name
  | ts => "[" ++ ",".intercalate (ts.map (·.name)) ++ "]"

/-- A path as it is shown. -/
def pathText : List String → String
  | [] => "(root)"
  | parts => ".".intercalate parts

namespace Finding

def reason (f : Finding) : String :=
  let field := fieldName (pathText f.path)
  match f.fault with
  | .unknownProperty name =>
    let description := unknownOpening ++ name ++ unknownEnding
    let shown := propertyIn description
    if shown.isEmpty then description else "Unknown property '" ++ shown ++ "' is not allowed"
  | .missingProperty name => "Missing required property '" ++ name ++ "'"
  | .wrongType types =>
    "Property '" ++ field ++ "' has wrong type (expected " ++ typeNames types ++ ")"
  | .textTooShort least =>
    "Property '" ++ field ++ "' is too short (minimum " ++ toString least ++ " characters)"
  | .numberTooSmall least => "Property '" ++ field ++ "' must be at least " ++ toString least
  | .tooFewItems least => "Array '" ++ field ++ "' needs at least " ++ toString least ++ " items"
  | .noAlternative => "Must validate at least one schema (anyOf)"
  | .notAllParts => "Must validate all the schemas (allOf)"

/-- The most telling of the findings, the first of several. -/
def mostTelling : List Finding → Option Finding
  | [] => none
  | first :: rest =>
    some ((first :: rest).foldl (fun (best : Finding × Nat) f =>
      match f.fault.rank? with
      | some n => if n < best.2 then (f, n) else best
      | none => best) (first, 999)).1

end Finding

namespace Violation

/-- The message of a violation; one at the root shows no path. -/
def text (v : Violation) : String :=
  if v.path.isEmpty || v.path == "(root)" then v.kind.name ++ ": " ++ v.reason
  else v.kind.name ++ ": " ++ v.reason ++ " (at " ++ v.path ++ ")"

end Violation

def ConfigKind.violation? (kind : ConfigKind) (v : Json) : Option Violation :=
  (Finding.mostTelling (kind.schema.check v []).findings).map fun f =>
    ⟨kind, f.reason, pathText f.path⟩

end Stepwise
