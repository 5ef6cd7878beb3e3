/-!
# Step definitions

A step definition is a documented template for one line. The registry keeps
definitions in the order in which their keys were first declared; declaring a key
again replaces the definition where it stands.
-/
namespace Stepwise

structure StepDefinition where
  key : String
  label : String
  keyword : String
  insertText : String
  documentation : String
  group : String
  sortText : String
  kind : Int
  deriving DecidableEq, Repr

namespace StepDefinition

def blank : StepDefinition := ⟨"", "", "", "", "", "", "", 0⟩

instance : Inhabited StepDefinition := ⟨blank⟩

/-- Only documented steps are offered to users. -/
def isDocumented (s : StepDefinition) : Bool :=
  s.documentation != ""

end StepDefinition

structure Steps where
  all : List StepDefinition
  deriving DecidableEq, Repr

namespace Steps

def empty : Steps := ⟨[]⟩

/-- Adds a definition, in place of one with the same key. -/
def put (step : StepDefinition) : List StepDefinition → List StepDefinition
  | [] => [step]
  | s :: rest => if s.key == step.key then step :: rest else s :: put step rest

def ofList (defs : List StepDefinition) : Steps :=
  ⟨defs.foldl (fun all d => put d all) []⟩

def get? (s : Steps) (key : String) : Option StepDefinition :=
  s.all.find? (·.key == key)

/-- The definitions that are offered to users. -/
def documented (s : Steps) : List StepDefinition :=
  s.all.filter (·.isDocumented)

def size (s : Steps) : Nat :=
  s.all.length

end Steps
end Stepwise
