import Stepwise.Registry.Steps
import Stepwise.Step.Shape

/-!
# Steps by shape

A line invokes a step when the two have the same shape. The index holds each shape
that occurs among the keys together with the first position at which it occurs.
-/
namespace Stepwise

structure ShapeIndex where
  entries : List (String × Nat)
  deriving DecidableEq, Repr

namespace ShapeIndex

/-- Adds a position under a shape that has none yet. -/
def add (entries : List (String × Nat)) (shape : String) (position : Nat) :
    List (String × Nat) :=
  if entries.any (·.1 == shape) then entries else entries ++ [(shape, position)]

/-- The index of a list of keys from a position on. -/
def ofKeys (entries : List (String × Nat)) (position : Nat) : List String → List (String × Nat)
  | [] => entries
  | key :: rest => ofKeys (add entries (Step.shape key) position) (position + 1) rest

def ofSteps (steps : Steps) : ShapeIndex :=
  ⟨ofKeys [] 0 (steps.all.map (·.key))⟩

/-- The position of the first step of a shape. -/
def position? (index : ShapeIndex) (shape : String) : Option Nat :=
  index.entries.lookup shape

end ShapeIndex
end Stepwise
