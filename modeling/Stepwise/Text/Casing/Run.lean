/-!
# Runs of a case mapping

A case mapping of Unicode is regular over long stretches: from a first to a last
character, every character or every other character moves by the same distance.
A mapping is kept as a list of such runs.
-/
namespace Stepwise.Text.Casing

/-- The characters from `first` to `last` in steps of `step` move by `shift`. -/
structure Run where
  first : Nat
  last : Nat
  step : Nat
  shift : Int
  deriving Repr

/-- The image of a code point that lies on the run. -/
def Run.image? (r : Run) (n : Nat) : Option Nat :=
  if r.first ≤ n && n ≤ r.last && (n - r.first) % r.step == 0 then
    some ((n : Int) + r.shift).toNat
  else none

/-- The image of a code point under a list of runs. -/
def image? (runs : List Run) (n : Nat) : Option Nat :=
  runs.findSome? (·.image? n)

/-- Whether a code point lies in one of the closed intervals. -/
def inRanges (ranges : List (Nat × Nat)) (n : Nat) : Bool :=
  ranges.any fun r => r.1 ≤ n && n ≤ r.2

end Stepwise.Text.Casing
