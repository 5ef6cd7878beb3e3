import Stepwise.Diff.Edit

/-!
# The middle of a shortest script

Two walks over the grid of the two texts, one from each end, advance by one edit
at a time. Each records the furthest point it reaches on every diagonal. The
point where the walks first meet lies on a shortest script and divides both
texts.
-/
namespace Stepwise.Diff

/-- The furthest old position reached on each diagonal, `-1` where none is, and the
diagonals that have run off the grid on either side. -/
structure Frontier where
  reach : Array Int
  low : Int
  high : Int
  deriving Repr

namespace Frontier

/-- The furthest position at an index. -/
def get (f : Frontier) (i : Int) : Int :=
  if i < 0 then -1 else f.reach.getD i.toNat (-1)

/-- Records a position at an index. -/
def set (f : Frontier) (i : Int) (x : Int) : Frontier :=
  { f with reach := f.reach.setIfInBounds i.toNat x }

end Frontier

/-- Follows equal characters from a point of the grid. -/
def follow (a b : Array Char) (k : Int) : Nat → Int → Int
  | 0, x => x
  | fuel + 1, x =>
    if 0 ≤ x && 0 ≤ x - k then
      match a[x.toNat]?, b[(x - k).toNat]? with
      | some c, some d => if c == d then follow a b k fuel (x + 1) else x
      | _, _ => x
    else x

/-- Advances a walk by one edit on the diagonals from `k` on, in steps of two. The
function `meets` says where the walks meet, given a diagonal and a position. -/
def walk (a b : Array Char) (middle d : Int) (meets : Int → Int → Option (Int × Int)) :
    Nat → Int → Frontier → (Int × Int) ⊕ Frontier
  | 0, _, f => .inr f
  | fuel + 1, k, f =>
    if d - f.high < k then .inr f
    else
      let i := middle + k
      let x :=
        if k == -d || (k != d && f.get (i - 1) < f.get (i + 1)) then f.get (i + 1)
        else f.get (i - 1) + 1
      let x := follow a b k a.size x
      let f := f.set i x
      if (a.size : Int) < x then
        walk a b middle d meets fuel (k + 2) { f with high := f.high + 2 }
      else if (b.size : Int) < x - k then
        walk a b middle d meets fuel (k + 2) { f with low := f.low + 2 }
      else match meets k x with
        | some p => .inl p
        | none => walk a b middle d meets fuel (k + 2) f

/-- The two texts and the same texts reversed, for the walk from the other end. -/
structure Grid where
  old : Array Char
  new : Array Char
  oldReversed : Array Char
  newReversed : Array Char

namespace Grid

def ofTexts (a b : List Char) : Grid :=
  ⟨a.toArray, b.toArray, a.reverse.toArray, b.reverse.toArray⟩

/-- The greatest number of edits from each end. -/
def limit (g : Grid) : Nat :=
  (g.old.size + g.new.size + 1) / 2

/-- The diagonal of the far corner. -/
def delta (g : Grid) : Int :=
  (g.old.size : Int) - (g.new.size : Int)

/-- The frontier before the first step. -/
def start (g : Grid) : Frontier :=
  ⟨(Array.replicate (2 * g.limit) (-1 : Int)).setIfInBounds (g.limit + 1) 0, 0, 0⟩

/-- The meeting point of the walks with `d` edits or more from each end. -/
def meetingFrom (g : Grid) : Nat → Nat → Frontier → Frontier → Option (Int × Int)
  | 0, _, _, _ => none
  | fuel + 1, d, ahead, behind =>
    let n : Int := g.old.size
    let middle : Int := g.limit
    let isOdd := g.delta % 2 != 0
    let inside := fun i : Int => 0 ≤ i && i < 2 * middle
    let meetsBehind := fun (k x : Int) =>
      let i := middle + g.delta - k
      let opposite := behind.get i
      if isOdd && inside i && opposite != -1 && n - opposite ≤ x then some (x, x - k) else none
    match walk g.old g.new middle d meetsBehind (d + 1) (-(d : Int) + ahead.low) ahead with
    | .inl p => some p
    | .inr ahead =>
      let meetsAhead := fun (k x : Int) =>
        let i := middle + g.delta - k
        let opposite := ahead.get i
        if !isOdd && inside i && opposite != -1 && n - x ≤ opposite then
          some (opposite, opposite - (g.delta - k))
        else none
      match walk g.oldReversed g.newReversed middle d meetsAhead (d + 1)
          (-(d : Int) + behind.low) behind with
      | .inl p => some p
      | .inr behind => g.meetingFrom fuel (d + 1) ahead behind

end Grid

/-- The point that divides two texts in the middle of a shortest script. -/
def bisect? (a b : List Char) : Option (Nat × Nat) :=
  let g := Grid.ofTexts a b
  (g.meetingFrom g.limit 0 g.start g.start).map fun (x, y) => (x.toNat, y.toNat)

end Stepwise.Diff
