import Stepwise.Diff.Tidy
import Stepwise.Diff.Halves
import Stepwise.Diff.Bisect

/-!
# The distance between two texts

The distance is the cost of a script found quickly rather than of the best one: a
text inside the other, a single character, and a large common part are handled
before the search for a shortest script.
-/
namespace Stepwise.Diff

/-- How two texts without common ends are compared: by a script at once, or by the
scripts of two pairs of parts around a common text. -/
inductive Plan where
  | edits (script : List Edit)
  | split (parts : Halves)
  deriving DecidableEq, Repr

def replaceAll (old new : List Char) : List Edit :=
  [.delete old, .insert new]

/-- The script when the shorter text lies inside the longer one. -/
def inside? (old new : List Char) : Option (List Edit) :=
  if new.length < old.length then
    (indexOf? new old).map fun i =>
      [.delete (old.take i), .keep new, .delete (old.drop (i + new.length))]
  else
    (indexOf? old new).map fun i =>
      [.insert (new.take i), .keep old, .insert (new.drop (i + old.length))]

/-- The plan for two texts without common ends. -/
def plan (old new : List Char) : Plan :=
  if old.isEmpty then .edits [.insert new]
  else if new.isEmpty then .edits [.delete old]
  else match inside? old new with
    | some script => .edits script
    | none =>
      if old.length == 1 || new.length == 1 then .edits (replaceAll old new)
      else match halves? old new with
        | some parts => .split parts
        | none =>
          match bisect? old new with
          | some (x, y) => .split ⟨old.take x, old.drop x, new.take y, new.drop y, []⟩
          | none => .edits (replaceAll old new)

/-- A kept piece, unless it is empty. -/
def keepSome (t : List Char) : List Edit :=
  if t.isEmpty then [] else [.keep t]

/-- A script that turns `old` into `new`. -/
def script (old new : List Char) : List Edit :=
  if old == new then keepSome old
  else
    let start := commonStart old new
    let oldRest := old.drop start.length
    let newRest := new.drop start.length
    let ending := commonEnd oldRest newRest
    let oldCore := oldRest.take (oldRest.length - ending.length)
    let newCore := newRest.take (newRest.length - ending.length)
    let core := match plan oldCore newCore with
      | .edits es => es
      | .split parts =>
        if _ : parts.oldBefore.length + parts.newBefore.length < old.length + new.length ∧
            parts.oldAfter.length + parts.newAfter.length < old.length + new.length then
          script parts.oldBefore parts.newBefore ++ keepSome parts.common ++
            script parts.oldAfter parts.newAfter
        else replaceAll oldCore newCore
    tidy (keepSome start ++ core ++ keepSome ending)
termination_by old.length + new.length

/-- The distance between two texts. -/
def distance (a b : String) : Nat :=
  cost (script a.toList b.toList)

end Stepwise.Diff
