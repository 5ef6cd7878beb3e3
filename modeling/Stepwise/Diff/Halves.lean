import Stepwise.Diff.Edit

/-!
# A common middle part

Two texts that share a part of at least half the longer text are compared before
and after that part. The part is found from a seed, a quarter of the longer text,
at one of two places.
-/
namespace Stepwise.Diff

structure Halves where
  oldBefore : List Char
  oldAfter : List Char
  newBefore : List Char
  newAfter : List Char
  common : List Char
  deriving DecidableEq, Repr

namespace Halves

/-- The same cut with the two texts exchanged. -/
def swap (h : Halves) : Halves :=
  ⟨h.newBefore, h.newAfter, h.oldBefore, h.oldAfter, h.common⟩

end Halves

/-- The first position of a word in a text. -/
def indexOf? (word : List Char) : List Char → Option Nat
  | [] => if word.isEmpty then some 0 else none
  | c :: cs =>
    if word.isPrefixOf (c :: cs) then some 0 else (indexOf? word cs).map (· + 1)

/-- The cut around the common part that contains position `i` of the longer and `j`
of the shorter text. -/
def halvesAt (long short : List Char) (i j : Nat) : Halves :=
  let after := commonStart (long.drop i) (short.drop j)
  let before := commonEnd (long.take i) (short.take j)
  { oldBefore := long.take (i - before.length)
    oldAfter := long.drop (i + after.length)
    newBefore := short.take (j - before.length)
    newAfter := short.drop (j + after.length)
    common := before ++ after }

/-- The longest common part that grows from the seed at position `i` of the longer
text, the first of several, if it is at least half the longer text. -/
def halvesFromSeed? (long short : List Char) (i : Nat) : Option Halves :=
  let seed := (long.drop i).take (long.length / 4)
  let places := (List.range short.length).filter fun j => seed.isPrefixOf (short.drop j)
  let best := places.foldl (fun best j =>
    let h := halvesAt long short i j
    match best with
    | some b => if b.common.length < h.common.length then some h else best
    | none => if h.common.isEmpty then none else some h) (none : Option Halves)
  best.filter fun h => long.length ≤ 2 * h.common.length

/-- The better of the cuts from the two seeds; of two equal ones the second. -/
def longHalves? (long short : List Char) : Option Halves :=
  if long.length < 4 || 2 * short.length < long.length then none
  else
    match halvesFromSeed? long short ((long.length + 3) / 4),
      halvesFromSeed? long short ((long.length + 1) / 2) with
    | none, second => second
    | first, none => first
    | some first, some second =>
      if second.common.length < first.common.length then some first else some second

/-- The cut of two texts around a large common part. -/
def halves? (old new : List Char) : Option Halves :=
  if new.length < old.length then longHalves? old new
  else (longHalves? new old).map Halves.swap

end Stepwise.Diff
