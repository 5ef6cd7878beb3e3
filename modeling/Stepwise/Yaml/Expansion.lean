import Stepwise.Yaml.Node

/-!
# Limits of aliases

An alias repeats its target, so a short text can stand for a huge value. Reading a
value counts the nodes it visits and how many of them it visits through an alias.
When nearly all visits of a long reading go through aliases, the reading is refused.
The longer the reading, the smaller the share of aliases that it may have.
-/
namespace Stepwise.Yaml

structure Visits where
  all : Nat
  viaAlias : Nat
  deriving DecidableEq, Repr

namespace Visits

/-- Up to this number of visits the largest share is allowed. -/
def shortReading : Nat := 400000

/-- From this number of visits on the smallest share is allowed. -/
def longReading : Nat := 4000000

/-- Whether too many of the visits go through aliases. The allowed share falls evenly
from 99 to 10 in a hundred. -/
def isExcessive (v : Visits) : Bool :=
  100 < v.viaAlias && 1000 < v.all &&
    if v.all ≤ shortReading then 99 * v.all < 100 * v.viaAlias
    else if longReading ≤ v.all then 10 * v.all < 100 * v.viaAlias
    else
      let span := longReading - shortReading
      v.all * (99 * span - 89 * (v.all - shortReading)) < 100 * span * v.viaAlias

/-- One visit more, with a number of aliases around it. -/
def add (v : Visits) (depth : Nat) : Option Visits :=
  let v : Visits := ⟨v.all + 1, if depth = 0 then v.viaAlias else v.viaAlias + 1⟩
  if v.isExcessive then none else some v

end Visits

mutual

/-- The visits after reading a node. What a merge passes over, since its key is known by
then, is visited all the same, and the keys around a merge are visited once. -/
def Node.visits (depth : Nat) (v : Visits) : Node → Option Visits
  | .scalar .. => v.add depth
  | .sequence _ _ items =>
    match v.add depth with
    | some v => itemVisits depth v items
    | none => none
  | .reference _ _ target =>
    match v.add depth with
    | some v => target.visits (depth + 1) v
    | none => none
  | .mapping _ _ members =>
    match v.add depth with
    | some v =>
      match memberVisits depth v members with
      | some v => mergeVisits depth v members
      | none => none
    | none => none

def itemVisits (depth : Nat) (v : Visits) : List Node → Option Visits
  | [] => some v
  | n :: rest =>
    match n.visits depth v with
    | some v => itemVisits depth v rest
    | none => none

/-- The visits after reading the members of a mapping other than merges. -/
def memberVisits (depth : Nat) (v : Visits) : List (Node × Node) → Option Visits
  | [] => some v
  | (key, value) :: rest =>
    if key.isMerge then memberVisits depth v rest
    else
      match key.visits depth v with
      | none => none
      | some v =>
        match value.visits depth v with
        | some v => memberVisits depth v rest
        | none => none

/-- The visits after reading what a mapping merges. -/
def mergeVisits (depth : Nat) (v : Visits) : List (Node × Node) → Option Visits
  | [] => some v
  | (key, value) :: rest =>
    if key.isMerge then
      match value with
      | .sequence _ _ items => itemVisits depth v items
      | value => value.visits depth v
    else mergeVisits depth v rest

end

/-- Whether the document at a root can be read without too many aliases. The document
itself is a visit. -/
def Node.isExpandable (root : Node) : Bool :=
  (root.visits 0 ⟨1, 0⟩).isSome

end Stepwise.Yaml
