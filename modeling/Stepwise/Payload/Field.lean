import Stepwise.Number.Word
import Stepwise.Yaml.Value

/-!
# Fields of a node

Decoding reads a node as a record, a text, a number or a list of texts. Each reader
answers in one of three ways: an error, nothing (the node is a null), or a value.
-/
namespace Stepwise.Yaml

structure Collected where
  seen : List String
  entries : List (String × Node)

namespace Collected

/-- Adds the members of a mapping other than merges; with `keep`, a known key is
passed over. A key that is an alias may repeat one that is written out. That is no fault
here: both entries are added, and the first is the one that `lookup` finds. -/
def addMembers (keep : Bool) (c : Collected) : List (Node × Node) → Option Collected
  | [] => some c
  | (k, v) :: rest =>
    if k.isMerge then addMembers keep c rest
    else match k.text? with
      | none => none
      | some none => addMembers keep c rest
      | some (some name) =>
        if keep && c.seen.contains name then addMembers keep c rest
        else addMembers keep ⟨name :: c.seen, c.entries ++ [(name, v)]⟩ rest

end Collected

mutual

def collectMerges (c : Collected) : List (Node × Node) → Option Collected
  | [] => some c
  | (k, v) :: rest => if k.isMerge then collectNode c v else collectMerges c rest

/-- Adds the entries of a merged mapping, or of the mappings of a merged sequence. -/
def collectNode (c : Collected) : Node → Option Collected
  | .mapping _ _ members =>
    if !Node.keysDistinct members then none
    else match c.addMembers true members with
      | some c => collectMerges c members
      | none => none
  | .reference _ _ target => if target.isMapping then collectNode c target else none
  | .sequence _ _ items => if items.all Node.isMapping then collectItems c items else none
  | .scalar .. => none

/-- Adds the entries of the mappings of a sequence. -/
def collectItems (c : Collected) : List Node → Option Collected
  | [] => some c
  | n :: rest =>
    match collectNode c n with
    | some c => collectItems c rest
    | none => none

end

namespace Node

def entries? : Node → Option (Option (List (String × Node)))
  | mapping _ _ members =>
    if !keysDistinct members then none
    else match Collected.addMembers false ⟨["<<"], []⟩ members with
      | none => none
      | some c => (collectMerges c members).map fun c => some c.entries
  | reference _ _ target => target.entries?
  | scalar _ t _ text =>
    match scalarValue? t text with
    | some .null => some none
    | _ => none
  | sequence .. => none

/-- The whole number that a double stands for where one is wanted. A number below the
64-bit range becomes the least of the range. -/
def wholeOf (x : Number.Binary64) : Option Int :=
  let n := x.truncate
  let above := Number.greatest64 + 1
  if above < n || (n == above && !(x.fraction.1 % x.fraction.2 == 0)) then none
  else if n == above || n < Number.least64 then some Number.least64
  else some n

def int? : Node → Option (Option Int)
  | scalar _ t _ text =>
    match scalarValue? t text with
    | some .null => some none
    | some (.int n) => if n ≤ Number.greatest64 then some (some n) else none
    | some (.float x) => (wholeOf x).map some
    | some (.infinity true) => some (some Number.least64)
    | _ => none
  | reference _ _ target => target.int?
  | _ => none

/-- The texts of items; nulls are left out. -/
def textItems? : List Node → Option (List String)
  | [] => some []
  | n :: rest =>
    match n.text?, textItems? rest with
    | some (some s), some ss => some (s :: ss)
    | some none, some ss => some ss
    | _, _ => none

def texts? : Node → Option (List String)
  | sequence _ _ items => textItems? items
  | reference _ _ target => target.texts?
  | scalar _ t _ text =>
    match scalarValue? t text with
    | some .null => some []
    | _ => none
  | mapping .. => none

end Node

/-- The text of a field, empty when it is missing or null. -/
def textField (entries : List (String × Node)) (name : String) : Option String :=
  match entries.lookup name with
  | none => some ""
  | some n => n.text?.map (·.getD "")

/-- The whole number of a field, 0 when it is missing or null. -/
def intField (entries : List (String × Node)) (name : String) : Option Int :=
  match entries.lookup name with
  | none => some 0
  | some n => n.int?.map (·.getD 0)

/-- The texts of a field, none when it is missing or null. -/
def textsField (entries : List (String × Node)) (name : String) : Option (List String) :=
  match entries.lookup name with
  | none => some []
  | some n => n.texts?

end Stepwise.Yaml
