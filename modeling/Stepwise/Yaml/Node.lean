import Stepwise.Yaml.Token
import Stepwise.Yaml.Scalar

/-!
# Nodes

A document is a tree of nodes. A node knows the line it starts on, counted from 1,
and its tag. An alias holds the node it stands for, so the tree is finite and
nothing has to be looked up again.
-/
namespace Stepwise.Yaml

/-- A node of a document. The members of a mapping are in source order. -/
inductive Node where
  | scalar (line : Nat) (tag : Tag) (style : Style) (text : String)
  | sequence (line : Nat) (tag : Tag) (items : List Node)
  | mapping (line : Nat) (tag : Tag) (members : List (Node × Node))
  | reference (line : Nat) (name : String) (target : Node)
  deriving Repr

namespace Node

instance : Inhabited Node := ⟨.scalar 0 .null .plain ""⟩

def line : Node → Nat
  | scalar n _ _ _ => n
  | sequence n _ _ => n
  | mapping n _ _ => n
  | reference n _ _ => n

/-- The text of a scalar and the name of an alias; collections have none. -/
def value : Node → String
  | scalar _ _ _ text => text
  | reference _ name _ => name
  | _ => ""

/-- The node that an alias stands for in the end. -/
def resolved : Node → Node
  | reference _ _ target => target.resolved
  | n => n

/-- The tag of a node, for an alias that of its target. -/
def tag : Node → Tag
  | scalar _ t _ _ => t
  | sequence _ t _ => t
  | mapping _ t _ => t
  | reference _ _ target => target.tag

/-- Whether a key merges the mappings of its value. -/
def isMerge : Node → Bool
  | scalar _ t _ text => t == .merge && text == "<<"
  | _ => false

/-- Whether two nodes are of one sort. -/
def sameSort : Node → Node → Bool
  | scalar .., scalar .. => true
  | sequence .., sequence .. => true
  | mapping .., mapping .. => true
  | reference .., reference .. => true
  | _, _ => false

/-- Whether two keys count as the same key. -/
def sameKey (a b : Node) : Bool :=
  sameSort a b && a.value == b.value

def keysDistinct : List (Node × Node) → Bool
  | [] => true
  | (k, _) :: rest => rest.all (fun m => !sameKey k m.1) && keysDistinct rest

/-- The node at a path of keys, the first of several equal keys. Aliases on the way
are not followed. -/
def find? : Node → List String → Option Node
  | n, [] => some n
  | mapping _ _ members, key :: path =>
    match members.find? (fun m => m.1.value == key) with
    | some m => m.2.find? path
    | none => none
  | _, _ :: _ => none
termination_by _ path => path.length

end Node
end Stepwise.Yaml
