import Stepwise.Yaml.Document
import Stepwise.Yaml.Value

/-!
# Configuration payloads

A payload is a YAML or JSON document, JSON being a part of YAML. It is held as a
tree of nodes, which keeps order and lines, and has a JSON form for checking it
against a schema.
-/
namespace Stepwise

/-- Why a text is no payload: it is no YAML document, or its value has no JSON form. -/
inductive PayloadError where
  | yaml
  | noJson
  deriving DecidableEq, Repr

structure Payload where
  root : Option Yaml.Node
  json : Json

namespace Payload

def ofRoot (root : Yaml.Node) : Except PayloadError Payload :=
  match root.documentValue with
  | .error _ => .error .yaml
  | .ok value =>
    match value.toJson? with
    | some json => .ok ⟨some root, json⟩
    | none => .error .noJson

def parse (text : String) : Except PayloadError Payload :=
  match Yaml.parse text with
  | .error _ => .error .yaml
  | .ok .empty => .ok ⟨none, .null⟩
  | .ok (.root root) => ofRoot root

def find? (p : Payload) (path : List String) : Option Yaml.Node :=
  p.root.bind (·.find? path)

/-- The line of the node at a path, or the first line. -/
def lineOf (p : Payload) (path : List String) : Nat :=
  match p.find? path with
  | some n => if n.line == 0 then 1 else n.line
  | none => 1

/-- The JSON form of the node at a path, its members in source order; nothing when the
path leads nowhere. -/
def sectionJson (p : Payload) (path : List String) : Except PayloadError (Option Json) :=
  match p.find? path with
  | none => .ok none
  | some n =>
    match n.toJson? with
    | some json => .ok (some json)
    | none => .error .noJson

end Payload
end Stepwise
