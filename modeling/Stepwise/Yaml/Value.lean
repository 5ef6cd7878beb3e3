import Stepwise.Json.Value
import Stepwise.Text.Quoted
import Stepwise.Yaml.Binary
import Stepwise.Yaml.Expansion
import Stepwise.Yaml.Node

/-!
# The value of a document

The value forgets lines, styles and aliases and carries out merges. A mapping whose
keys are all texts is a map; any other mapping is kept apart, because it has no
JSON form.
-/
namespace Stepwise.Yaml

/-- A decoded value. The entries of a mapping with a key that is no text are kept
without their keys. -/
inductive Value where
  | scalar (s : Scalar)
  | list (items : List Value)
  | map (members : List (String × Value))
  | mixed (values : List Value)
  deriving Repr

/-- The meaning of a scalar, where the binary tag asks for decoding. -/
def scalarValue? (t : Tag) (text : String) : Option Scalar :=
  if t == .binary then (Binary.decode? text).map .text else Scalar.resolve? t text

namespace Node

/-- The text of a node where a text is wanted. A null has none, a scalar of another
sort keeps its source text, and a collection is an error. -/
def text? : Node → Option (Option String)
  | scalar _ t _ text =>
    match scalarValue? t text with
    | none => none
    | some .null => some none
    | some (.text s) => some (some s)
    | some _ => some (some text)
  | reference _ _ target => target.text?
  | _ => none

/-- Whether all keys are texts or merge marks. -/
def keysAreTexts (members : List (Node × Node)) : Bool :=
  members.all fun m => m.1.tag == .str || m.1.tag == .merge

/-- Whether a node is a mapping or an alias of one. -/
def isMapping : Node → Bool
  | mapping .. => true
  | reference _ _ target => target.isMapping
  | _ => false

end Node

structure RepeatedKey where
  name : String
  line : Nat
  firstLine : Nat
  deriving DecidableEq, Repr

inductive ValueFault where
  | repeatedKeys (keys : List RepeatedKey)
  | unfitScalar (text : String) (written wanted : Tag)
  | badBinary
  | badMerge
  | badKey
  | tooManyAliases
  deriving DecidableEq, Repr

namespace ValueFault

/-- A list of faults that did not stop the reading. -/
def listed (faults : List String) : String :=
  "yaml: unmarshal errors:\n" ++ "\n".intercalate (faults.map ("  " ++ ·))

def message : ValueFault → String
  | repeatedKeys keys =>
    listed (keys.map fun k =>
      "line " ++ toString k.line ++ ": mapping key " ++ Text.quoted k.name ++
        " already defined at line " ++ toString k.firstLine)
  | unfitScalar text written wanted =>
    "yaml: cannot decode " ++ written.text ++ " \x60" ++ text ++ "\x60 as a " ++ wanted.text
  | badBinary => "yaml: !!binary value contains invalid base64 data"
  | badMerge => "yaml: map merge requires map or sequence of maps as the value"
  | badKey => "yaml: invalid map key"
  | tooManyAliases => "yaml: document contains excessive aliasing"

end ValueFault

/-- The keys of a mapping that are written again after a first member. -/
def repeatsOf (first : Node) (rest : List (Node × Node)) : List RepeatedKey :=
  (rest.filter fun m => Node.sameKey first m.1).map fun m =>
    ⟨m.1.value, m.1.line, first.line⟩

def repeatedKeys : List (Node × Node) → List RepeatedKey
  | [] => []
  | (k, _) :: rest => repeatsOf k rest ++ repeatedKeys rest

/-- The members of a mapping, unless a key is repeated. -/
def checkKeys (members : List (Node × Node)) : Except ValueFault Unit :=
  if Node.keysDistinct members then .ok () else .error (.repeatedKeys (repeatedKeys members))

/-- The fault of a scalar that does not fit its tag. -/
def scalarFault (t : Tag) (text : String) : ValueFault :=
  if t == .binary then .badBinary
  else .unfitScalar text (Scalar.ofWriting (t == .timestamp) text).tag t

/-- The meaning of a scalar, or why it has none. -/
def scalarValue (t : Tag) (text : String) : Except ValueFault Scalar :=
  match scalarValue? t text with
  | some s => .ok s
  | none => .error (scalarFault t text)

/-- The name that a key stands for; a null stands for none. -/
def Node.keyName (n : Node) : Except ValueFault (Option String) :=
  match n.text? with
  | some name => .ok name
  | none =>
    match n.resolved with
    | .scalar _ t _ text => .error (scalarFault t text)
    | _ => .error .badKey

/-- The members collected for a map, and the keys that later merges may not set. -/
structure Merging where
  seen : List String
  members : List (String × Value)

/-- Sets a member of a map, in place if the key is known. -/
def setMember (key : String) (v : Value) : List (String × Value) → List (String × Value)
  | [] => [(key, v)]
  | (k, w) :: rest => if k == key then (k, v) :: rest else (k, w) :: setMember key v rest

namespace Merging

/-- Sets a member and remembers its key. -/
def set (m : Merging) (key : String) (v : Value) : Merging :=
  ⟨key :: m.seen, setMember key v m.members⟩

end Merging

mutual

/-- The value of a node. Repeated keys, unknown tags and unreadable scalars are
errors. -/
def Node.decode : Node → Except ValueFault Value
  | .scalar _ t _ text => (scalarValue t text).map .scalar
  | .sequence _ _ items => (decodeItems items).map .list
  | .reference _ _ target => target.decode
  | .mapping _ _ members => do
    checkKeys members
    if Node.keysAreTexts members then
      let m ← addMembers false ⟨["<<"], []⟩ members
      let m ← addMerges m members
      return .map m.members
    else
      let values ← decodeMixed members
      let m ← addMerges ⟨[], []⟩ members
      return .mixed (values ++ m.members.map (·.2))

def decodeItems : List Node → Except ValueFault (List Value)
  | [] => .ok []
  | n :: rest => do
    let v ← n.decode
    let vs ← decodeItems rest
    return v :: vs

/-- The values of a mapping with a key that is no text. A collection as a key is an
error. -/
def decodeMixed : List (Node × Node) → Except ValueFault (List Value)
  | [] => .ok []
  | (k, v) :: rest =>
    if k.isMerge then decodeMixed rest
    else do
      match ← k.decode with
      | .scalar _ =>
        let w ← v.decode
        let ws ← decodeMixed rest
        return w :: ws
      | _ => .error .badKey

/-- Sets the members of a mapping other than merges. With `keep`, a key that is known
keeps its value. -/
def addMembers (keep : Bool) (m : Merging) : List (Node × Node) → Except ValueFault Merging
  | [] => .ok m
  | (k, v) :: rest =>
    if k.isMerge then addMembers keep m rest
    else do
      match ← k.keyName with
      | none => addMembers keep m rest
      | some key =>
        if keep && m.seen.contains key then addMembers keep m rest
        else
          let w ← v.decode
          addMembers keep (m.set key w) rest

/-- Merges the mappings that the merge key of a mapping names. -/
def addMerges (m : Merging) : List (Node × Node) → Except ValueFault Merging
  | [] => .ok m
  | (k, v) :: rest => if k.isMerge then mergeNode m v else addMerges m rest

/-- Merges a mapping and then what it merges itself, or the mappings of a sequence one
after the other. -/
def mergeNode (m : Merging) : Node → Except ValueFault Merging
  | .mapping _ _ members => do
    checkKeys members
    let m ← addMembers true m members
    addMerges m members
  | .reference _ _ target => if target.isMapping then mergeNode m target else .error .badMerge
  | .sequence _ _ items =>
    if items.all Node.isMapping then mergeItems m items else .error .badMerge
  | .scalar .. => .error .badMerge

def mergeItems (m : Merging) : List Node → Except ValueFault Merging
  | [] => .ok m
  | n :: rest => do
    let m ← mergeNode m n
    mergeItems m rest

end

/-- The value of the document at a root, unless its aliases make it too large. -/
def Node.documentValue (root : Node) : Except ValueFault Value :=
  if root.isExpandable then root.decode else .error .tooManyAliases

/-- The JSON form of a scalar. Infinities and undefined numbers have none. -/
def Scalar.toJson? : Scalar → Option Json
  | .null => some .null
  | .bool b => some (.bool b)
  | .int n => some (.ofInt n)
  | .float x => some (.number x.text)
  | .infinity _ => none
  | .notANumber => none
  | .time t => t.text?.map .string
  | .text s => some (.string s)

mutual

/-- The JSON form of a value, the members of a map sorted by key. -/
def Value.toJson? : Value → Option Json
  | .scalar s => s.toJson?
  | .list items => (itemsToJson? items).map .array
  | .map members =>
    (membersToJson? members).map fun ms => .object (ms.mergeSort fun a b => decide (a.1 ≤ b.1))
  | .mixed _ => none

def itemsToJson? : List Value → Option (List Json)
  | [] => some []
  | v :: rest =>
    match v.toJson?, itemsToJson? rest with
    | some j, some js => some (j :: js)
    | _, _ => none

def membersToJson? : List (String × Value) → Option (List (String × Json))
  | [] => some []
  | (k, v) :: rest =>
    match v.toJson?, membersToJson? rest with
    | some j, some js => some ((k, j) :: js)
    | _, _ => none

end

mutual

/-- The JSON form of a node, its members in source order. Merge keys are ordinary keys,
and aliases stand for their targets. -/
def Node.toJson? : Node → Option Json
  | .scalar _ t _ text => (scalarValue? t text).bind Scalar.toJson?
  | .sequence _ _ items => (nodesToJson? items).map .array
  | .mapping _ _ members => (pairsToJson? members).map .object
  | .reference _ _ target => target.toJson?

def nodesToJson? : List Node → Option (List Json)
  | [] => some []
  | n :: rest =>
    match n.toJson?, nodesToJson? rest with
    | some j, some js => some (j :: js)
    | _, _ => none

/-- The JSON forms of the members of a mapping. -/
def pairsToJson? : List (Node × Node) → Option (List (String × Json))
  | [] => some []
  | (k, v) :: rest =>
    match v.toJson?, pairsToJson? rest with
    | some j, some js => some ((k.value, j) :: js)
    | _, _ => none

end

end Stepwise.Yaml
