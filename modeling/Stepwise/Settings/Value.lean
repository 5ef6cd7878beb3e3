import Stepwise.Json.Value
import Stepwise.Number.Decimal
import Stepwise.Number.Literal
import Stepwise.Text.Casing.Basic
import Stepwise.Yaml.Value

/-!
# Values of settings

A settings file holds a table of values. The same values come out of all formats, so
that what a setting means does not depend on the format of its file.
-/
namespace Stepwise

/-- A value in a settings file. An irregular number is infinite or undefined; a moment
is a date or a time. -/
inductive SettingValue where
  | null
  | bool (b : Bool)
  | int (n : Int)
  | float (x : Number.Binary64)
  | irregular (text : String)
  | moment
  | text (s : String)
  | list (items : List SettingValue)
  | table (members : List (String × SettingValue))
  deriving Repr, Inhabited

abbrev SettingTable := List (String × SettingValue)

namespace SettingValue

/-- A double in positional notation. -/
def floatText (x : Number.Binary64) : String :=
  let (digits, place) := x.shortest
  (if x.negative then "-" else "") ++ String.ofList (Number.positional digits place)

mutual

/-- A value with the names of all its tables in lower case. -/
def lowerNames : SettingValue → SettingValue
  | list items => list (lowerItems items)
  | table members => table (lowerMembers members)
  | v => v

def lowerItems : List SettingValue → List SettingValue
  | [] => []
  | v :: rest => v.lowerNames :: lowerItems rest

def lowerMembers : List (String × SettingValue) → List (String × SettingValue)
  | [] => []
  | (name, v) :: rest => (Text.lowerSimple name, v.lowerNames) :: lowerMembers rest

end

mutual

def display : SettingValue → String
  | null => "<nil>"
  | bool true => "true"
  | bool false => "false"
  | int n => toString n
  | float x => x.text
  | irregular s => s
  | moment => "a moment"
  | text s => s
  | list items => "[" ++ displayItems items ++ "]"
  | table members => "map[" ++ displayMembers members ++ "]"

def displayItems : List SettingValue → String
  | [] => ""
  | [v] => v.display
  | v :: w :: rest => v.display ++ " " ++ displayItems (w :: rest)

def displayMembers : List (String × SettingValue) → String
  | [] => ""
  | [(name, v)] => name ++ ":" ++ v.display
  | (name, v) :: m :: rest => name ++ ":" ++ v.display ++ " " ++ displayMembers (m :: rest)

end

def typeName : SettingValue → String
  | null => "nil"
  | bool _ => "bool"
  | int _ => "int"
  | float _ | irregular _ => "float64"
  | moment => "time.Time"
  | text _ => "string"
  | list _ => "[]interface \x7b\x7d"
  | table _ => "map[string]interface \x7b\x7d"

def sortName : SettingValue → String
  | moment => "struct"
  | list _ => "slice"
  | table _ => "map"
  | v => v.typeName

def ofScalar : Yaml.Scalar → SettingValue
  | .null => .null
  | .bool b => .bool b
  | .int n => .int n
  | .float x => .float x
  | .infinity negative => .irregular (if negative then "-Inf" else "+Inf")
  | .notANumber => .irregular "NaN"
  | .time _ => .moment
  | .text s => .text s

mutual

/-- The value of a YAML value. A mapping whose keys are not all texts keeps no names. -/
def ofYaml : Yaml.Value → SettingValue
  | .scalar s => ofScalar s
  | .list items => .list (ofYamlItems items)
  | .map members => .table (ofYamlMembers members)
  | .mixed _ => .table []

def ofYamlItems : List Yaml.Value → List SettingValue
  | [] => []
  | v :: rest => ofYaml v :: ofYamlItems rest

def ofYamlMembers : List (String × Yaml.Value) → List (String × SettingValue)
  | [] => []
  | (name, v) :: rest => (name, ofYaml v) :: ofYamlMembers rest

end

/-- Adds a member to a table, in place of an earlier one of the same name. -/
def setMember (name : String) (v : SettingValue) : SettingTable → SettingTable
  | [] => [(name, v)]
  | (n, w) :: rest => if n == name then (n, v) :: rest else (n, w) :: setMember name v rest

mutual

/-- The value of a JSON value. Every number is a double; the first that is out of range
is the error. -/
def ofJson : Json → Except String SettingValue
  | .null => .ok .null
  | .bool b => .ok (.bool b)
  | .number digits =>
    match Number.parseFloat? digits with
    | some x => .ok (.float x)
    | none => .error digits
  | .string s => .ok (.text s)
  | .array items => (ofJsonItems items).map .list
  | .object members => (ofJsonMembers [] members).map .table

def ofJsonItems : List Json → Except String (List SettingValue)
  | [] => .ok []
  | v :: rest => do
    let w ← ofJson v
    let ws ← ofJsonItems rest
    return w :: ws

/-- The members of a JSON object; of a repeated name the last wins. -/
def ofJsonMembers (before : SettingTable) : List (String × Json) → Except String SettingTable
  | [] => .ok before
  | (name, v) :: rest => do
    let w ← ofJson v
    ofJsonMembers (setMember name w before) rest

end

end SettingValue
end Stepwise
