import Stepwise.Text.Casing.Basic
import Stepwise.Location.Basic

/-!
# Imports

The import table maps names to targets. Names that differ only in case are one
name: it keeps the place and spelling of its first declaration and the target of
its last.
-/
namespace Stepwise

/-- A place to go to. A line number of 0 stands for none. -/
structure Target where
  uri : String
  lineNumber : Int
  deriving DecidableEq, Repr

structure ImportEntry where
  name : String
  location : String
  lineNumber : Int
  deriving DecidableEq, Repr

/-- The import table: names in order of first declaration, with their targets. -/
structure Imports where
  all : List (String × Target)
  deriving DecidableEq, Repr

namespace Imports

def empty : Imports := ⟨[]⟩

/-- What a name is compared by. -/
def key (name : String) : String :=
  Text.lowerSimple name

/-- Adds an entry; a known name keeps its place and spelling and gets the new
target. -/
def put (name : String) (target : Target) : List (String × Target) → List (String × Target)
  | [] => [(name, target)]
  | (n, t) :: rest =>
    if key n == key name then (n, target) :: rest else (n, t) :: put name target rest

def ofList (entries : List ImportEntry) : Imports :=
  ⟨entries.foldl (fun all e => put e.name ⟨Location.resolve e.location, e.lineNumber⟩ all) []⟩

def find? (im : Imports) (name : String) : Option Target :=
  (im.all.find? fun e => key e.1 == key name).map (·.2)

/-- The names in order of first declaration. -/
def names (im : Imports) : List String :=
  im.all.map (·.1)

def size (im : Imports) : Nat :=
  im.all.length

end Imports
end Stepwise
