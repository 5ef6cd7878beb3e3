import Stepwise.Text.Casing.Basic

/-!
# Variables

A variable is a named value that placeholders refer to. Every declaration is kept;
a name is looked up without regard to case, and the first declaration of a name
answers.
-/
namespace Stepwise

structure Variable where
  id : String
  name : String
  value : String
  deriving DecidableEq, Repr

structure Variables where
  all : List Variable
  deriving DecidableEq, Repr

namespace Variables

def empty : Variables := ⟨[]⟩

def ofList (vars : List Variable) : Variables := ⟨vars⟩

/-- A name without the dollars around it. -/
def bareName (name : String) : String :=
  String.ofList ((name.toList.dropWhile (· == '$')).reverse.dropWhile (· == '$')).reverse

/-- The first variable with a name, which may stand between dollars. -/
def find? (v : Variables) (name : String) : Option Variable :=
  let key := Text.lowerSimple (bareName name)
  v.all.find? fun x => Text.lowerSimple x.name == key

def size (v : Variables) : Nat :=
  v.all.length

end Variables
end Stepwise
