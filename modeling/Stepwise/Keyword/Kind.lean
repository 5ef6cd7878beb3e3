import Stepwise.Text.Casing.Basic

/-!
# Kinds of keyword phrases

A phrase opens either a step or a section. Sections have a kind of their own for
each sort of heading; a number outside the list still stands for some heading.
-/
namespace Stepwise

inductive Kind where
  | step
  | feature
  | background
  | scenario
  | outline
  | examples
  | rule
  | unlisted (code : Int)
  deriving DecidableEq, Repr, Inhabited

namespace Kind

def code : Kind → Int
  | step => 0
  | feature => 1
  | background => 2
  | scenario => 3
  | outline => 4
  | examples => 5
  | rule => 6
  | unlisted n => n

def ofCode (n : Int) : Kind :=
  if n = 0 then step
  else if n = 1 then feature
  else if n = 2 then background
  else if n = 3 then scenario
  else if n = 4 then outline
  else if n = 5 then examples
  else if n = 6 then rule
  else unlisted n

/-- Everything but a step opens a section. -/
def isHeader : Kind → Bool
  | step => false
  | _ => true

/-- The category names of keyword tables, in lower case. -/
def categories : List (String × Kind) := [
  ("given", step), ("when", step), ("then", step), ("and", step), ("but", step),
  ("feature", feature), ("background", background), ("scenario", scenario),
  ("scenariooutline", outline), ("examples", examples), ("rule", rule)]

/-- The kind of a category, whose name is read without regard to case. Categories
that hold no phrases have none. -/
def ofCategory? (category : String) : Option Kind :=
  categories.lookup (Text.lowerSimple category)

/-- A kind whose heading is followed by free description text. -/
def takesDescription : Kind → Bool
  | feature => true
  | rule => true
  | _ => false

end Kind
end Stepwise
