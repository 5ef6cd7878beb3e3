/-!
# Edit scripts

An edit script turns one text into another: it keeps, deletes and inserts pieces
from left to right. Deleted and inserted characters that no kept piece separates
are counted against each other, so a replaced character costs one.
-/
namespace Stepwise.Diff

inductive Edit where
  | keep (text : List Char)
  | delete (text : List Char)
  | insert (text : List Char)
  deriving DecidableEq, Repr

namespace Edit

/-- The part of the old text that a piece covers. -/
def source : Edit → List Char
  | keep t => t
  | delete t => t
  | insert _ => []

/-- The part of the new text that a piece covers. -/
def target : Edit → List Char
  | keep t => t
  | delete _ => []
  | insert t => t

def text : Edit → List Char
  | keep t => t
  | delete t => t
  | insert t => t

/-- The same piece with other characters. -/
def withText : Edit → List Char → Edit
  | keep _, t => keep t
  | delete _, t => delete t
  | insert _, t => insert t

/-- Whether a piece is kept. -/
def isKeep : Edit → Bool
  | keep _ => true
  | _ => false

end Edit

def source (script : List Edit) : List Char :=
  script.flatMap Edit.source

def target (script : List Edit) : List Char :=
  script.flatMap Edit.target

/-- The cost of a script, with `inserted` and `deleted` characters pending since the
last kept piece. -/
def costFrom (inserted deleted : Nat) : List Edit → Nat
  | [] => max inserted deleted
  | .insert t :: rest => costFrom (inserted + t.length) deleted rest
  | .delete t :: rest => costFrom inserted (deleted + t.length) rest
  | .keep _ :: rest => max inserted deleted + costFrom 0 0 rest

/-- The number of characters that a script inserts, deletes or replaces. -/
def cost (script : List Edit) : Nat :=
  costFrom 0 0 script

/-- The longest common beginning of two texts. -/
def commonStart : List Char → List Char → List Char
  | a :: as, b :: bs => if a == b then a :: commonStart as bs else []
  | _, _ => []

/-- The longest common ending of two texts. -/
def commonEnd (a b : List Char) : List Char :=
  (commonStart a.reverse b.reverse).reverse

end Stepwise.Diff
