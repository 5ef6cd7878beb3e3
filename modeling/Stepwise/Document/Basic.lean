/-!
# Documents

A document is a list of lines together with the version its host gave it and the
revision under which it was stored. It never changes: an update stores another
document.
-/
namespace Stepwise

/-- The lines of a document as they were stored. -/
structure Document where
  uri : String
  version : Int
  revision : Nat
  lines : List String
  deriving DecidableEq, Repr

namespace Document

def lineCount (d : Document) : Nat :=
  d.lines.length

/-- The line with a number, counted from 1, or nothing at all outside the document. -/
def line (d : Document) (number : Int) : String :=
  if number < 1 then "" else d.lines.getD (number.toNat - 1) ""

/-- The lines joined by line feeds. -/
def text (d : Document) : String :=
  "\n".intercalate d.lines

/-- The lines with their numbers, counted from 1. -/
def numbered (d : Document) : List (Nat × String) :=
  d.lines.mapIdx fun i line => (i + 1, line)

end Document
end Stepwise
