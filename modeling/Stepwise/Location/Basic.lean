import Stepwise.Location.Uri
import Stepwise.Location.Path

/-!
# Locations of imports

An import names its target by a URI or by a bare file path.
-/
namespace Stepwise.Location

/-- Whether a text contains another. -/
def contains (part : List Char) : List Char → Bool
  | [] => part.isEmpty
  | c :: cs => part.isPrefixOf (c :: cs) || contains part cs

/-- The URI of a location: a text with a scheme in normal form, and a bare path as a
file. -/
def resolve (location : String) : String :=
  if location.isEmpty then ""
  else if contains "://".toList location.toList then normalize location
  else ofPath location

end Stepwise.Location
