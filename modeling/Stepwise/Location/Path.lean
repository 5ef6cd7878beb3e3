import Stepwise.Location.Percent

/-!
# File paths

A bare path is taken from the root and cleaned: empty and single-dot segments
disappear, and a double-dot segment takes the segment before it away. A path on a
drive is left as it is.
-/
namespace Stepwise.Location

/-- The segments that remain, the last one first. -/
def cleanSegments (done : List String) : List String → List String
  | [] => done
  | s :: rest =>
    if s.isEmpty || s == "." then cleanSegments done rest
    else if s == ".." then cleanSegments (done.drop 1) rest
    else cleanSegments (s :: done) rest

def cleanPath (path : String) : String :=
  let segments := (path.toList.splitOnP (· == '/')).map String.ofList
  "/" ++ "/".intercalate (cleanSegments [] segments).reverse

/-- Whether a path of at least four octets starts with a drive letter. -/
def isOnDrive (path : String) : Bool :=
  4 ≤ path.utf8ByteSize && match path.toList with
    | c :: ':' :: _ => c.isAlpha
    | _ => false

def rootedPath (path : String) : String :=
  if isOnDrive path then "/" ++ path else cleanPath path

def ofPath (path : String) : String :=
  "file://" ++ encode inPath (octets (rootedPath path))

end Stepwise.Location
