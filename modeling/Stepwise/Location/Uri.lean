import Stepwise.Location.Percent

/-!
# Normal form of URIs

File and web locations have a normal form, so that two spellings of one location
are equal. A file location keeps only its path; a web location keeps its host, path,
query and fragment, each decoded and encoded again, the query sorted by key. Every
other text has no normal form.
-/
namespace Stepwise.Location

/-- Cuts a text at the first occurrence of a character. -/
def cut (c : Char) (cs : List Char) : List Char × Option (List Char) :=
  match cs.span (· != c) with
  | (before, _ :: after) => (before, some after)
  | (before, []) => (before, none)

/-- The scheme in front of a colon, in lower case, and the text after the colon. -/
def scheme? (cs : List Char) : Option (String × List Char) :=
  match cut ':' cs with
  | (c :: name, some rest) =>
    let isLetter := fun c : Char => ('a' ≤ c && c ≤ 'z') || ('A' ≤ c && c ≤ 'Z')
    if isLetter c && name.all (fun c => isLetter c || c.isDigit || c == '+' || c == '-' || c == '.')
    then some (String.ofList ((c :: name).map fun c =>
      if 'A' ≤ c && c ≤ 'Z' then Char.ofNat (c.toNat + 32) else c), rest)
    else none
  | _ => none

/-- Whether what follows the host is a port or nothing. -/
def isPort : List Char → Bool
  | [] => true
  | ':' :: digits => digits.all Char.isDigit
  | _ => false

/-- Cuts a text at the last occurrence of a character, which goes to neither part. -/
def cutLast? (c : Char) (cs : List Char) : Option (List Char × List Char) :=
  match cs.reverse.span (· != c) with
  | (after, _ :: before) => some (before.reverse, after.reverse)
  | (_, []) => none

/-- The octets of a host. Only octets beyond ASCII may be escaped, besides the percent
sign itself. -/
def decodeHost? : List Nat → Option (List Nat)
  | [] => some []
  | 37 :: a :: b :: rest => do
    let a ← hexValue? a
    let b ← hexValue? b
    let n := a * 16 + b
    let more ← decodeHost? rest
    if n < 128 && n != 37 then none else some (n :: more)
  | 37 :: _ => none
  | n :: rest => if n < 128 && !inHost n then none else (decodeHost? rest).map (n :: ·)

/-- The octets of a host with an optional port. -/
def host? (cs : List Char) : Option (List Nat) :=
  let portOk := match cs with
    | '[' :: _ =>
      match cutLast? ']' cs with
      | some (_, after) => isPort after
      | none => false
    | _ =>
      match cutLast? ':' cs with
      | some (_, after) => after.all Char.isDigit
      | none => true
  if portOk then decodeHost? (octets (String.ofList cs)) else none

/-- Whether a text can stand before the host as user information. -/
def isUserInfo (cs : List Char) : Bool :=
  cs.all (fun c => c.toNat < 128 && (isUnreserved c.toNat || isOneOf ":!$&'()*+,;=%@" c.toNat)) &&
    (decode? (octets (String.ofList cs))).isSome

/-- The octets of the host of an authority; user information is dropped. -/
def authorityHost? (cs : List Char) : Option (List Nat) :=
  match cutLast? '@' cs with
  | some (user, host) => if isUserInfo user then host? host else none
  | none => host? cs

structure Parts where
  scheme : String
  host : List Nat
  path : List Nat
  query : List Char
  fragment : List Nat
  deriving DecidableEq, Repr

/-- The host and the encoded path of what follows the scheme. A text that does not
start with a slash has neither. -/
def hostAndPath? (cs : List Char) : Option (List Nat × List Char) :=
  match cs with
  | '/' :: '/' :: rest =>
    let (authority, path) := rest.span (· != '/')
    (authorityHost? authority).map (·, path)
  | '/' :: rest => some ([], '/' :: rest)
  | _ => some ([], [])

/-- The parts of a location with a scheme. -/
def parts? (text : String) : Option Parts := do
  let (main, fragment) := cut '#' text.toList
  if main.any fun c => c.toNat < 32 || c.toNat == 127 then none
  else
    let (scheme, rest) ← scheme? main
    let (rest, query) := cut '?' rest
    let (host, path) ← hostAndPath? rest
    let path ← decode? (octets (String.ofList path))
    let fragment ← decode? (octets (String.ofList (fragment.getD [])))
    return ⟨scheme, host, path, query.getD [], fragment⟩

/-- A pair of a query. Pairs with a semicolon or a broken escape are dropped. -/
def queryPair? (cs : List Char) : Option (List Nat × List Nat) :=
  if cs.isEmpty || cs.contains ';' then none
  else do
    let (key, value) := cut '=' cs
    let key ← decodeQuery? (octets (String.ofList key))
    let value ← decodeQuery? (octets (String.ofList (value.getD [])))
    return (key, value)

/-- Whether octets come before others or are equal to them. -/
def octetsLe : List Nat → List Nat → Bool
  | [], _ => true
  | _ :: _, [] => false
  | a :: as, b :: bs => a < b || (a == b && octetsLe as bs)

/-- A query encoded again, sorted by key; the values of one key keep their order. -/
def normalQuery (query : List Char) : String :=
  let pairs := (query.splitOnP (· == '&')).filterMap queryPair?
  let sorted := pairs.mergeSort fun a b => octetsLe a.1 b.1
  "&".intercalate (sorted.map fun (k, v) => encodeQuery k ++ "=" ++ encodeQuery v)

/-- The path of a file location: as it is when it needs no escapes, and escaped
otherwise. -/
def filePath (path : List Nat) : String :=
  if path.all inWrittenPath && decode? path == some path then encode (fun _ => true) path
  else encode inPath path

/-- The two slashes in front of a host or a path. -/
def slashes (host path : List Nat) : String :=
  if host.isEmpty && path.isEmpty then "" else "//"

namespace Parts

def fileText (p : Parts) : String :=
  p.scheme ++ ":" ++ slashes [] p.path ++ filePath p.path

def webText (p : Parts) : String :=
  let query := normalQuery p.query
  p.scheme ++ ":" ++ slashes p.host p.path ++ encode inHost p.host ++ encode inPath p.path ++
    (if query.isEmpty then "" else "?" ++ query) ++
    (if p.fragment.isEmpty then "" else "#" ++ encode inFragment p.fragment)

end Parts

/-- The normal form of a file or web location. -/
def normal? (text : String) : Option String := do
  let p ← parts? text
  if p.scheme == "file" then return p.fileText
  else if p.scheme == "http" || p.scheme == "https" then return p.webText
  else none

/-- The normal form of a location, or the text itself when it has none. -/
def normalize (text : String) : String :=
  (normal? text).getD text

end Stepwise.Location
