import Stepwise.Yaml.Quoted

/-!
# Tags, anchors and directives

A node may carry a tag and an anchor; a document may start with directives that
give its version and declare tag handles.
-/
namespace Stepwise.Yaml

/-- Characters after which an anchor or an alias may end, besides blanks. -/
def endsAnchor (c : Char) : Bool :=
  c == '?' || c == ':' || c == ',' || c == ']' || c == '\x7d' || c == '%' || c == '@' ||
    c.toNat == 0x60

/-- Reads the name of an anchor or an alias after its indicator. -/
def readAnchor (i : Input) : Except Problem (String × Input) :=
  let (name, i) := i.skip.readWhile isNameChar
  let ends := match i.next? with
    | none => true
    | some c => isBlank c || isBreak c || endsAnchor c
  if name.isEmpty || !ends then .error .missingName else .ok (String.ofList name, i)

/-- The characters of a tag other than name characters. -/
def isTagChar (c : Char) : Bool :=
  isNameChar c || ";/?:@&=+$,.!~*'()[]".toList.contains c

/-- The octets of a run of percent escapes. -/
def readOctets : Nat → Input → Except Problem (List Nat × Input)
  | 0, i => .ok ([], i)
  | fuel + 1, i =>
    match i.rest with
    | '%' :: a :: b :: _ =>
      match Text.hexNumber? [a, b] with
      | none => .error .missingOctet
      | some n =>
        match readOctets fuel (Input.skipMany 3 i) with
        | .ok (ns, i) => .ok (n :: ns, i)
        | .error e => .error e
    | '%' :: _ => .error .missingOctet
    | _ => .ok ([], i)

def decodeOctets? (octets : List Nat) : Option (List Char) :=
  (String.fromUTF8? (ByteArray.mk (octets.map fun n => n.toUInt8).toArray)).map String.toList

/-- Whether an octet starts a character of several octets. -/
def isLeadingOctet (n : Nat) : Bool :=
  0xC0 ≤ n && n < 0xF8

def readTagText : Nat → List Char → Input → Except Problem (List Char × Input)
  | 0, acc, i => .ok (acc.reverse, i)
  | fuel + 1, acc, i =>
    match i.next? with
    | some c =>
      if c == '%' then
        match readOctets i.rest.length i with
        | .ok (octets, i) =>
          match decodeOctets? octets with
          | some text => readTagText fuel (text.reverse ++ acc) i
          | none =>
            .error (if octets.any isLeadingOctet then .badTrailingOctet else .badLeadingOctet)
        | .error e => .error e
      else if isTagChar c then readTagText fuel (c :: acc) i.skip
      else .ok (acc.reverse, i)
    | none => .ok (acc.reverse, i)

/-- Reads the text of a tag, which must not be empty. -/
def readTagUri (i : Input) : Except Problem (String × Input) :=
  match readTagText (i.rest.length + 1) [] i with
  | .ok (text, i) => if text.isEmpty then .error .missingTagText else .ok (String.ofList text, i)
  | .error e => .error e

/-- Reads a tag handle: an exclamation mark, a name, and a second mark if one
follows. -/
def readHandle (i : Input) : Except Problem (List Char × Input) :=
  if i.isAt '!' then
    let (name, i) := i.skip.readWhile isNameChar
    if i.isAt '!' then .ok ('!' :: name ++ ['!'], i.skip) else .ok ('!' :: name, i)
  else .error .missingExclamation

/-- Reads a tag in its short or handle form: handle and suffix. -/
def readShortTag (i : Input) : Except Problem (String × String × Input) := do
  let (handle, i) ← readHandle i
  if 1 < handle.length && handle.getLast? == some '!' then
    let (suffix, i) ← readTagUri i
    return (String.ofList handle, suffix, i)
  else
    let (text, i) ← readTagText (i.rest.length + 1) [] i
    let suffix := handle.drop 1 ++ text
    return if suffix.isEmpty then ("", "!", i) else ("!", String.ofList suffix, i)

/-- Reads a tag between angle brackets. -/
def readVerbatimTag (i : Input) : Except Problem (String × String × Input) := do
  let (suffix, i) ← readTagUri (Input.skipMany 2 i)
  if i.isAt '>' then return ("", suffix, i.skip) else .error .missingAngle

/-- Reads a tag: its handle, empty for a verbatim tag, and its suffix. A blank must
follow it. -/
def readTag (i : Input) : Except Problem (String × String × Input) := do
  let (handle, suffix, i) ←
    if i.ahead? 1 == some '<' then readVerbatimTag i else readShortTag i
  if isBlankOrEnd i.next? then return (handle, suffix, i) else .error .missingBlankOrBreak

inductive Directive where
  | version (major minor : Nat)
  | tag (handle uri : String)
  deriving DecidableEq, Repr

def readVersionNumber (i : Input) : Except Problem (Nat × Input) :=
  let (digits, i) := i.readWhile Char.isDigit
  if digits.isEmpty then .error .missingVersion
  else if 2 < digits.length then .error .longVersion
  else .ok (digits.foldl (fun n c => n * 10 + (c.toNat - 48)) 0, i)

def readVersion (i : Input) : Except Problem (Directive × Input) := do
  let (major, i) ← readVersionNumber (i.skipWhile isBlank)
  if i.isAt '.' then
    let (minor, i) ← readVersionNumber i.skip
    return (.version major minor, i)
  else .error .missingVersionPoint

def readTagDirective (i : Input) : Except Problem (Directive × Input) := do
  let (handle, i) ← readHandle (i.skipWhile isBlank)
  if handle != ['!'] && handle.getLast? != some '!' then .error .missingExclamation
  else if !i.next?.any isBlank then .error .missingBlank
  else
    let (uri, i) ← readTagUri (i.skipWhile isBlank)
    if isBlankOrEnd i.next? then return (.tag (String.ofList handle) uri, i)
    else .error .missingBlankOrBreak

/-- Reads a directive from its percent sign to the end of its line. -/
def readDirective (i : Input) : Except Problem (Directive × Input) := do
  let (name, i) := i.skip.readWhile isNameChar
  if name.isEmpty then .error .missingDirectiveName
  else if !isBlankOrEnd i.next? then .error .badDirectiveName
  else
    let (directive, i) ←
      if String.ofList name == "YAML" then readVersion i
      else if String.ofList name == "TAG" then readTagDirective i
      else .error .unknownDirective
    let i := i.skipWhile isBlank
    let i := if i.isAt '#' then i.skipLineRest else i
    if isBreakOrEnd i.next? then return (directive, i.skipBreak) else .error .missingLineEnd

end Stepwise.Yaml
