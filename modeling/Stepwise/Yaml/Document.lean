import Stepwise.Yaml.Node
import Stepwise.Yaml.Scanner

/-!
# From tokens to a document

The grammar of YAML over tokens. Only the first document of a text is read; what
follows it is not looked at.
-/
namespace Stepwise.Yaml

/-- The state of reading: the tokens left, the anchors with the newest first, and the
tag handles. An anchor without a node belongs to a collection that is still open.
`fault` is what keeps the text from having more tokens. -/
structure Reading where
  tokens : List Token
  anchors : List (String × Option Node)
  handles : List (String × String)
  fault : Fault

namespace Reading

def kind? (r : Reading) : Option TokenKind :=
  r.tokens.head?.map (·.kind)

def line (r : Reading) : Except Fault Nat :=
  match r.tokens with
  | t :: _ => .ok t.line
  | [] => .error r.fault

/-- A problem with the next token in a construct that starts on a line. -/
def refuse {α : Type} (r : Reading) (start : Nat) (problem : Problem) : Except Fault α :=
  match r.tokens with
  | t :: _ => .error (.ofTokens start t.line problem)
  | [] => .error r.fault

def skip (r : Reading) : Reading :=
  { r with tokens := r.tokens.drop 1 }

/-- Whether the next token is one of the given sorts. -/
def isAny (r : Reading) (kinds : List TokenKind) : Bool :=
  match r.kind? with
  | some k => kinds.contains k
  | none => false

def openAnchor (r : Reading) : Option String → Reading
  | some name => { r with anchors := (name, none) :: r.anchors }
  | none => r

/-- Gives the anchor opened when `depth` anchors were known its node. -/
def closeAnchor (r : Reading) (anchor : Option String) (depth : Nat) (n : Node) : Reading :=
  match anchor with
  | some name =>
    { r with anchors := r.anchors.set (r.anchors.length - 1 - depth) (name, some n) }
  | none => r

/-- The node with an anchor. An alias inside the node that it names is refused here, when it
is read, and not only when the value of the node is asked for: a node is a finite tree. -/
def target (r : Reading) (name : String) : Except Fault Node :=
  match r.anchors.lookup name with
  | some (some n) => .ok n
  | some none => .error (.plain (.selfReference name))
  | none => .error (.plain (.unknownAnchor name))

end Reading

structure Properties where
  line : Option Nat
  tag : Option String
  anchor : Option String

/-- The full text of a tag. -/
def expandTag? (r : Reading) (handle suffix : String) : Option String :=
  if handle.isEmpty then some suffix
  else (r.handles.lookup handle).bind fun uri =>
    if (uri ++ suffix).isEmpty then none else some (uri ++ suffix)

/-- The full text of a tag on a line, of a node that starts on a line. -/
def expandTag (r : Reading) (start line : Nat) (handle suffix : String) : Except Fault String :=
  match expandTag? r handle suffix with
  | some text => .ok text
  | none => .error (.ofTokens start line .unknownHandle)

/-- Reads the tag and the anchor of a node, in either order. -/
def readProperties (r : Reading) : Except Fault (Properties × Reading) :=
  match r.tokens with
  | ⟨.anchor name, line⟩ :: ⟨.tag handle suffix, tagLine⟩ :: _ => do
    let tag ← expandTag r line tagLine handle suffix
    return (⟨some line, some tag, some name⟩, r.skip.skip)
  | ⟨.tag handle suffix, line⟩ :: ⟨.anchor name, _⟩ :: _ => do
    let tag ← expandTag r line line handle suffix
    return (⟨some line, some tag, some name⟩, r.skip.skip)
  | ⟨.anchor name, line⟩ :: _ => .ok (⟨some line, none, some name⟩, r.skip)
  | ⟨.tag handle suffix, line⟩ :: _ => do
    let tag ← expandTag r line line handle suffix
    return (⟨some line, some tag, none⟩, r.skip)
  | _ => .ok (⟨none, none, none⟩, r)

/-- The tag of a node from the tag written in front of it; the lone exclamation mark
asks for none. -/
def tagOr (written : Option String) (default : Tag) : Tag :=
  match written with
  | some "!" => default
  | some "" => default
  | some text => Tag.ofText text
  | none => default

def defaultTag (style : Style) (text : String) : Tag :=
  match style with
  | .plain => Scalar.plainTag text
  | _ => .str

def emptyScalar (line : Nat) : Node :=
  .scalar (line + 1) .null .plain ""

/-- A node without content: an empty scalar if it has a tag or an anchor, and an error
otherwise. -/
def noContent (p : Properties) (line : Nat) (r : Reading) : Except Fault (Node × Reading) :=
  if p.line.isSome then
    let n := Node.scalar (line + 1) (tagOr p.tag .null) .plain ""
    .ok (n, (r.openAnchor p.anchor).closeAnchor p.anchor r.anchors.length n)
  else r.refuse line .missingContent

/-- Passes the comma in front of an entry of a flow collection; the first entry has
none. -/
def readComma (first : Bool) (start : Nat) (problem : Problem) (r : Reading) :
    Except Fault Reading :=
  if first then .ok r
  else if r.isAny [.flowEntry] then .ok r.skip
  else r.refuse start problem

mutual

/-- Reads a node. `block` allows block collections, `indentless` a sequence at the
indentation of its parent mapping. -/
def readNode (block indentless : Bool) : Nat → Reading → Except Fault (Node × Reading)
  | 0, r => .error r.fault
  | fuel + 1, r =>
    match r.tokens with
    | ⟨.reference name, line⟩ :: _ => do
      let target ← r.target name
      return (.reference (line + 1) name target, r.skip)
    | _ => do
      let (p, r) ← readProperties r
      match r.tokens with
      | [] => .error r.fault
      | t :: _ =>
        let line := p.line.getD t.line
        let depth := r.anchors.length
        let inner := r.openAnchor p.anchor
        let close := fun (n : Node) (r : Reading) => (n, r.closeAnchor p.anchor depth n)
        let sequence := fun (items : List Node) => Node.sequence (line + 1) (tagOr p.tag .seq) items
        let mapping := fun (members : List (Node × Node)) =>
          Node.mapping (line + 1) (tagOr p.tag .map) members
        match t.kind with
        | .blockEntry =>
          if indentless then
            let (items, r) ← readIndentless fuel inner
            return close (sequence items) r
          else noContent p line r
        | .scalar style text =>
          return close (.scalar (line + 1) (tagOr p.tag (defaultTag style text)) style text)
            inner.skip
        | .flowSequenceStart =>
          let (items, r) ← readFlowItems true t.line fuel inner.skip
          return close (sequence items) r
        | .flowMappingStart =>
          let (members, r) ← readFlowMembers true t.line fuel inner.skip
          return close (mapping members) r
        | .blockSequenceStart =>
          if block then
            let (items, r) ← readBlockItems t.line fuel inner.skip
            return close (sequence items) r
          else noContent p line r
        | .blockMappingStart =>
          if block then
            let (members, r) ← readBlockMembers t.line fuel inner.skip
            return close (mapping members) r
          else noContent p line r
        | _ => noContent p line r
termination_by structural fuel _ => fuel

/-- Reads the entries of a block sequence up to its end. `start` is the line it starts
on. -/
def readBlockItems (start : Nat) : Nat → Reading → Except Fault (List Node × Reading)
  | 0, r => .error r.fault
  | fuel + 1, r =>
    match r.tokens with
    | ⟨.blockEntry, line⟩ :: _ => do
      let r := r.skip
      if r.isAny [.blockEntry, .blockEnd] then
        let (items, r) ← readBlockItems start fuel r
        return (emptyScalar line :: items, r)
      else
        let (n, r) ← readNode true false fuel r
        let (items, r) ← readBlockItems start fuel r
        return (n :: items, r)
    | ⟨.blockEnd, _⟩ :: _ => .ok ([], r.skip)
    | _ => r.refuse start .missingDash
termination_by structural fuel _ => fuel

/-- Reads the entries of a sequence at the indentation of its parent mapping. -/
def readIndentless : Nat → Reading → Except Fault (List Node × Reading)
  | 0, r => .error r.fault
  | fuel + 1, r =>
    match r.tokens with
    | [] => .error r.fault
    | ⟨.blockEntry, line⟩ :: _ => do
      let r := r.skip
      if r.isAny [.blockEntry, .key, .value, .blockEnd] then
        let (items, r) ← readIndentless fuel r
        return (emptyScalar line :: items, r)
      else
        let (n, r) ← readNode true false fuel r
        let (items, r) ← readIndentless fuel r
        return (n :: items, r)
    | _ => .ok ([], r)
termination_by structural fuel _ => fuel

/-- Reads the members of a block mapping up to its end. `start` is the line it starts
on. -/
def readBlockMembers (start : Nat) : Nat → Reading → Except Fault (List (Node × Node) × Reading)
  | 0, r => .error r.fault
  | fuel + 1, r =>
    match r.tokens with
    | ⟨.key, line⟩ :: _ => do
      let (k, r) ←
        if r.skip.isAny [.key, .value, .blockEnd] then .ok (emptyScalar line, r.skip)
        else readNode true true fuel r.skip
      let (v, r) ← readBlockValue fuel r
      let (members, r) ← readBlockMembers start fuel r
      return ((k, v) :: members, r)
    | ⟨.blockEnd, _⟩ :: _ => .ok ([], r.skip)
    | _ => r.refuse start .missingKey
termination_by structural fuel _ => fuel

/-- Reads the value of a member of a block mapping. -/
def readBlockValue : Nat → Reading → Except Fault (Node × Reading)
  | 0, r => .error r.fault
  | fuel + 1, r =>
    match r.tokens with
    | [] => .error r.fault
    | ⟨.value, line⟩ :: _ =>
      if r.skip.isAny [.key, .value, .blockEnd] then .ok (emptyScalar line, r.skip)
      else readNode true true fuel r.skip
    | t :: _ => .ok (emptyScalar t.line, r)
termination_by structural fuel _ => fuel

/-- Reads the entries of a flow sequence up to its end. -/
def readFlowItems (first : Bool) (start : Nat) :
    Nat → Reading → Except Fault (List Node × Reading)
  | 0, r => .error r.fault
  | fuel + 1, r =>
    if r.isAny [.flowSequenceEnd] then .ok ([], r.skip)
    else do
      let r ← readComma first start .missingCommaOrBracket r
      match r.tokens with
      | [] => .error r.fault
      | ⟨.flowSequenceEnd, _⟩ :: _ => .ok ([], r.skip)
      | ⟨.key, line⟩ :: _ =>
        let (k, v, r) ← readFlowPair fuel r.skip
        let (items, r) ← readFlowItems false start fuel r
        return (.mapping (line + 1) .map [(k, v)] :: items, r)
      | _ =>
        let (n, r) ← readNode false false fuel r
        let (items, r) ← readFlowItems false start fuel r
        return (n :: items, r)
termination_by structural fuel _ => fuel

/-- Reads the key and the value of a single pair in a flow sequence. -/
def readFlowPair : Nat → Reading → Except Fault (Node × Node × Reading)
  | 0, r => .error r.fault
  | fuel + 1, r => do
    let (k, r) ←
      if r.isAny [.value, .flowEntry, .flowSequenceEnd] then do
        let line ← r.line
        pure (emptyScalar line, r.skip)
      else readNode false false fuel r
    let afterMark := if r.isAny [.value] then r.skip else r
    let line ← afterMark.line
    if !r.isAny [.value] || afterMark.isAny [.flowEntry, .flowSequenceEnd] then
      return (k, emptyScalar line, afterMark)
    else
      let (v, r) ← readNode false false fuel afterMark
      return (k, v, r)
termination_by structural fuel _ => fuel

/-- Reads the members of a flow mapping up to its end. -/
def readFlowMembers (first : Bool) (start : Nat) :
    Nat → Reading → Except Fault (List (Node × Node) × Reading)
  | 0, r => .error r.fault
  | fuel + 1, r =>
    if r.isAny [.flowMappingEnd] then .ok ([], r.skip)
    else do
      let r ← readComma first start .missingCommaOrBrace r
      match r.tokens with
      | [] => .error r.fault
      | ⟨.flowMappingEnd, _⟩ :: _ => .ok ([], r.skip)
      | ⟨.key, _⟩ :: _ =>
        let (k, v, r) ← readFlowKeyed fuel r.skip
        let (members, r) ← readFlowMembers false start fuel r
        return ((k, v) :: members, r)
      | _ =>
        let (k, r) ← readNode false false fuel r
        let line ← r.line
        let (members, r) ← readFlowMembers false start fuel r
        return ((k, emptyScalar line) :: members, r)
termination_by structural fuel _ => fuel

/-- Reads a key and its value in a flow mapping, after the key mark. -/
def readFlowKeyed : Nat → Reading → Except Fault (Node × Node × Reading)
  | 0, r => .error r.fault
  | fuel + 1, r => do
    let (k, r) ←
      if r.isAny [.value, .flowEntry, .flowMappingEnd] then do
        let line ← r.line
        pure (emptyScalar line, r)
      else readNode false false fuel r
    let afterMark := if r.isAny [.value] then r.skip else r
    let line ← afterMark.line
    if !r.isAny [.value] || afterMark.isAny [.flowEntry, .flowMappingEnd] then
      return (k, emptyScalar line, afterMark)
    else
      let (v, r) ← readNode false false fuel afterMark
      return (k, v, r)
termination_by structural fuel _ => fuel

end

def standardHandles : List (String × String) := [("!", "!"), ("!!", Tag.standard)]

/-- Reads the directives in front of a document: the tag handles they declare. Only one
version directive is allowed, for the version 1.1, and a handle is declared once. -/
def readDirectives : Nat → Bool → List (String × String) → List Token →
    Except Fault (List (String × String) × List Token)
  | 0, _, handles, tokens => .ok (handles, tokens)
  | fuel + 1, versioned, handles, tokens =>
    match tokens with
    | ⟨.versionDirective major minor, line⟩ :: rest =>
      if versioned then .error (.ofTokens 0 line .repeatedVersion)
      else if major != 1 || minor != 1 then .error (.ofTokens 0 line .wrongVersion)
      else readDirectives fuel true handles rest
    | ⟨.tagDirective handle uri, line⟩ :: rest =>
      if (handles.lookup handle).isSome then .error (.ofTokens 0 line .repeatedHandle)
      else readDirectives fuel versioned ((handle, uri) :: handles) rest
    | _ => .ok (handles, tokens)

/-- What a text holds: no document, or the root of its first document. -/
inductive Document where
  | empty
  | root (node : Node)
  deriving Repr

/-- Reads the content of a document and asks that something ends it. -/
def readRoot (explicit : Bool) (r : Reading) : Except Fault Document :=
  match r.tokens with
  | [] => .error r.fault
  | t :: _ =>
    let isEmpty := explicit && match t.kind with
      | .documentStart => true
      | .documentEnd => true
      | .streamEnd => true
      | .versionDirective _ _ => true
      | .tagDirective _ _ => true
      | _ => false
    if isEmpty then .ok (.root (emptyScalar t.line))
    else
      match readNode true false (4 * r.tokens.length + 8) r with
      | .ok (n, r) => if r.tokens.isEmpty then .error r.fault else .ok (.root n)
      | .error e => .error e

def parse (text : String) : Except Fault Document :=
  let scanned := scan text
  let fault := scanned.fault.getD (.plain .endOfText)
  let reading := fun handles tokens => Reading.mk tokens [] (handles ++ standardHandles) fault
  match scanned.tokens with
  | [] => .error fault
  | t :: rest =>
    match t.kind with
    | .streamEnd => .ok .empty
    | .documentStart => readRoot true (reading [] rest)
    | .versionDirective _ _ | .tagDirective _ _ =>
      match readDirectives scanned.tokens.length false [] scanned.tokens with
      | .error e => .error e
      | .ok (handles, ⟨.documentStart, _⟩ :: rest) => readRoot true (reading handles rest)
      | .ok (_, t :: _) => .error (.ofTokens 0 t.line .missingDocumentStart)
      | .ok (_, []) => .error fault
    | _ => readRoot false (reading [] scanned.tokens)

end Stepwise.Yaml
