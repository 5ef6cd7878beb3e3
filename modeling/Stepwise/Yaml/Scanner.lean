import Stepwise.Yaml.Token
import Stepwise.Yaml.Plain
import Stepwise.Yaml.Block
import Stepwise.Yaml.Properties

/-!
# From text to tokens

The scanner turns indentation into block tokens and decides which scalars are
keys. A key without its own mark is known only when the colon after it is read, so
the scanner remembers, for each level of flow collections, the place where such a
key may have started, and puts the key token in front of it afterwards. The colon
must follow on the same line within 1024 characters.
-/
namespace Stepwise.Yaml

/-- A place where a key may have started. In block context at the indentation of the
block it must be one. -/
structure PossibleKey where
  required : Bool
  position : Nat
  mark : Mark
  deriving DecidableEq, Repr

structure Scanner where
  input : Input
  tokens : Array Token
  flow : Nat
  indent : Int
  outer : List Int
  keyAllowed : Bool
  keys : List (Option PossibleKey)

def maxDepth : Nat := 10000

/-- The greatest number of characters from the start of a key to its colon. -/
def maxKeyLength : Nat := 1024

namespace Scanner

def start (text : List Char) : Scanner :=
  ⟨.ofText text, #[], 0, -1, [], true, [none]⟩

/-- Adds a token that starts at a place. -/
def push (s : Scanner) (kind : TokenKind) (mark : Mark) : Scanner :=
  { s with tokens := s.tokens.push ⟨kind, mark.line⟩ }

/-- Puts a token in front of the token at a position. -/
def insert (s : Scanner) (position : Nat) (kind : TokenKind) (mark : Mark) : Scanner :=
  { s with tokens := s.tokens.insertIdxIfInBounds position ⟨kind, mark.line⟩ }

/-- The place where a key may have started at the current level. -/
def currentKey (s : Scanner) : Option PossibleKey :=
  match s.keys with
  | k :: _ => k
  | [] => none

/-- Replaces the possible key of the current level. -/
def setKey (s : Scanner) (k : Option PossibleKey) : Scanner :=
  { s with keys := k :: s.keys.drop 1 }

def fault (s : Scanner) (problem : Problem) : Fault :=
  .ofScan s.input.mark.line s.input.mark.line problem

/-- The fault of a key without its colon. -/
def keyFault (s : Scanner) (k : PossibleKey) : Fault :=
  .ofScan k.mark.line s.input.mark.line .missingColon

/-- The fault of too many levels. -/
def depthFault (s : Scanner) : Fault :=
  .ofScan ((s.currentKey.map (·.mark.line)).getD 0) s.input.mark.line (.tooDeep maxDepth)

/-- Gives up the possible key of the current level; a required one is an error. -/
def dropKey (s : Scanner) : Except Fault Scanner :=
  match s.currentKey with
  | some k => if k.required then .error (s.keyFault k) else .ok (s.setKey none)
  | none => .ok s

/-- Remembers that a key may start here, if one is allowed. -/
def saveKey (s : Scanner) : Except Fault Scanner :=
  if s.keyAllowed then do
    let s ← s.dropKey
    let required := s.flow == 0 && s.indent == (s.input.mark.column : Int)
    return s.setKey (some ⟨required, s.tokens.size, s.input.mark⟩)
  else .ok s

/-- Whether too much text lies between a possible key and the current place. -/
def isStale (s : Scanner) (k : PossibleKey) : Bool :=
  k.mark.line < s.input.mark.line || k.mark.index + maxKeyLength < s.input.mark.index

/-- Closes the blocks that are indented more than a column; they end at a place. -/
def unrollTo (column : Int) (mark : Mark) : List Int → Scanner → Scanner
  | [], s => s
  | i :: is, s =>
    if column < s.indent then
      unrollTo column mark is { s.push .blockEnd mark with indent := i, outer := is }
    else s

/-- Closes blocks in block context. -/
def unroll (s : Scanner) (column : Int) (mark : Mark) : Scanner :=
  if s.flow == 0 then unrollTo column mark s.outer s else s

/-- Closes all blocks at the current place. -/
def unrollAll (s : Scanner) : Scanner :=
  s.unroll (-1) s.input.mark

/-- Opens a block at a column, unless one is open there; its token goes in front of the
token at `position`, or to the end. -/
def roll (s : Scanner) (column : Nat) (position : Option Nat) (kind : TokenKind) (mark : Mark) :
    Except Fault Scanner :=
  if s.flow == 0 && s.indent < (column : Int) then
    let s := { s with outer := s.indent :: s.outer, indent := column }
    if maxDepth < s.outer.length then .error s.depthFault
    else .ok (match position with
      | some p => s.insert p kind mark
      | none => s.push kind mark)
  else .ok s

/-- Passes a comment and the comment lines that directly follow it. -/
def skipComments : Nat → Input → Input
  | 0, i => i
  | fuel + 1, i =>
    let i := i.skipLineRest
    let gap := (i.rest.takeWhile fun c => isBlank c || isBreak c).length
    match readGap 0 gap .none i with
    | .ok (_, j) => if j.isAt '#' && gap < 512 then skipComments fuel j else i
    | .error _ => i

/-- Passes blanks, comments and line breaks up to the next token. In block context a
new line allows a key; a tab is passed only where no key may start. -/
def skipToToken : Nat → Scanner → Scanner
  | 0, s => s
  | fuel + 1, s =>
    let tabs := 0 < s.flow || !s.keyAllowed
    let i := s.input.skipWhile fun c => c == ' ' || (tabs && c == '\t')
    let i := if i.isAt '#' then skipComments i.rest.length i else i
    match i.next? with
    | some c =>
      if isBreak c then
        skipToToken fuel
          { s with input := i.skipBreak, keyAllowed := s.keyAllowed || s.flow == 0 }
      else { s with input := i }
    | none => { s with input := i }

/-- Passes a comment on the line of the token just read. -/
def skipLineComment (s : Scanner) : Scanner :=
  let i := s.input.skipWhile isBlank
  if i.isAt '#' then { s with input := i.skipLineRest } else s

/-- The scanner at the end of the text, which is the start of a line. -/
def atEnd (s : Scanner) : Scanner :=
  let mark := s.input.mark
  if mark.column == 0 then s
  else { s with input := ⟨s.input.rest, ⟨mark.index, mark.line + 1, 0⟩⟩ }

def fetchEnd (s : Scanner) : Except Fault Scanner := do
  let s ← s.atEnd.unrollAll.dropKey
  return { s with keyAllowed := false }.push .streamEnd s.input.mark

def fetchDirective (s : Scanner) : Except Fault Scanner := do
  let s ← s.unrollAll.dropKey
  let mark := s.input.mark
  let (directive, i) ← (readDirective s.input).mapError s.fault
  let kind := match directive with
    | .version major minor => TokenKind.versionDirective major minor
    | .tag handle uri => .tagDirective handle uri
  return { s with input := i, keyAllowed := false }.push kind mark

def fetchDocumentMark (s : Scanner) (kind : TokenKind) : Except Fault Scanner := do
  let s ← s.unrollAll.dropKey
  let mark := s.input.mark
  return { s with input := Input.skipMany 3 s.input, keyAllowed := false }.push kind mark

/-- The opening bracket of a flow collection. -/
def fetchFlowStart (s : Scanner) (kind : TokenKind) : Except Fault Scanner := do
  let s ← s.saveKey
  if maxDepth ≤ s.flow then .error s.depthFault
  else
    let mark := s.input.mark
    return { s with
      keys := none :: s.keys
      flow := s.flow + 1
      keyAllowed := true
      input := s.input.skip }.push kind mark

/-- The closing bracket of a flow collection. -/
def fetchFlowEnd (s : Scanner) (kind : TokenKind) : Except Fault Scanner := do
  let s ← s.dropKey
  let mark := s.input.mark
  let s := if 0 < s.flow then { s with flow := s.flow - 1, keys := s.keys.drop 1 } else s
  return { s with keyAllowed := false, input := s.input.skip }.push kind mark

def fetchFlowEntry (s : Scanner) : Except Fault Scanner := do
  let s ← s.dropKey
  let mark := s.input.mark
  return { s with keyAllowed := true, input := s.input.skip }.push .flowEntry mark

/-- The mark of a sequence entry. -/
def fetchBlockEntry (s : Scanner) : Except Fault Scanner := do
  let mark := s.input.mark
  if s.flow == 0 && !s.keyAllowed then .error (s.fault .strayEntry)
  else
    let s ← s.roll mark.column none .blockSequenceStart mark
    let s ← s.dropKey
    return { s with keyAllowed := true, input := s.input.skip }.push .blockEntry mark

def fetchKey (s : Scanner) : Except Fault Scanner := do
  let mark := s.input.mark
  if s.flow == 0 && !s.keyAllowed then .error (s.fault .strayKey)
  else
    let s ← s.roll mark.column none .blockMappingStart mark
    let s ← s.dropKey
    return { s with keyAllowed := s.flow == 0, input := s.input.skip }.push .key mark

/-- A colon after a possible key: the key token goes in front of it. -/
def fetchValueOf (s : Scanner) (k : PossibleKey) : Except Fault Scanner := do
  let mark := s.input.mark
  let s := s.insert k.position .key k.mark
  let s ← s.roll k.mark.column (some k.position) .blockMappingStart k.mark
  return { s.setKey none with keyAllowed := false, input := s.input.skip }.push .value mark

/-- A colon after a key with its own mark, or after none. -/
def fetchLoneValue (s : Scanner) : Except Fault Scanner := do
  let mark := s.input.mark
  if s.flow == 0 && !s.keyAllowed then .error (s.fault .strayValue)
  else
    let s ← s.roll mark.column none .blockMappingStart mark
    return { s with keyAllowed := s.flow == 0, input := s.input.skip }.push .value mark

def fetchValue (s : Scanner) : Except Fault Scanner :=
  match s.currentKey with
  | some k =>
    if s.isStale k then
      if k.required then .error (s.keyFault k) else (s.setKey none).fetchLoneValue
    else s.fetchValueOf k
  | none => s.fetchLoneValue

def fetchAnchor (s : Scanner) (kind : String → TokenKind) : Except Fault Scanner := do
  let s ← s.saveKey
  let mark := s.input.mark
  let (name, i) ← (readAnchor s.input).mapError s.fault
  return { s with keyAllowed := false, input := i }.push (kind name) mark

def fetchTag (s : Scanner) : Except Fault Scanner := do
  let s ← s.saveKey
  let mark := s.input.mark
  let (handle, suffix, i) ← (readTag s.input).mapError s.fault
  return { s with keyAllowed := false, input := i }.push (.tag handle suffix) mark

def fetchBlock (s : Scanner) (literal : Bool) : Except Fault Scanner := do
  let s ← s.dropKey
  let mark := s.input.mark
  let (text, i) ← readBlock literal s.indent s.input
  let style := if literal then Style.literal else .folded
  return { s with keyAllowed := true, input := i }.push (.scalar style text) mark

def fetchQuoted (s : Scanner) (single : Bool) : Except Fault Scanner := do
  let s ← s.saveKey
  let mark := s.input.mark
  let (text, i) ← readQuoted single s.input
  let style := if single then Style.singleQuoted else .doubleQuoted
  return { s with keyAllowed := false, input := i }.push (.scalar style text) mark

/-- A plain scalar. A line break after it allows a key. -/
def fetchPlain (s : Scanner) : Except Fault Scanner := do
  let s ← s.saveKey
  let mark := s.input.mark
  let (text, broken, i) ← readPlain (0 < s.flow) (s.indent + 1).toNat s.input
  let s := { s with keyAllowed := broken, input := i }.push (.scalar .plain text) mark
  return if broken then s else s.skipLineComment

/-- Whether a plain scalar may start with a character that is followed by another. -/
def startsPlain (inFlow : Bool) (c : Char) (next : Option Char) : Bool :=
  if c == '-' then
    match next with
    | some d => !isBlank d
    | none => true
  else if c == '?' || c == ':' then !inFlow && !isBlankOrEnd next
  else !isBlank c && !(",[]\x7b\x7d#&*!|>'\"%@".toList.contains c || c.toNat == 0x60)

/-- Reads the token at the current place, which is not the end. -/
def fetchAt (s : Scanner) (c : Char) : Except Fault Scanner :=
  let next := s.input.ahead? 1
  let inFlow := 0 < s.flow
  if s.input.mark.column == 0 && c == '%' then s.fetchDirective
  else if s.input.isAtMarker '-' then s.fetchDocumentMark .documentStart
  else if s.input.isAtMarker '.' then s.fetchDocumentMark .documentEnd
  else if c == '[' then (s.fetchFlowStart .flowSequenceStart).map skipLineComment
  else if c == '\x7b' then (s.fetchFlowStart .flowMappingStart).map skipLineComment
  else if c == ']' then (s.fetchFlowEnd .flowSequenceEnd).map skipLineComment
  else if c == '\x7d' then (s.fetchFlowEnd .flowMappingEnd).map skipLineComment
  else if c == ',' then s.fetchFlowEntry.map skipLineComment
  else if c == '-' && isBlankOrEnd next then s.fetchBlockEntry
  else if c == '?' && (inFlow || isBlankOrEnd next) then s.fetchKey.map skipLineComment
  else if c == ':' && (inFlow || isBlankOrEnd next) then s.fetchValue.map skipLineComment
  else if c == '*' then (s.fetchAnchor .reference).map skipLineComment
  else if c == '&' then (s.fetchAnchor .anchor).map skipLineComment
  else if c == '!' then s.fetchTag.map skipLineComment
  else if c == '|' && !inFlow then s.fetchBlock true
  else if c == '>' && !inFlow then s.fetchBlock false
  else if c == '\'' then (s.fetchQuoted true).map skipLineComment
  else if c == '"' then (s.fetchQuoted false).map skipLineComment
  else if startsPlain inFlow c next then s.fetchPlain
  else .error (s.fault .strayCharacter)

/-- Reads the next token. Blocks that are left before it end where the token before it
ends. -/
def fetch (s : Scanner) : Except Fault Scanner :=
  let mark := s.input.mark
  let s := skipToToken (s.input.rest.length + 1) s
  let s := s.unroll s.input.mark.column mark
  match s.input.next? with
  | none => s.fetchEnd
  | some c => s.fetchAt c

/-- Whether the last token is the end of the text. -/
def isDone (s : Scanner) : Bool :=
  match s.tokens.back? with
  | some t => t.kind == .streamEnd
  | none => false

/-- Reads tokens until the end or an error: the last good state, and the error. -/
def run : Nat → Scanner → Scanner × Option Fault
  | 0, s => (s, none)
  | fuel + 1, s =>
    if s.isDone then (s, none)
    else match s.fetch with
      | .ok s => run fuel s
      | .error e => (s, some e)

/-- The tokens that can be used. After an error these are the ones before the two last
tokens and before any place where a key may still start, since a token is used only
when two more are known. -/
def usable (s : Scanner) : List Token :=
  if s.isDone then s.tokens.toList
  else
    let open' := s.keys.filterMap fun k =>
      match k with
      | some k => if k.required || !s.isStale k then some k.position else none
      | none => none
    s.tokens.toList.take (open'.foldl min (s.tokens.size - 2))

end Scanner

/-- A text without the byte order mark at its start. -/
def dropByteOrderMark : List Char → List Char
  | c :: cs => if c == '\ufeff' then cs else c :: cs
  | [] => []

/-- The tokens of a text, and what is wrong with it. A text that cannot be read to its
end gives the tokens before the error, without an end token. -/
structure Scan where
  tokens : List Token
  fault : Option Fault

def scan (text : String) : Scan :=
  let cs := dropByteOrderMark text.toList
  if cs.all isAllowed then
    let (s, fault) := Scanner.run (cs.length + 2) (.start cs)
    ⟨s.usable, fault⟩
  else ⟨[], some (.plain .controlCharacter)⟩

end Stepwise.Yaml
