import Stepwise.Yaml.Fault
import Stepwise.Yaml.Gap

/-!
# Quoted scalars

A single-quoted scalar doubles its quote; a double-quoted one has escapes. In both,
gaps are folded, and a document mark at the start of a line is refused.
-/
namespace Stepwise.Yaml

/-- The character a one-letter escape stands for. -/
def escapeChar? (c : Char) : Option Char :=
  if c == '0' then some '\x00'
  else if c == 'a' then some '\x07'
  else if c == 'b' then some '\x08'
  else if c == 't' || c == '\t' then some '\t'
  else if c == 'n' then some '\n'
  else if c == 'v' then some '\x0b'
  else if c == 'f' then some '\x0c'
  else if c == 'r' then some '\r'
  else if c == 'e' then some '\x1b'
  else if c == ' ' then some ' '
  else if c == '"' then some '"'
  else if c == '\'' then some '\''
  else if c == '\\' then some '\\'
  else if c == 'N' then some '\u0085'
  else if c == '_' then some '\u00a0'
  else if c == 'L' then some '\u2028'
  else if c == 'P' then some '\u2029'
  else none

/-- The number of hexadecimal digits of a numeric escape. -/
def escapeDigits? (c : Char) : Option Nat :=
  if c == 'x' then some 2 else if c == 'u' then some 4 else if c == 'U' then some 8 else none

/-- The character that a number names; halves of surrogate pairs name none. -/
def charOfNumber? (n : Nat) : Option Char :=
  if (0xD800 ≤ n && n ≤ 0xDFFF) || 0x10FFFF < n then none else some (Char.ofNat n)

def readEscape (i : Input) : Except Problem (Char × Input) :=
  match i.next? with
  | none => .error .unknownEscape
  | some c =>
    match escapeDigits? c with
    | some n =>
      let digits := i.skip.rest.take n
      match if digits.length == n then Text.hexNumber? digits else none with
      | none => .error .missingHexDigit
      | some value =>
        match charOfNumber? value with
        | some c => .ok (c, Input.skipMany (n + 1) i)
        | none => .error .badEscapeCode
    | none =>
      match escapeChar? c with
      | some c => .ok (c, i.skip)
      | none => .error .unknownEscape

/-- How the reading of a word of a quoted scalar ends: before a gap or the closing
quote, or at an escaped line break, which has been passed. -/
structure QuotedWord where
  text : List Char
  joined : Bool
  rest : Input

/-- Reads the characters of a quoted scalar up to a blank, a break, the end or the
closing quote; `text` is in reverse. -/
def readQuotedWord (single : Bool) (start : Nat) :
    Nat → List Char → Input → Except Fault QuotedWord
  | 0, acc, i => .ok ⟨acc, false, i⟩
  | fuel + 1, acc, i =>
    match i.next? with
    | none => .ok ⟨acc, false, i⟩
    | some c =>
      if isBlank c || isBreak c then .ok ⟨acc, false, i⟩
      else if single && c == '\'' then
        if i.ahead? 1 == some '\'' then readQuotedWord single start fuel ('\'' :: acc) i.skip.skip
        else .ok ⟨acc, false, i⟩
      else if !single && c == '"' then .ok ⟨acc, false, i⟩
      else if !single && c == '\\' then
        if (i.ahead? 1).any isBreak then .ok ⟨acc, true, i.skip.skipBreak⟩
        else
          match readEscape i.skip with
          | .ok (e, i) => readQuotedWord single start fuel (e :: acc) i
          | .error problem => .error (.ofScan start i.mark.line problem)
      else readQuotedWord single start fuel (c :: acc) i.skip

/-- Reads a quoted scalar after its opening quote, up to and with the closing one.
`start` is the line it starts on. -/
def readQuotedFrom (single : Bool) (start : Nat) :
    Nat → List Char → Input → Except Fault (List Char × Input)
  | 0, _, i => .error (.ofScan start i.mark.line .endOfText)
  | fuel + 1, acc, i =>
    if i.isAtDocumentMark then .error (.ofScan start i.mark.line .documentMark)
    else if i.rest.isEmpty then .error (.ofScan start i.mark.line .endOfText)
    else
      match readQuotedWord single start i.rest.length acc i with
      | .error e => .error e
      | .ok word =>
        if !word.joined && word.rest.isAt (if single then '\'' else '"') then
          .ok (word.text.reverse, word.rest.skip)
        else
          let g := if word.joined then Gap.escaped else Gap.none
          match readGap 0 word.rest.rest.length g word.rest with
          | .error place => .error (.ofScan start place.line .tabInIndentation)
          | .ok (g, i) => readQuotedFrom single start fuel (g.text.reverse ++ word.text) i

/-- Reads a quoted scalar from its opening quote on. -/
def readQuoted (single : Bool) (i : Input) : Except Fault (String × Input) :=
  (readQuotedFrom single i.mark.line (i.rest.length + 1) [] i.skip).map fun (text, i) =>
    (String.ofList text, i)

end Stepwise.Yaml
