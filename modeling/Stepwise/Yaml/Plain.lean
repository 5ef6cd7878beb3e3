import Stepwise.Yaml.Fault
import Stepwise.Yaml.Gap

/-!
# Plain scalars

A plain scalar runs over words and gaps until something that cannot belong to it:
a comment, a document mark, a colon before a blank, a flow indicator inside a flow
collection, or a line that is not indented enough.
-/
namespace Stepwise.Yaml

/-- Characters that end a plain scalar inside a flow collection. -/
def endsFlowPlain (c : Char) : Bool :=
  c == ',' || c == '?' || c == '[' || c == ']' || c == '\x7b' || c == '\x7d'

/-- Whether a plain scalar ends before the next character. -/
def endsPlain (inFlow : Bool) (i : Input) : Bool :=
  match i.next? with
  | none => true
  | some c =>
    isBlank c || isBreak c || (c == ':' && isBlankOrEnd (i.ahead? 1)) || (inFlow && endsFlowPlain c)

/-- Reads the characters of one word, in reverse. -/
def readPlainWord (inFlow : Bool) : Nat → List Char → Input → List Char × Input
  | 0, acc, i => (acc, i)
  | fuel + 1, acc, i =>
    if endsPlain inFlow i then (acc, i)
    else match i.next? with
      | some c => readPlainWord inFlow fuel (c :: acc) i.skip
      | none => (acc, i)

/-- Reads a plain scalar: its text, whether a line break follows it, and the rest. `start`
is the line it starts on. -/
def readPlainFrom (inFlow : Bool) (indent start : Nat) :
    Nat → List Char → Gap → Input → Except Fault (List Char × Bool × Input)
  | 0, acc, g, i => .ok (acc.reverse, g.broken, i)
  | fuel + 1, acc, g, i =>
    if i.isAtDocumentMark || i.isAt '#' then .ok (acc.reverse, g.broken, i)
    else
      let (acc, g, i) :=
        if endsPlain inFlow i then (acc, g, i)
        else
          let (acc, i) := readPlainWord inFlow i.rest.length (g.text.reverse ++ acc) i
          (acc, Gap.none, i)
      match i.next? with
      | none => .ok (acc.reverse, g.broken, i)
      | some c =>
        if isBlank c || isBreak c then
          match readGap indent i.rest.length g i with
          | .error place => .error (.ofScan start place.line .tabInIndentation)
          | .ok (g, i) =>
            if !inFlow && i.mark.column < indent then .ok (acc.reverse, g.broken, i)
            else readPlainFrom inFlow indent start fuel acc g i
        else .ok (acc.reverse, g.broken, i)

/-- Reads a plain scalar that must be indented at least to column `indent`. -/
def readPlain (inFlow : Bool) (indent : Nat) (i : Input) :
    Except Fault (String × Bool × Input) :=
  (readPlainFrom inFlow indent i.mark.line (i.rest.length + 1) [] .none i).map fun (text, broken, i) =>
    (String.ofList text, broken, i)

end Stepwise.Yaml
