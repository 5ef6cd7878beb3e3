import Stepwise.Yaml.Fault
import Stepwise.Yaml.Input

/-!
# Block scalars

A block scalar takes whole indented lines. A literal one keeps its line breaks, a
folded one joins lines that start without a blank. The chomping mark says what
happens to the breaks at the end.
-/
namespace Stepwise.Yaml

/-- What happens to the line breaks at the end of a block scalar. -/
inductive Chomping where
  | strip
  | clip
  | keep
  deriving DecidableEq, Repr

def chomping? (c : Option Char) : Option Chomping :=
  if c == some '+' then some .keep else if c == some '-' then some .strip else none

/-- The indentation mark that a character is; zero is refused later. -/
def increment? (c : Option Char) : Option Nat :=
  match c with
  | some c => if '0' ≤ c && c ≤ '9' then some (c.toNat - 48) else none
  | none => none

/-- Reads the marks after the indicator, in either order: the chomping and the
indentation, 0 when none is given. -/
def readBlockMarks (i : Input) : Except Problem (Chomping × Nat × Input) :=
  match chomping? i.next? with
  | some c =>
    match increment? i.skip.next? with
    | some n => if n == 0 then .error .zeroIndentation else .ok (c, n, i.skip.skip)
    | none => .ok (c, 0, i.skip)
  | none =>
    match increment? i.next? with
    | some n =>
      if n == 0 then .error .zeroIndentation
      else match chomping? i.skip.next? with
        | some c => .ok (c, n, i.skip.skip)
        | none => .ok (.clip, n, i.skip)
    | none => .ok (.clip, 0, i)

/-- Passes the rest of the line of the indicator: blanks and a comment. -/
def skipHeaderRest (i : Input) : Except Problem Input :=
  let i := i.skipWhile isBlank
  let i := if i.isAt '#' then i.skipLineRest else i
  if isBreakOrEnd i.next? then .ok i.skipBreak else .error .missingLineEnd

/-- The lines read so far. -/
structure Margin where
  breaks : List Char
  widest : Nat
  rest : Input

/-- Passes indentation and empty lines. The indentation is at most `indent`, or any
when `indent` is 0; a tab inside it is refused, and its place is the error. -/
def readMargin (indent : Nat) : Nat → Margin → Except Mark Margin
  | 0, m => .ok m
  | fuel + 1, m =>
    let spaces := (m.rest.rest.takeWhile (· == ' ')).length
    let allowed := if indent == 0 then spaces else min spaces (indent - m.rest.mark.column)
    let i := Input.skipMany allowed m.rest
    let widest := max m.widest i.mark.column
    if (indent == 0 || i.mark.column < indent) && i.isAt '\t' then .error i.mark
    else match i.next? with
      | some c =>
        if isBreak c then readMargin indent fuel ⟨m.breaks ++ i.breakText, widest, i.skipBreak⟩
        else .ok ⟨m.breaks, widest, i⟩
      | none => .ok ⟨m.breaks, widest, i⟩

/-- Reads the indented lines: the text in reverse, the last line break, the empty
lines after it, and the rest. `afterBlank` says whether the line before started
with a blank. -/
def readBlockLines (literal : Bool) (indent : Nat) :
    Nat → List Char → List Char → List Char → Bool → Input →
      Except Mark (List Char × List Char × List Char × Input)
  | 0, acc, lead, trail, _, i => .ok (acc, lead, trail, i)
  | fuel + 1, acc, lead, trail, afterBlank, i =>
    match i.next? with
    | none => .ok (acc, lead, trail, i)
    | some c =>
      if i.mark.column != indent then .ok (acc, lead, trail, i)
      else
        let blank := isBlank c
        let joint :=
          if !literal && !afterBlank && !blank && lead.head? == some '\n' then
            if trail.isEmpty then [' '] else []
          else lead
        let (line, i) := i.readWhile fun c => !isBreak c
        let acc := line.reverse ++ trail.reverse ++ joint.reverse ++ acc
        let lead := i.breakText
        let i := if i.rest.isEmpty then i else i.skipBreak
        match readMargin indent (i.rest.length + 1) ⟨[], 0, i⟩ with
        | .error place => .error place
        | .ok m => readBlockLines literal indent fuel acc lead m.breaks blank m.rest

/-- Reads a block scalar from its indicator on. `parent` is the indentation of the
enclosing block, -1 at the top. -/
def readBlock (literal : Bool) (parent : Int) (start : Input) :
    Except Fault (String × Input) := do
  let line := start.mark.line
  let tab := fun place : Mark => Fault.ofScan line place.line .tabForSpace
  let (chomping, increment, i) ← (readBlockMarks start.skip).mapError (.ofScan line line)
  let i ← (skipHeaderRest i).mapError (.ofScan line line)
  let given := if increment == 0 then 0 else (max parent 0).toNat + increment
  let m ← (readMargin given (i.rest.length + 1) ⟨[], 0, i⟩).mapError tab
  let indent :=
    if given == 0 then max (max m.widest (parent + 1).toNat) 1 else given
  let (acc, lead, trail, i) ←
    (readBlockLines literal indent (m.rest.rest.length + 1) [] [] m.breaks false m.rest).mapError tab
  let tail := match chomping with
    | .strip => []
    | .clip => lead
    | .keep => lead ++ trail
  return (String.ofList (acc.reverse ++ tail), i)

end Stepwise.Yaml
