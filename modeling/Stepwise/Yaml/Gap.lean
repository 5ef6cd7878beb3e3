import Stepwise.Yaml.Input

/-!
# Gaps between the words of a scalar

Blanks and line breaks inside a scalar are folded: a single line break becomes a
space, further ones stay, and blanks around a line break are dropped. A gap
records what was passed.
-/
namespace Stepwise.Yaml

/-- The blanks and line breaks between two words. -/
structure Gap where
  blanks : List Char
  firstBreak : List Char
  moreBreaks : List Char
  broken : Bool
  deriving DecidableEq, Repr

namespace Gap

def none : Gap := ⟨[], [], [], false⟩

/-- The gap after an escaped line break, which stands for nothing. -/
def escaped : Gap := ⟨[], [], [], true⟩

def text (g : Gap) : List Char :=
  if g.broken then
    if g.firstBreak.head? == some '\n' then
      if g.moreBreaks.isEmpty then [' '] else g.moreBreaks
    else g.firstBreak ++ g.moreBreaks
  else g.blanks

def addBlank (g : Gap) (c : Char) : Gap :=
  if g.broken then g else { g with blanks := g.blanks ++ [c] }

def addBreak (g : Gap) (text : List Char) : Gap :=
  if g.broken then { g with moreBreaks := g.moreBreaks ++ text }
  else { g with blanks := [], firstBreak := text, broken := true }

end Gap

/-- Reads blanks and line breaks. A tab that stands in the indentation of a broken
line, before column `indent`, is refused; its place is the error. The first argument
bounds the characters read. -/
def readGap (indent : Nat) : Nat → Gap → Input → Except Mark (Gap × Input)
  | 0, g, i => .ok (g, i)
  | fuel + 1, g, i =>
    match i.next? with
    | some c =>
      if isBlank c then
        if g.broken && i.mark.column < indent && c == '\t' then .error i.mark
        else readGap indent fuel (g.addBlank c) i.skip
      else if isBreak c then readGap indent fuel (g.addBreak i.breakText) i.skipBreak
      else .ok (g, i)
    | none => .ok (g, i)

end Stepwise.Yaml
