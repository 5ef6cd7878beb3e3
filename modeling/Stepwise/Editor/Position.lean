import Stepwise.Document.Span
import Stepwise.Number.Word

/-!
# Positions of an editor

An editor counts lines and characters from 0, in 32 bits; spans count from 1. The
conversions between the two are here and nowhere else.
-/
namespace Stepwise.Editor

structure Position where
  line : Nat
  character : Nat
  deriving DecidableEq, Repr

/-- The first place of a document. -/
def Position.zero : Position := ⟨0, 0⟩

/-- A number counted from 0 in 32 bits, from one counted from 1. -/
def indexOf (number : Int) : Nat :=
  if number < 1 then 0 else (number - 1).toNat % Number.wordCount32

structure Range where
  start : Position
  stop : Position
  deriving DecidableEq, Repr

namespace Range

/-- The empty range at the first place. -/
def zero : Range := ⟨.zero, .zero⟩

def ofSpan (s : Span) : Range :=
  ⟨⟨indexOf s.startLine, indexOf s.startColumn⟩, ⟨indexOf s.endLine, indexOf s.endColumn⟩⟩

def toSpan (r : Range) : Span :=
  ⟨r.start.line + 1, r.start.character + 1, r.stop.line + 1, r.stop.character + 1⟩

end Range
end Stepwise.Editor
