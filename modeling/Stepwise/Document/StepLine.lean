import Stepwise.Configuration.Basic
import Stepwise.Document.Span
import Stepwise.Text.Line

/-!
# Step lines

A step line opens with a step keyword. The words after it are the step text, joined
by single spaces.
-/
namespace Stepwise

structure StepLine where
  keyword : Keyword
  text : String
  deriving DecidableEq, Repr

/-- The parts of a line that opens with a step keyword. -/
def StepLine.of? (lexicon : Lexicon) (line : String) : Option StepLine :=
  let words := Text.words line
  (lexicon.find? words).map fun k => ⟨k, Text.joinWords (words.drop k.size)⟩

/-- The step that a line invokes. A line with nothing after its keyword invokes none. -/
def Configuration.invokedStep? (c : Configuration) (line : String) : Option StepDefinition :=
  match StepLine.of? c.lexicon line with
  | some s => if s.text.isEmpty then none else c.findStep? s.text
  | none => none

/-- The content of a line, or an empty span at a column when there is none. -/
def Span.ofContent (line : String) (lineNumber column : Int) : Span :=
  let orColumn := fun n : Nat => if n = 0 then column else (n : Int)
  .onLine lineNumber (orColumn (Text.minColumn line)) (orColumn (Text.maxColumn line))

end Stepwise
