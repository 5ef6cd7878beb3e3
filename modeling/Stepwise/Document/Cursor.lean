import Stepwise.Keyword.Lexicon
import Stepwise.Step.Placeholder
import Stepwise.Text.Line

/-!
# The cursor on a line

What a completion offers depends on where the cursor stands on its line: inside a
placeholder, before the end of the content, after a step keyword, or on a line
that no keyword identifies. The first of these that applies wins.
-/
namespace Stepwise

inductive Cursor where
  | inPlaceholder (p : Step.Placeholder)
  | midLine
  | afterKeyword (k : Keyword)
  | topLevel
  deriving DecidableEq, Repr

def Cursor.on (lexicon : Lexicon) (line : String) (column : Int) : Cursor :=
  match Step.placeholderAt? line column with
  | some p => .inPlaceholder p
  | none =>
    let stop := Text.maxColumn line
    if stop != 0 && column < (stop : Int) then .midLine
    else match lexicon.find? (Text.words line) with
      | some k => .afterKeyword k
      | none => .topLevel

end Stepwise
