import Stepwise.Step.Placeholder
import Stepwise.Text.Casing.Basic
import Stepwise.Number.Literal

/-!
# Step shapes

Two step texts mean the same step when they have the same shape: the text with a
marker for every placeholder and every number, its other words case-folded, and
single spaces between the words.
-/
namespace Stepwise.Step

/-- Stands for a placeholder or a number. -/
def marker : String := "\x00"

/-- Whether a word is a number. Signs in front are dropped, a digit must follow, and a
comma may stand for the decimal point. -/
def isNumber (word : String) : Bool :=
  match word.toList.dropWhile fun c => c == '+' || c == '-' with
  | [] => false
  | c :: cs =>
    c.isDigit &&
      (Number.parseFloat? (String.ofList (pointForComma (c :: cs)))).isSome
where
  /-- Puts a point in place of the first comma. -/
  pointForComma : List Char → List Char
    | [] => []
    | c :: cs => if c == ',' then '.' :: cs else c :: pointForComma cs

def wordShape (word : String) : String :=
  if word == marker || isNumber word then marker else Text.fold word

def shapeWords (text : String) : List String :=
  (Text.words (replacePlaceholders text (" " ++ marker ++ " "))).map wordShape

def shape (text : String) : String :=
  Text.joinWords (shapeWords text)

end Stepwise.Step
