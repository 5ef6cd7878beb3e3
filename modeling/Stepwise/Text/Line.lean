import Stepwise.Text.Blank

/-!
# Columns of a line

Columns are 1-indexed and count code points. The content of a line occupies the
half-open column interval `[minColumn, maxColumn)`; both ends are 0 on a blank
line.
-/
namespace Stepwise.Text

/-- The column of the first content character, counted from `column`. -/
def firstContentFrom (column : Nat) : List Char → Nat
  | [] => 0
  | c :: cs => if isBlank c then firstContentFrom (column + 1) cs else column

/-- The column of the first content character, or 0 on a blank line. -/
def minColumn (line : String) : Nat :=
  firstContentFrom 1 line.toList

/-- The column just after the last content character, or 0 on a blank line. -/
def maxColumn (line : String) : Nat :=
  match trimEnd line.toList with
  | [] => 0
  | content => content.length + 1

/-- Splits document text into lines. A final line feed ends the last line and does
not open another, and a carriage return before a line feed belongs to the line
end. The empty text has no lines. -/
def splitLines (content : String) : List String :=
  if content.isEmpty then []
  else
    let pieces := content.toList.splitOnP (· == '\n')
    let pieces :=
      if 1 < pieces.length && pieces.getLast? == some [] then pieces.dropLast else pieces
    pieces.map fun piece =>
      String.ofList (if piece.getLast? == some '\r' then piece.dropLast else piece)

end Stepwise.Text
