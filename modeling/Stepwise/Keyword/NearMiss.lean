import Stepwise.Keyword.Lexicon
import Stepwise.Diff.Distance

/-!
# Mistyped keywords

A word is a near miss of a single-word step keyword when few edits separate the
two, few also for the length of the word.
-/
namespace Stepwise.Lexicon

/-- The greatest distance of a near miss. -/
def nearMissLimit : Nat := 2

/-- The distance of a keyword from a case-folded word, if it is a near miss. -/
def missDistance? (folded : String) (k : Keyword) : Option Nat :=
  match k.words with
  | [word] =>
    let d := Diff.distance folded (Text.fold word)
    if d ≤ nearMissLimit && 2 * d < folded.length then some d else none
  | _ => none

/-- The nearest of the keywords, the first of several. -/
def nearest? (folded : String) (keywords : List Keyword) : Option (Keyword × Nat) :=
  keywords.foldl (fun best k =>
    match missDistance? folded k with
    | none => best
    | some d =>
      match best with
      | some (_, d') => if d < d' then some (k, d) else best
      | none => some (k, d)) none

/-- The step keyword that a word most likely was meant to be. -/
def nearMiss? (l : Lexicon) (word : String) : Option Keyword :=
  (nearest? (Text.fold word) l.stepKeywords).map (·.1)

end Stepwise.Lexicon
