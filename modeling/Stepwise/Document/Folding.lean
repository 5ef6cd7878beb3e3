import Stepwise.Configuration.Basic
import Stepwise.Document.Basic
import Stepwise.Text.Line

/-!
# Folding

A heading folds up to the last line with content before the next heading. A metatag
folds the lines indented deeper that follow it, unless a heading already folds its
first or last line. Positions count from 0 inside this module; a fold counts lines
from 1.
-/
namespace Stepwise

/-- A stretch of lines that can be collapsed, both ends included. -/
structure Fold where
  start : Nat
  stop : Nat
  deriving DecidableEq, Repr

namespace Fold

/-- Whether a line lies in a fold. -/
def covers (f : Fold) (line : Nat) : Bool :=
  f.start ≤ line && line ≤ f.stop

/-- The fold between two positions. -/
def ofPositions (start stop : Nat) : Fold :=
  ⟨start + 1, stop + 1⟩

end Fold

namespace Document

def headings (c : Configuration) (d : Document) : List Nat :=
  ((d.lines.mapIdx fun i line => (i, line)).filter fun e =>
    (c.lexicon.findHeader? e.2).isSome).map (·.1)

/-- The last position before `limit` and after `start` whose line has content, or
`start` when there is none. -/
def lastContent (d : Document) (start : Nat) : Nat → Nat
  | 0 => start
  | limit + 1 =>
    if limit ≤ start then start
    else if Text.maxColumn (d.lines.getD limit "") != 0 then limit
    else lastContent d start limit

/-- The folds of headings at given positions. -/
def headingFolds (d : Document) : List Nat → List Fold
  | [] => []
  | start :: rest =>
    let stop := d.lastContent start (rest.headD d.lineCount)
    if start < stop then .ofPositions start stop :: headingFolds d rest
    else headingFolds d rest

/-- The last position of the lines from `position` on that are indented deeper than
`indent`; blank lines between them do not end the block. `stop` is the last one so
far. -/
def blockEnd (indent : Nat) (stop position : Nat) : List String → Nat
  | [] => stop
  | line :: rest =>
    let column := Text.minColumn line
    if column = 0 then blockEnd indent stop (position + 1) rest
    else if column ≤ indent then stop
    else blockEnd indent position (position + 1) rest

/-- The folds of metatag blocks from a position on. `free` is the first position that no
earlier block takes. -/
def metatagFolds (c : Configuration) (covered : Nat → Bool) (free position : Nat) :
    List String → List Fold
  | [] => []
  | line :: rest =>
    if position < free || !c.isMetatag line || covered (position + 1) then
      metatagFolds c covered free (position + 1) rest
    else
      let stop := blockEnd (Text.minColumn line) position (position + 1) rest
      if stop ≤ position || covered (stop + 1) then
        metatagFolds c covered free (position + 1) rest
      else .ofPositions position stop :: metatagFolds c covered (stop + 1) (position + 1) rest

/-- All folds in the order of their first lines. -/
def folds (c : Configuration) (d : Document) : List Fold :=
  let headings := d.headingFolds (d.headings c)
  let blocks := metatagFolds c (fun line => headings.any (·.covers line)) 0 0 d.lines
  (headings ++ blocks).mergeSort fun a b => decide (a.start ≤ b.start)

end Document
end Stepwise
