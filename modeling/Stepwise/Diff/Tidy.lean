import Stepwise.Diff.Edit
import Stepwise.Number.Power

/-!
# Tidying an edit script

Two passes bring a script into a plain form. The first joins neighbouring pieces
of one sort and moves what a deletion and an insertion have in common into the
kept pieces around them. The second slides a single edit over a neighbouring kept
piece when that makes the piece disappear. The passes repeat until the second one
changes nothing.
-/
namespace Stepwise.Diff

/-- The deletions and insertions seen since the last kept piece, and how many pieces
of each sort there were. -/
structure Pending where
  deletes : Nat
  inserts : Nat
  deleted : List Char
  inserted : List Char
  deriving DecidableEq, Repr

namespace Pending

def none : Pending := ⟨0, 0, [], []⟩

end Pending

/-- Adds a kept piece to a reversed script, joining it to a kept piece before it. -/
def pushKeep (t : List Char) : List Edit → List Edit
  | .keep s :: done => .keep (s ++ t) :: done
  | done => .keep t :: done

/-- Adds the pending edits and then the kept piece `t` to a reversed script. What the
edits have in common at their start joins the kept piece before them, and at their
end the kept piece after them. -/
def flush (p : Pending) (t : List Char) (done : List Edit) : List Edit :=
  if p.deletes == 0 && p.inserts == 0 then pushKeep t done
  else if p.deletes == 0 then .keep t :: .insert p.inserted :: done
  else if p.inserts == 0 then .keep t :: .delete p.deleted :: done
  else
    let start := commonStart p.inserted p.deleted
    let done := if start.isEmpty then done else pushKeep start done
    let inserted := p.inserted.drop start.length
    let deleted := p.deleted.drop start.length
    let ending := commonEnd inserted deleted
    let inserted := inserted.take (inserted.length - ending.length)
    let deleted := deleted.take (deleted.length - ending.length)
    .keep (ending ++ t) :: .insert inserted :: .delete deleted :: done

/-- The first pass over a script that ends in a kept piece; the result is reversed. -/
def joinFrom (p : Pending) (done : List Edit) : List Edit → List Edit
  | [] => done
  | .insert t :: rest =>
    joinFrom { p with inserts := p.inserts + 1, inserted := p.inserted ++ t } done rest
  | .delete t :: rest =>
    joinFrom { p with deletes := p.deletes + 1, deleted := p.deleted ++ t } done rest
  | .keep t :: rest => joinFrom .none (flush p t done) rest

/-- Drops a last piece without characters from a reversed script. -/
def dropEmptyLast : List Edit → List Edit
  | e :: done => if e.text.isEmpty then done else e :: done
  | [] => []

/-- The first pass. -/
def joinPieces (script : List Edit) : List Edit :=
  (dropEmptyLast (joinFrom .none [] (script ++ [.keep []]))).reverse

/-- The text before an ending, when the text has that ending. -/
def beforeEnd? (ending t : List Char) : Option (List Char) :=
  (ending.reverse.isPrefixOf? t.reverse).map List.reverse

/-- The second pass, from a piece `prev` on: the new script, and whether anything
changed. -/
def slideFrom (prev : Edit) : List Edit → List Edit × Bool
  | cur :: next :: rest =>
    if prev.isKeep && next.isKeep then
      match beforeEnd? prev.text cur.text with
      | some front =>
        let (script, _) := slideFrom (.keep (prev.text ++ next.text)) rest
        (cur.withText (prev.text ++ front) :: script, true)
      | none =>
        match next.text.isPrefixOf? cur.text with
        | some back =>
          let (script, _) := slideFrom (cur.withText (back ++ next.text)) rest
          (.keep (prev.text ++ next.text) :: script, true)
        | none =>
          let (script, changed) := slideFrom cur (next :: rest)
          (prev :: script, changed)
    else
      let (script, changed) := slideFrom cur (next :: rest)
      (prev :: script, changed)
  | rest => (prev :: rest, false)

/-- The second pass. -/
def slidePieces : List Edit → List Edit × Bool
  | [] => ([], false)
  | prev :: rest => slideFrom prev rest

/-- Repeats the two passes until the second changes nothing. -/
def tidyWithin : Nat → List Edit → List Edit
  | 0, script => script
  | n + 1, script =>
    let (script, changed) := slidePieces (joinPieces script)
    if changed then tidyWithin n script else script

/-- A script in plain form. Every change removes a kept piece, so the number of
pieces and characters bounds the passes. -/
def tidy (script : List Edit) : List Edit :=
  tidyWithin (script.length + 2 * Number.total (script.map (·.text.length)) + 1) script

end Stepwise.Diff
