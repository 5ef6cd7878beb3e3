import Stepwise.Document.Diagnostics
import Stepwise.Document.Folding
import Stepwise.Proofs.BoundedLines

/-!
# Documents are read within bounds

A document is walked line by line: the classes of its lines are written into a list of
its length, flagged lines are read again at the positions of their classes, and folds
are found by going up and down between positions. A line is also asked for by any
number, which may be zero, negative or past the end.

The walks are those of the definitions, with every line read at its position. The one
that differs is the walk over metatags, which goes on after the end of a block instead
of passing over the lines in it.
-/
namespace Stepwise.Bounded

/-- The line with a number, counted from 1, or nothing at all outside the document. -/
def line (d : Document) (number : Int) : Option String :=
  if number < 1 ∨ (d.lineCount : Int) < number then some "" else at? d.lines (number - 1)

theorem line_eq (d : Document) (number : Int) : line d number = some (d.line number) := by
  unfold line Document.line Document.lineCount
  by_cases hlow : number < 1
  · rw [if_pos (.inl hlow), if_pos hlow]
  · rw [if_neg hlow]
    obtain ⟨n, hn⟩ := Int.eq_ofNat_of_zero_le (show 0 ≤ number - 1 by omega)
    have hposition : number.toNat - 1 = n := by omega
    rw [hposition, List.getD_eq_getElem?_getD]
    by_cases hhigh : (d.lines.length : Int) < number
    · rw [if_pos (.inr hhigh), List.getElem?_eq_none (by omega), Option.getD_none]
    · have hlt : n < d.lines.length := by omega
      rw [if_neg (by omega), hn]
      change at? d.lines (n : Nat) = _
      rw [at?_natCast, List.getElem?_eq_getElem hlt, Option.getD_some]

def formOfWords (c : Configuration) (trimmed : String) : Option LineForm := do
  if ← isMetatag c trimmed then return .metatag
  else if ← isImportLine c trimmed then return .importLine
  else match ← findHeader c.lexicon trimmed with
    | some k => return .header k.kind
    | none => return if (← stepLine c.lexicon trimmed).isSome then .step else .free

def form (c : Configuration) (trimmed : String) : Option LineForm :=
  if trimmed.isEmpty then some .blank
  else match Fence.of? trimmed with
    | some f => some (.fence f)
    | none =>
      if Text.startsWith "#" trimmed then some .comment
      else if Text.startsWith "@" trimmed then some .tag
      else if Text.startsWith "|" trimmed then some .table
      else formOfWords c trimmed

/-- The class of a line and the context after it. Free text is looked at for a mistyped
keyword only where it could be description. -/
def classify (c : Configuration) (before : LineContext) (line : String) :
    Option (LineClass × LineContext) :=
  let trimmed := Text.trim line
  match before.fence with
  | some _ => some (before.classify c line)
  | none => do
    match ← form c trimmed with
    | .free =>
      if before.inDescription then
        return if ← opensWithNearMiss c trimmed then (.unknown, before) else (.description, before)
      else return (.unknown, before)
    | found => return before.classifyForm c trimmed found

/-- The class of every line, written into a list of their number. -/
def classes (c : Configuration) (d : Document) : Option (List LineClass) :=
  writeEach? (classify c) d.lines 0 .start (List.replicate d.lineCount .blank)

def marker (c : Configuration) (d : Document) (e : LineClass × Nat) : Option (Option Marker) :=
  match e.1 with
  | .step => do
    let line ← at? d.lines e.2
    if (← invokedStep c line).isSome then return none
    else return some (.flag c.syntaxMessage (e.2 + 1) line)
  | .unknown => do return some (.flag c.syntaxMessage (e.2 + 1) (← at? d.lines e.2))
  | _ => some none

def diagnostics (c : Configuration) (d : Document) : Option (List Marker) := do
  return (← (← classes c d).zipIdx.mapM (marker c d)).filterMap id

def headings (c : Configuration) (d : Document) : Option (List Nat) := do
  let found ← d.lines.zipIdx.mapM fun e => do
    return (← findHeader c.lexicon e.1).map fun _ => e.2
  return found.filterMap id

/-- The last position before `limit` and after `start` whose line has content. -/
def lastContent (d : Document) (start : Nat) : Nat → Option Nat
  | 0 => some start
  | limit + 1 =>
    if limit ≤ start then some start
    else do
      let line ← at? d.lines limit
      if Text.maxColumn line != 0 then return limit else lastContent d start limit

/-- Where the fold of the heading with an index has to end: before the next heading, or
with the document. -/
def foldLimit (d : Document) (headings : List Nat) (index : Nat) : Option Nat :=
  if index + 1 < headings.length then at? headings (index + 1 : Nat) else some d.lineCount

def headingFold (d : Document) (headings : List Nat) (e : Nat × Nat) : Option (Option Fold) := do
  let stop ← lastContent d e.1 (← foldLimit d headings e.2)
  return if e.1 < stop then some (.ofPositions e.1 stop) else none

def headingFolds (d : Document) (headings : List Nat) : Option (List Fold) := do
  return (← headings.zipIdx.mapM (headingFold d headings)).filterMap id

/-- The last of so many lines from a position on that are indented deeper than `indent`. -/
def blockEndFrom (d : Document) (indent stop position : Nat) : Nat → Option Nat
  | 0 => some stop
  | rest + 1 => do
    let column := Text.minColumn (← at? d.lines position)
    if column = 0 then blockEndFrom d indent stop (position + 1) rest
    else if column ≤ indent then some stop
    else blockEndFrom d indent position (position + 1) rest

/-- The end of the block after a position. -/
def blockEnd (d : Document) (start : Nat) : Option Nat := do
  let indent := Text.minColumn (← at? d.lines start)
  blockEndFrom d indent start (start + 1) (d.lineCount - (start + 1))

/-- The folds of metatag blocks from a position on. After a block the walk goes on behind
its end. -/
def blocks (c : Configuration) (d : Document) (covered : Nat → Bool) (position : Nat) :
    Option (List Fold) :=
  if _ : position < d.lineCount then
    (at? d.lines position).bind fun line =>
      (isMetatag c line).bind fun tagged =>
        if !tagged || covered (position + 1) then blocks c d covered (position + 1)
        else (blockEnd d position).bind fun stop =>
          if _ : stop ≤ position || covered (stop + 1) then blocks c d covered (position + 1)
          else (blocks c d covered (stop + 1)).map (.ofPositions position stop :: ·)
  else some []
termination_by d.lineCount - position
decreasing_by
  · omega
  · omega
  · simp only [Bool.or_eq_true, decide_eq_true_eq, not_or] at *
    omega

def folds (c : Configuration) (d : Document) : Option (List Fold) := do
  let headings ← headingFolds d (← headings c d)
  let blocks ← blocks c d (fun line => headings.any (·.covers line)) 0
  return (headings ++ blocks).mergeSort fun a b => decide (a.start ≤ b.start)

section
variable {c : Configuration} (hc : c.Reachable) (hl : c.lexicon.Declared)

include hl in
theorem form_eq (trimmed : String) : form c trimmed = some (LineForm.of c trimmed) := by
  have hwords : formOfWords c trimmed = some (LineForm.ofWords c trimmed) := by
    unfold formOfWords LineForm.ofWords
    simp only [isMetatag_eq, isImportLine_eq, findHeader_eq hl, stepLine_eq hl,
      Option.bind_eq_bind, Option.bind_some]
    cases c.isMetatag trimmed with
    | true => rfl
    | false =>
        cases c.isImportLine trimmed with
        | true => rfl
        | false => cases c.lexicon.findHeader? trimmed <;> rfl
  unfold form LineForm.of
  rw [hwords]
  split
  · rfl
  · cases Fence.of? trimmed with
    | some f => rfl
    | none =>
        dsimp only
        split
        · rfl
        · split
          · rfl
          · split <;> rfl

include hl in
theorem classify_eq (before : LineContext) (line : String) :
    classify c before line = some (before.classify c line) := by
  unfold classify LineContext.classify
  dsimp only
  cases hf : before.fence with
  | some f => rfl
  | none =>
      simp only [form_eq hl, opensWithNearMiss_eq, Option.bind_eq_bind, Option.bind_some]
      cases LineForm.of c (Text.trim line) with
      | free =>
          simp only [LineContext.classifyForm]
          cases before.inDescription with
          | false => rfl
          | true => cases c.opensWithNearMiss (Text.trim line) <;> rfl
      | _ => rfl

theorem results_classify (before : LineContext) (lines : List String) :
    results (LineContext.classify c) before lines = before.classifyAll c lines := by
  induction lines generalizing before with
  | nil => rfl
  | cons line rest ih => rw [results, LineContext.classifyAll, ih]

include hl in
theorem classes_eq (d : Document) : classes c d = some (d.classes c) := by
  have hloop := writeEach?_eq (classify_eq hl) d.lines .start []
    (List.replicate d.lineCount .blank) (by rw [List.length_replicate, Document.lineCount])
  rw [results_classify] at hloop
  exact hloop

theorem length_classifyAll (before : LineContext) (lines : List String) :
    (before.classifyAll c lines).length = lines.length := by
  induction lines generalizing before with
  | nil => rfl
  | cons line rest ih => rw [LineContext.classifyAll, List.length_cons, ih, List.length_cons]

include hc hl in
theorem marker_eq {d : Document} {cls : LineClass} {i : Nat} {line : String}
    (h : d.lines[i]? = some line) :
    marker c d (cls, i) =
      some (if c.accepts cls line then none else some (.flag c.syntaxMessage (i + 1) line)) := by
  unfold marker Configuration.accepts
  cases cls with
  | step =>
      simp only [at?_natCast, h, invokedStep_eq hc hl, Option.bind_eq_bind, Option.bind_some]
      cases (c.invokedStep? line).isSome <;> rfl
  | unknown =>
      simp only [at?_natCast, h, Option.bind_eq_bind, Option.bind_some]
      rfl
  | _ => rfl

/-- A line stands beside its class at the position of that class. -/
theorem classes_zip_numbered (d : Document) :
    (d.classes c).zip d.numbered =
      (d.classes c).zipIdx.map fun e => (e.1, e.2 + 1, d.lines.getD e.2 "") := by
  have hlength : (d.classes c).length = d.lines.length := length_classifyAll _ _
  refine List.ext_getElem ?_ fun i hi _ => ?_
  · simp [Document.numbered, hlength]
  · have hline : i < d.lines.length := by
      rw [List.length_zip] at hi
      omega
    simp [Document.numbered, List.getElem?_eq_getElem hline]

include hc hl in
theorem diagnostics_eq (d : Document) : diagnostics c d = some (d.diagnostics c) := by
  have hlength : (d.classes c).length = d.lines.length := length_classifyAll _ _
  have hmarkers : (d.classes c).zipIdx.mapM (marker c d) =
      some ((d.classes c).zipIdx.map fun e =>
        if c.accepts e.1 (d.lines.getD e.2 "") then none
        else some (.flag c.syntaxMessage (e.2 + 1) (d.lines.getD e.2 ""))) := by
    refine mapM_eq_some_map fun e he => ?_
    have hi : e.2 < d.lines.length := by
      have := List.snd_lt_of_mem_zipIdx he
      omega
    have hline := List.getElem?_eq_getElem hi
    rw [List.getD_eq_getElem?_getD, hline, Option.getD_some]
    exact marker_eq hc hl hline
  unfold diagnostics
  rw [classes_eq hl]
  simp only [Option.bind_eq_bind, Option.bind_some, hmarkers]
  rw [Document.diagnostics, classes_zip_numbered, List.filterMap_map, List.filterMap_map]
  rfl

theorem headings_eq (hl : c.lexicon.Declared) (d : Document) :
    headings c d = some (d.headings c) := by
  have hround : ∀ e ∈ d.lines.zipIdx,
      (do return (← findHeader c.lexicon e.1).map fun _ => e.2 : Option (Option Nat)) =
        some ((c.lexicon.findHeader? e.1).map fun _ => e.2) := by
    intro e _
    rw [findHeader_eq hl]
    rfl
  have hfilter : ∀ lines : List (String × Nat),
      (lines.map fun e => (c.lexicon.findHeader? e.1).map fun _ => e.2).filterMap id =
        ((lines.map fun e => (e.2, e.1)).filter fun e =>
          (c.lexicon.findHeader? e.2).isSome).map (·.1) := by
    intro lines
    induction lines with
    | nil => rfl
    | cons e lines ih =>
        simp only [List.map_cons, List.filter_cons, List.filterMap_cons, ih]
        cases c.lexicon.findHeader? e.1 <;> rfl
  unfold headings
  rw [mapM_eq_some_map hround, Document.headings, List.mapIdx_eq_zipIdx_map, ← hfilter]
  rfl

theorem lastContent_eq (d : Document) (start : Nat) {limit : Nat} (h : limit ≤ d.lineCount) :
    lastContent d start limit = some (d.lastContent start limit) := by
  induction limit with
  | zero => rfl
  | succ limit ih =>
      have hline : d.lines[limit]? = some (d.lines.getD limit "") := by
        rw [List.getD_eq_getElem?_getD, List.getElem?_eq_getElem h, Option.getD_some]
      unfold lastContent Document.lastContent
      split
      · rfl
      · simp only [at?_natCast, hline, Option.bind_eq_bind, Option.bind_some]
        split
        · rfl
        · exact ih (Nat.le_of_succ_le h)

/-- The folds of headings that are positions of lines. -/
theorem headingFolds_eq {d : Document} {headings : List Nat}
    (h : ∀ i ∈ headings, i < d.lineCount) :
    headingFolds d headings = some (d.headingFolds headings) := by
  have hloop : ∀ rest passed : List Nat, passed ++ rest = headings →
      ∃ found, (rest.zipIdx passed.length).mapM (headingFold d headings) = some found ∧
        found.filterMap id = d.headingFolds rest := by
    intro rest
    induction rest with
    | nil => exact fun _ _ => ⟨[], rfl, rfl⟩
    | cons start rest ih =>
        intro passed hheadings
        obtain ⟨found, hfound, hfolds⟩ := ih (passed ++ [start])
          (by rw [List.append_assoc, List.singleton_append, hheadings])
        rw [List.length_append, List.length_singleton] at hfound
        -- the next heading, or the end of the document
        have hlimit : foldLimit d headings passed.length = some (rest.headD d.lineCount) := by
          rw [foldLimit, ← hheadings, at?_natCast]
          cases rest with
          | nil => simp
          | cons next rest => simp
        have hle : rest.headD d.lineCount ≤ d.lineCount := by
          cases rest with
          | nil => exact Nat.le_refl _
          | cons next rest =>
              refine Nat.le_of_lt (h next ?_)
              rw [← hheadings]
              simp
        have hfirst : ∃ first, headingFold d headings (start, passed.length) = some first ∧
            first.toList ++ d.headingFolds rest = d.headingFolds (start :: rest) := by
          refine ⟨if start < d.lastContent start (rest.headD d.lineCount) then
            some (.ofPositions start (d.lastContent start (rest.headD d.lineCount))) else none,
            ?_, ?_⟩
          · unfold headingFold
            simp only [hlimit, lastContent_eq d start hle, Option.bind_eq_bind, Option.bind_some]
            rfl
          · rw [Document.headingFolds]
            split <;> rfl
        obtain ⟨first, hfirst, hsum⟩ := hfirst
        refine ⟨first :: found, ?_, ?_⟩
        · rw [List.zipIdx_cons, List.mapM_cons, hfirst, hfound]
          rfl
        · rw [← hsum, ← hfolds]
          cases first <;> rfl
  obtain ⟨found, hfound, hfolds⟩ := hloop headings [] rfl
  unfold headingFolds
  rw [List.length_nil] at hfound
  rw [hfound, ← hfolds]
  rfl

theorem blockEndFrom_eq (d : Document) (indent stop position rest : Nat)
    (h : position + rest = d.lineCount) :
    blockEndFrom d indent stop position rest =
      some (Document.blockEnd indent stop position (d.lines.drop position)) := by
  induction rest generalizing stop position with
  | zero =>
      rw [List.drop_of_length_le (by rw [Document.lineCount] at h; omega)]
      rfl
  | succ rest ih =>
      have hposition : position < d.lines.length := by
        rw [Document.lineCount] at h
        omega
      have hnext : position + 1 + rest = d.lineCount := by omega
      rw [List.drop_eq_getElem_cons hposition]
      unfold blockEndFrom Document.blockEnd
      simp only [at?_natCast, List.getElem?_eq_getElem hposition, Option.bind_eq_bind,
        Option.bind_some]
      split
      · exact ih stop (position + 1) hnext
      · split
        · rfl
        · exact ih position (position + 1) hnext

theorem blockEnd_eq {d : Document} {position : Nat} {line : String}
    (h : d.lines[position]? = some line) :
    blockEnd d position = some (Document.blockEnd (Text.minColumn line) position (position + 1)
      (d.lines.drop (position + 1))) := by
  have hlt : position < d.lineCount := (List.getElem?_eq_some_iff.mp h).1
  unfold blockEnd
  simp only [at?_natCast, h, Option.bind_eq_bind, Option.bind_some]
  exact blockEndFrom_eq d _ position (position + 1) _ (by omega)

/-- Lines before the first free position are passed over. -/
theorem metatagFolds_skip (c : Configuration) (covered : Nat → Bool) (lines : List String)
    {free position : Nat} (h : position ≤ free) :
    Document.metatagFolds c covered free position (lines.drop position) =
      Document.metatagFolds c covered free free (lines.drop free) := by
  induction hn : free - position generalizing position with
  | zero =>
      have : position = free := by omega
      rw [this]
  | succ n ih =>
      have hlt : position < free := by omega
      by_cases hend : position < lines.length
      · rw [List.drop_eq_getElem_cons hend, Document.metatagFolds]
        simp only [hlt, decide_true, Bool.true_or, if_true]
        exact ih hlt (by omega)
      · rw [List.drop_of_length_le (by omega), List.drop_of_length_le (by omega)]
        rfl

theorem blocks_eq (c : Configuration) (d : Document) (covered : Nat → Bool) (free position : Nat)
    (h : free ≤ position) :
    blocks c d covered position =
      some (Document.metatagFolds c covered free position (d.lines.drop position)) := by
  -- on the number of lines left, as the walk may go on anywhere behind a block
  induction hn : d.lineCount - position using Nat.strongRecOn generalizing free position with
  | ind n ih =>
      rw [blocks]
      by_cases hend : position < d.lineCount
      · obtain ⟨line, hline⟩ : ∃ line, d.lines[position]? = some line :=
          ⟨_, List.getElem?_eq_getElem hend⟩
        have hdrop : d.lines.drop position = line :: d.lines.drop (position + 1) := by
          rw [List.drop_eq_getElem?_toList_append, hline]
          rfl
        have hnext := ih (d.lineCount - (position + 1)) (by omega) free (position + 1)
          (by omega) rfl
        rw [dif_pos hend, at?_natCast, hline, Option.bind_some, isMetatag_eq, Option.bind_some,
          hdrop, Document.metatagFolds, decide_eq_false (Nat.not_lt.mpr h), Bool.false_or]
        split
        · exact hnext
        · rw [blockEnd_eq hline, Option.bind_some]
          dsimp only
          generalize hstop : Document.blockEnd (Text.minColumn line) position (position + 1)
            (d.lines.drop (position + 1)) = stop
          split
          · exact hnext
          · rename_i hs
            have hlt : position < stop := by
              simp only [Bool.or_eq_true, decide_eq_true_eq, not_or] at hs
              omega
            have hafter := ih (d.lineCount - (stop + 1)) (by omega) (stop + 1) (stop + 1)
              (Nat.le_refl _) rfl
            have hskip := metatagFolds_skip c covered d.lines (Nat.succ_le_succ (Nat.le_of_lt hlt))
            rw [hafter, Option.map_some, hskip]
      · rw [dif_neg hend, List.drop_of_length_le (Nat.not_lt.mp hend)]
        rfl

theorem folds_eq (hl : c.lexicon.Declared) (d : Document) : folds c d = some (d.folds c) := by
  have hpositions : ∀ i ∈ d.headings c, i < d.lineCount := by
    intro i hi
    rw [Document.headings, List.mapIdx_eq_zipIdx_map] at hi
    obtain ⟨e, he, rfl⟩ := List.mem_map.mp hi
    obtain ⟨f, hf, rfl⟩ := List.mem_map.mp (List.mem_of_mem_filter he)
    exact List.snd_lt_of_mem_zipIdx hf
  unfold folds Document.folds
  rw [headings_eq hl]
  simp only [Option.bind_eq_bind, Option.bind_some, headingFolds_eq hpositions]
  rw [blocks_eq c d _ 0 0 (Nat.le_refl 0), List.drop_zero]
  rfl

end

end Stepwise.Bounded
