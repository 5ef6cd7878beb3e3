import Mathlib.Tactic.ByContra
import Stepwise.Document.Folding
import Stepwise.Proofs.JoinedWords

/-!
# What folds

A heading owns the lines up to the next heading, and a metatag the run of lines behind it that
are blank or indented deeper. Either folds as far as the last line with content that it owns,
and does not fold when it owns none.

Headings come first: a metatag whose first or last line lies in the fold of a heading does not
fold. The metatags that are left fold one after the other, and one that lies in the fold of an
earlier metatag is passed over. `IsFolding` says all this of a list of folds by the lines of
the document alone. Positions count from 0 and the lines of a fold from 1.
-/
namespace Stepwise

theorem Fold.ofPositions_inj {a b a' b' : Nat} :
    Fold.ofPositions a b = .ofPositions a' b' ↔ a = a' ∧ b = b' := by
  simp [ofPositions]

namespace Document

section
variable (c : Configuration) (d : Document)

def HeadingAt (i : Nat) : Prop :=
  ∃ line, d.lines[i]? = some line ∧ (c.lexicon.findHeader? line).isSome = true

def MetatagAt (i : Nat) : Prop :=
  ∃ line, d.lines[i]? = some line ∧ c.isMetatag line = true

/-- A line that is not blank. Outside the document every line is. -/
def ContentAt (i : Nat) : Prop :=
  Text.trim (d.lines.getD i "") ≠ ""

/-- The column at which the content of a line starts. -/
def columnAt (i : Nat) : Nat :=
  Text.minColumn (d.lines.getD i "")

/-- The lines that a heading owns: those behind it up to the next heading. -/
def InSection (h i : Nat) : Prop :=
  h < i ∧ i < d.lineCount ∧ ∀ k, h < k → k ≤ i → ¬d.HeadingAt c k

/-- The lines that a metatag owns: the longest run behind it of lines that are blank or
indented deeper. -/
def InBlock (m i : Nat) : Prop :=
  m < i ∧ i < d.lineCount ∧ ∀ k, m < k → k ≤ i → ¬d.ContentAt k ∨ d.columnAt m < d.columnAt k

/-- The last line with content among those that a line owns. -/
def EndsAt (owned : Nat → Prop) (e : Nat) : Prop :=
  owned e ∧ d.ContentAt e ∧ ∀ i, owned i → d.ContentAt i → i ≤ e

def HeadingFold (h e : Nat) : Prop :=
  d.HeadingAt c h ∧ d.EndsAt (d.InSection c h) e

def MetatagFold (m e : Nat) : Prop :=
  d.MetatagAt c m ∧ d.EndsAt (d.InBlock m) e

/-- The lines that the folds of headings cover. -/
def InHeadingFold (i : Nat) : Prop :=
  ∃ h e, d.HeadingFold c h e ∧ h ≤ i ∧ i ≤ e

/-- The fold of a metatag whose first and last line no heading folds. -/
def FreeFold (m e : Nat) : Prop :=
  d.MetatagFold c m e ∧ ¬d.InHeadingFold c m ∧ ¬d.InHeadingFold c e

/-- The fold of a metatag that lies in the fold of no earlier one. -/
def BlockFold (m e : Nat) : Prop :=
  d.FreeFold c m e ∧ ∀ m', m' < m → ∀ e', BlockFold m' e' → e' < m
termination_by m

/-- What the folds of a document are. A heading that owns a line with content has one fold,
and every other fold is that of a metatag. -/
structure IsFolding (fs : List Fold) : Prop where
  increasing : fs.Pairwise fun f g => f.start < g.start
  within : ∀ f ∈ fs, 1 ≤ f.start ∧ f.start < f.stop ∧ f.stop ≤ d.lineCount ∧
    d.ContentAt (f.stop - 1)
  headings : ∀ h i, d.HeadingAt c h → d.InSection c h i → d.ContentAt i →
    ∃ e, d.EndsAt (d.InSection c h) e ∧
      fs.filter (fun f => f.start == h + 1) = [.ofPositions h e]
  others : ∀ f ∈ fs, (∀ h e, d.HeadingFold c h e → f ≠ .ofPositions h e) →
    ∃ m e, d.FreeFold c m e ∧ f = .ofPositions m e
  missing : ∀ m e, d.MetatagFold c m e → ¬d.InHeadingFold c m → .ofPositions m e ∉ fs →
    d.InHeadingFold c e ∨
      ∃ m' e', d.FreeFold c m' e' ∧ .ofPositions m' e' ∈ fs ∧ m' < m ∧ m ≤ e'

end

section
variable {c : Configuration} {d : Document} {owned owned' : Nat → Prop}
variable {f : Fold} {h i m m' e e' start stop position : Nat} {line : String}

/-! ## Lines by position -/

theorem columnAt_eq (hline : d.lines[i]? = some line) : d.columnAt i = Text.minColumn line := by
  rw [columnAt, List.getD_eq_getElem?_getD, hline, Option.getD_some]

theorem contentAt_iff_columnAt : d.ContentAt i ↔ d.columnAt i ≠ 0 :=
  Text.minColumn_eq_zero_iff.not.symm

theorem contentAt_iff_maxColumn : d.ContentAt i ↔ Text.maxColumn (d.lines.getD i "") ≠ 0 :=
  Text.maxColumn_eq_zero_iff.not.symm

/-- The first of the lines that are left stands at the position that is reached. -/
theorem line_of_drop {rest : List String} (hlines : d.lines.drop position = line :: rest) :
    d.lines[position]? = some line ∧ d.lines.drop (position + 1) = rest := by
  constructor
  · rw [← Nat.add_zero position, ← List.getElem?_drop, hlines]
    rfl
  · rw [← List.tail_drop, hlines]
    rfl

theorem HeadingAt.lt_lineCount (hi : d.HeadingAt c i) : i < d.lineCount := by
  obtain ⟨line, hline, -⟩ := hi
  exact (List.getElem?_eq_some_iff.mp hline).1

theorem MetatagAt.contentAt (hm : d.MetatagAt c m) : d.ContentAt m := by
  obtain ⟨line, hline, htag⟩ := hm
  rw [ContentAt, List.getD_eq_getElem?_getD, hline, Option.getD_some, Ne,
    ← Text.words_eq_nil_iff]
  intro hwords
  rw [Configuration.isMetatag, hwords] at htag
  cases htag

/-! ## The end of a search for content -/

theorem EndsAt.unique (he : d.EndsAt owned e) (he' : d.EndsAt owned e') : e = e' :=
  Nat.le_antisymm (he'.2.2 e he.1 he.2.1) (he.2.2 e' he'.1 he'.2.1)

variable (d) in
/-- Where a search for the last line with content ends that has not moved when there is none. -/
def Closes (owned : Nat → Prop) (start stop : Nat) : Prop :=
  (stop = start ∧ ∀ i, owned i → ¬d.ContentAt i) ∨ (start < stop ∧ d.EndsAt owned stop)

theorem Closes.endsAt_iff (hstop : d.Closes owned start stop) :
    d.EndsAt owned e ↔ start < stop ∧ e = stop := by
  rcases hstop with ⟨rfl, hnone⟩ | ⟨hlt, hends⟩
  · exact ⟨fun he => absurd he.2.1 (hnone e he.1), fun he => absurd he.1 (Nat.lt_irrefl _)⟩
  · exact ⟨fun he => ⟨hlt, he.unique hends⟩, fun he => he.2 ▸ hends⟩

theorem Closes.of_content (hstop : d.Closes owned start stop) (hi : owned i)
    (hcontent : d.ContentAt i) : d.EndsAt owned stop := by
  rcases hstop with ⟨-, hnone⟩ | ⟨-, hends⟩
  · exact absurd hcontent (hnone i hi)
  · exact hends

/-- Only lines with content matter. -/
theorem Closes.congr (hstop : d.Closes owned start stop)
    (hsame : ∀ i, d.ContentAt i → (owned' i ↔ owned i)) : d.Closes owned' start stop := by
  rcases hstop with ⟨rfl, hnone⟩ | ⟨hlt, howned, hcontent, hlast⟩
  · exact .inl ⟨rfl, fun i hi hcontent => hnone i ((hsame i hcontent).mp hi) hcontent⟩
  · refine .inr ⟨hlt, (hsame stop hcontent).mpr howned, hcontent, fun i hi hcontent => ?_⟩
    exact hlast i ((hsame i hcontent).mp hi) hcontent

theorem closes_lastContent (start limit : Nat) :
    d.Closes (fun i => start < i ∧ i < limit) start (d.lastContent start limit) := by
  induction limit with
  | zero => exact .inl ⟨rfl, fun i hi => absurd hi.2 (Nat.not_lt_zero i)⟩
  | succ limit ih =>
      unfold lastContent
      split
      · exact .inl ⟨rfl, fun i hi => by omega⟩
      split
      · rename_i hcolumn
        have hcontent := contentAt_iff_maxColumn.mpr (bne_iff_ne.mp hcolumn)
        exact .inr ⟨by omega, by omega, hcontent, fun i hi _ => by omega⟩
      · rename_i hcolumn
        refine ih.congr fun i hi => ?_
        have hne : i ≠ limit := by
          rintro rfl
          exact hcolumn (bne_iff_ne.mpr (contentAt_iff_maxColumn.mp hi))
        omega

variable (d) in
/-- The lines from behind `m` up to a position, when they are all blank or indented deeper. -/
def RunsTo (m position : Nat) : Prop :=
  ∀ k, m < k → k < position → ¬d.ContentAt k ∨ d.columnAt m < d.columnAt k

theorem RunsTo.succ (hrun : d.RunsTo m position)
    (hnext : ¬d.ContentAt position ∨ d.columnAt m < d.columnAt position) :
    d.RunsTo m (position + 1) := by
  intro k hk hle
  rcases Nat.lt_succ_iff_lt_or_eq.mp hle with hlt | rfl
  · exact hrun k hk hlt
  · exact hnext

theorem RunsTo.inBlock (hrun : d.RunsTo m (i + 1)) (hafter : m < i) (hin : i < d.lineCount) :
    d.InBlock m i :=
  ⟨hafter, hin, fun k hk hle => hrun k hk (Nat.lt_succ_of_le hle)⟩

/-- The search for the end of a block, from a position on that the run reaches. -/
theorem closes_blockEnd_from {lines : List String} (hlines : d.lines.drop position = lines)
    (hafter : m < position) (hrun : d.RunsTo m position)
    (hstop : d.Closes (fun i => d.InBlock m i ∧ i < position) m stop) :
    d.Closes (d.InBlock m) m (blockEnd (d.columnAt m) stop position lines) := by
  induction lines generalizing position stop with
  | nil =>
      have hend : d.lineCount ≤ position := List.drop_eq_nil_iff.mp hlines
      refine hstop.congr fun i _ => ⟨fun hi => ⟨hi, ?_⟩, fun hi => hi.1⟩
      exact Nat.lt_of_lt_of_le hi.2.1 hend
  | cons line rest ih =>
      obtain ⟨hline, hrest⟩ := line_of_drop hlines
      unfold blockEnd
      dsimp only
      rw [← columnAt_eq hline]
      split
      · rename_i hblank
        have hempty : ¬d.ContentAt position := fun hc => contentAt_iff_columnAt.mp hc hblank
        refine ih hrest (Nat.lt_succ_of_lt hafter) (hrun.succ (.inl hempty)) ?_
        refine hstop.congr fun i hi => and_congr_right fun _ => ?_
        have hne : i ≠ position := fun heq => hempty (heq ▸ hi)
        omega
      rename_i hcolumn
      have hcontent := contentAt_iff_columnAt.mpr hcolumn
      split
      · rename_i hshallow
        refine hstop.congr fun i _ => ⟨fun hi => ⟨hi, ?_⟩, fun hi => hi.1⟩
        by_contra hge
        rcases hi.2.2 position hafter (Nat.le_of_not_lt hge) with hempty | hdeep
        · exact hempty hcontent
        · omega
      · rename_i hdeep
        have hlonger := hrun.succ (.inr (Nat.lt_of_not_le hdeep))
        have hblock := hlonger.inBlock hafter (List.getElem?_eq_some_iff.mp hline).1
        refine ih hrest (Nat.lt_succ_of_lt hafter) hlonger (.inr ⟨hafter, ?_⟩)
        exact ⟨⟨hblock, Nat.lt_succ_self _⟩, hcontent, fun i hi _ => Nat.le_of_lt_succ hi.2⟩

theorem closes_blockEnd (hline : d.lines[m]? = some line) :
    d.Closes (d.InBlock m) m
      (blockEnd (Text.minColumn line) m (m + 1) (d.lines.drop (m + 1))) := by
  rw [← columnAt_eq hline]
  refine closes_blockEnd_from rfl (Nat.lt_succ_self m) (fun k hk hle => by omega) ?_
  exact .inl ⟨rfl, fun i hi => absurd hi.1.1 (by omega)⟩

/-! ## The folds of headings -/

theorem mem_headings_iff {i : Nat} : i ∈ d.headings c ↔
    ∃ line, d.lines[i]? = some line ∧ (c.lexicon.findHeader? line).isSome = true := by
  simp only [headings, List.mem_map, List.mem_filter, List.mem_mapIdx]
  constructor
  · rintro ⟨⟨i, line⟩, ⟨⟨j, hj, heq⟩, hheader⟩, rfl⟩
    cases heq
    exact ⟨_, List.getElem?_eq_getElem hj, hheader⟩
  · rintro ⟨line, hline, hheader⟩
    obtain ⟨hi, rfl⟩ := List.getElem?_eq_some_iff.mp hline
    exact ⟨_, ⟨⟨i, hi, rfl⟩, hheader⟩, rfl⟩

theorem start_of_mem_headingFolds {starts : List Nat} (h : f ∈ d.headingFolds starts) :
    ∃ start ∈ starts, f.start = start + 1 := by
  induction starts with
  | nil => cases h
  | cons start rest ih =>
      have hrest : f ∈ d.headingFolds rest → ∃ start' ∈ start :: rest, f.start = start' + 1 := by
        intro h
        obtain ⟨start', hmem, hstart⟩ := ih h
        exact ⟨start', List.mem_cons_of_mem _ hmem, hstart⟩
      unfold headingFolds at h
      dsimp only at h
      split at h
      · rcases List.mem_cons.mp h with rfl | h
        · exact ⟨start, List.mem_cons_self, rfl⟩
        · exact hrest h
      · exact hrest h

theorem headings_increasing : (d.headings c).Pairwise (· < ·) := by
  rw [headings, List.pairwise_map]
  refine List.Pairwise.filter _ (List.pairwise_iff_getElem.mpr fun i j hi hj hlt => ?_)
  simpa using hlt

/-- A heading owns the lines up to the next heading in the list. -/
theorem inSection_iff {passed rest : List Nat} (hsplit : d.headings c = passed ++ h :: rest) :
    d.InSection c h i ↔ h < i ∧ i < rest.headD d.lineCount := by
  have hsorted := headings_increasing (c := c) (d := d)
  rw [hsplit, List.pairwise_append, List.pairwise_cons] at hsorted
  obtain ⟨-, ⟨hafter, hrest⟩, hbefore⟩ := hsorted
  have hmem : ∀ k, d.HeadingAt c k ↔ k ∈ passed ++ h :: rest := fun k =>
    hsplit ▸ mem_headings_iff.symm
  constructor
  · rintro ⟨hlt, hin, hfree⟩
    refine ⟨hlt, ?_⟩
    cases rest with
    | nil => exact hin
    | cons next rest =>
        by_contra hge
        refine hfree next (hafter next List.mem_cons_self) (Nat.le_of_not_lt hge) ?_
        exact (hmem next).mpr (by simp)
  · rintro ⟨hlt, hlimit⟩
    have hin : rest.headD d.lineCount ≤ d.lineCount := by
      cases rest with
      | nil => exact Nat.le_refl _
      | cons next rest => exact Nat.le_of_lt ((hmem next).mpr (by simp)).lt_lineCount
    refine ⟨hlt, Nat.lt_of_lt_of_le hlimit hin, fun k hk hle hheading => ?_⟩
    rcases List.mem_append.mp ((hmem k).mp hheading) with hpassed | hlater
    · have := hbefore k hpassed h List.mem_cons_self
      omega
    rcases List.mem_cons.mp hlater with rfl | hlater
    · omega
    cases rest with
    | nil => cases hlater
    | cons next rest =>
        have hnext : next ≤ k := by
          rcases List.mem_cons.mp hlater with rfl | hlater
          · exact Nat.le_refl _
          · exact Nat.le_of_lt ((List.pairwise_cons.mp hrest).1 k hlater)
        exact absurd hlimit (Nat.not_lt.mpr (Nat.le_trans hnext hle))

theorem closes_section {passed rest : List Nat} (hsplit : d.headings c = passed ++ h :: rest) :
    d.Closes (d.InSection c h) h (d.lastContent h (rest.headD d.lineCount)) :=
  (closes_lastContent h _).congr fun _ _ => inSection_iff hsplit

theorem mem_headingFolds_from {passed starts : List Nat}
    (hsplit : d.headings c = passed ++ starts) :
    f ∈ d.headingFolds starts ↔
      ∃ h ∈ starts, ∃ e, d.EndsAt (d.InSection c h) e ∧ f = .ofPositions h e := by
  induction starts generalizing passed with
  | nil => simp [headingFolds]
  | cons start rest ih =>
      have hmoved : d.headings c = (passed ++ [start]) ++ rest := by simp [hsplit]
      have hrest := ih hmoved
      have hends : (∃ e, d.EndsAt (d.InSection c start) e ∧ f = .ofPositions start e) ↔
          start < d.lastContent start (rest.headD d.lineCount) ∧
            f = .ofPositions start (d.lastContent start (rest.headD d.lineCount)) := by
        simp only [(closes_section hsplit).endsAt_iff]
        exact ⟨fun ⟨_, ⟨hlt, heq⟩, hf⟩ => ⟨hlt, heq ▸ hf⟩, fun ⟨hlt, hf⟩ => ⟨_, ⟨hlt, rfl⟩, hf⟩⟩
      simp only [List.mem_cons, exists_eq_or_imp, hends, ← hrest]
      rw [headingFolds]
      split
      · rename_i hlt
        simp only [List.mem_cons, hlt, true_and]
      · rename_i hlt
        simp only [hlt, false_and, false_or]

theorem mem_headingFolds_iff : f ∈ d.headingFolds (d.headings c) ↔
    ∃ h e, d.HeadingFold c h e ∧ f = .ofPositions h e := by
  rw [mem_headingFolds_from (List.nil_append _).symm]
  constructor
  · rintro ⟨h, hmem, e, hends, rfl⟩
    exact ⟨h, e, ⟨mem_headings_iff.mp hmem, hends⟩, rfl⟩
  · rintro ⟨h, e, ⟨hheading, hends⟩, rfl⟩
    exact ⟨h, mem_headings_iff.mpr hheading, e, hends, rfl⟩

theorem headingFolds_increasing {starts : List Nat} (hstarts : starts.Pairwise (· < ·)) :
    (d.headingFolds starts).Pairwise fun f g => f.start < g.start := by
  induction starts with
  | nil => exact .nil
  | cons start rest ih =>
      obtain ⟨hafter, hrest⟩ := List.pairwise_cons.mp hstarts
      unfold headingFolds
      dsimp only
      split
      · refine .cons (fun g hg => ?_) (ih hrest)
        obtain ⟨start', hmem, hstart⟩ := start_of_mem_headingFolds hg
        rw [hstart]
        exact Nat.succ_lt_succ (hafter start' hmem)
      · exact ih hrest

/-- A heading that owns content folds. -/
theorem exists_headingFold (hheading : d.HeadingAt c h) (hi : d.InSection c h i)
    (hcontent : d.ContentAt i) : ∃ e, d.HeadingFold c h e ∧ i ≤ e := by
  obtain ⟨passed, rest, hsplit⟩ := List.append_of_mem (mem_headings_iff.mpr hheading)
  have hends := (closes_section hsplit).of_content hi hcontent
  exact ⟨_, ⟨hheading, hends⟩, hends.2.2 i hi hcontent⟩

/-- The folds of headings cover the lines that they say. -/
theorem any_covers_iff : (d.headingFolds (d.headings c)).any (·.covers (i + 1)) = true ↔
    d.InHeadingFold c i := by
  simp only [List.any_eq_true, mem_headingFolds_iff, Fold.covers, Bool.and_eq_true,
    decide_eq_true_eq]
  constructor
  · rintro ⟨_, ⟨h, e, hfold, rfl⟩, hstart, hstop⟩
    exact ⟨h, e, hfold, Nat.le_of_succ_le_succ hstart, Nat.le_of_succ_le_succ hstop⟩
  · rintro ⟨h, e, hfold, hstart, hstop⟩
    exact ⟨_, ⟨h, e, hfold, rfl⟩, Nat.succ_le_succ hstart, Nat.succ_le_succ hstop⟩

/-! ## The folds of metatags -/

theorem FreeFold.unique (hm : d.FreeFold c m e) (hm' : d.FreeFold c m e') : e = e' :=
  hm.1.2.unique hm'.1.2

theorem FreeFold.lt (hm : d.FreeFold c m e) : m < e :=
  hm.1.2.1.1

variable (c d) in
/-- The pass over the lines from a position on, with the first position that no fold so far
takes. A line folds unless it is taken or has nothing of its own to fold. -/
inductive Walk : Nat → Nat → List Fold → Prop
  | done {free position : Nat} : d.lineCount ≤ position → Walk free position []
  | skip {free position : Nat} {fs : List Fold} :
      (position < free ∨ ∀ e, ¬d.FreeFold c position e) → Walk free (position + 1) fs →
      Walk free position fs
  | fold {free position e : Nat} {fs : List Fold} : free ≤ position → d.FreeFold c position e →
      Walk (e + 1) (position + 1) fs → Walk free position (.ofPositions position e :: fs)

theorem walk_metatagFolds {covered : Nat → Bool} {free : Nat} {lines : List String}
    (hcovered : ∀ i, covered (i + 1) = true ↔ d.InHeadingFold c i)
    (hlines : d.lines.drop position = lines) :
    d.Walk c free position (metatagFolds c covered free position lines) := by
  induction lines generalizing free position with
  | nil => exact .done (List.drop_eq_nil_iff.mp hlines)
  | cons line rest ih =>
      obtain ⟨hline, hrest⟩ := line_of_drop hlines
      have hclose := closes_blockEnd hline
      rw [hrest] at hclose
      unfold metatagFolds
      dsimp only
      split
      · rename_i hpassed
        refine .skip ?_ (ih hrest)
        simp only [Bool.or_eq_true, decide_eq_true_eq, Bool.not_eq_true', hcovered] at hpassed
        rcases hpassed with (htaken | hplain) | hheading
        · exact .inl htaken
        · refine .inr fun e he => ?_
          obtain ⟨line', hline', htag⟩ := he.1.1
          obtain rfl : line' = line := Option.some.inj (hline'.symm.trans hline)
          rw [hplain] at htag
          cases htag
        · exact .inr fun e he => he.2.1 hheading
      rename_i hopens
      simp only [Bool.or_eq_true, decide_eq_true_eq, Bool.not_eq_true', hcovered, not_or,
        Nat.not_lt, Bool.not_eq_false] at hopens
      obtain ⟨⟨hfree, htag⟩, hheading⟩ := hopens
      split
      · rename_i hends
        refine .skip (.inr fun e he => ?_) (ih hrest)
        obtain ⟨hlt, rfl⟩ := hclose.endsAt_iff.mp he.1.2
        simp only [Bool.or_eq_true, decide_eq_true_eq, hcovered] at hends
        exact hends.elim (Nat.not_le.mpr hlt) he.2.2
      · rename_i hends
        simp only [Bool.or_eq_true, decide_eq_true_eq, hcovered, not_or, Nat.not_le] at hends
        have hblock := hclose.endsAt_iff.mpr ⟨hends.1, rfl⟩
        exact .fold hfree ⟨⟨⟨line, hline, htag⟩, hblock⟩, hheading, hends.2⟩ (ih hrest)

namespace Walk
variable {free : Nat} {fs : List Fold}

theorem freeFold (w : d.Walk c free position fs) (hf : f ∈ fs) :
    ∃ m e, free ≤ m ∧ d.FreeFold c m e ∧ f = .ofPositions m e := by
  induction w with
  | done _ => cases hf
  | skip _ _ ih => exact ih hf
  | fold hfree hfold _ ih =>
      rcases List.mem_cons.mp hf with rfl | hf
      · exact ⟨_, _, hfree, hfold, rfl⟩
      · obtain ⟨m, e, hm, hrest⟩ := ih hf
        have hlt := hfold.lt
        exact ⟨m, e, by omega, hrest⟩

theorem apart (w : d.Walk c free position fs) : fs.Pairwise fun f g => f.stop < g.start := by
  induction w with
  | done _ => exact .nil
  | skip _ _ ih => exact ih
  | fold _ _ w ih =>
      refine .cons (fun g hg => ?_) ih
      obtain ⟨m, e, hm, -, rfl⟩ := w.freeFold hg
      exact Nat.succ_lt_succ hm

/-- A fold that is not taken up lies in one that was. -/
theorem complete (w : d.Walk c free position fs) (hfold : d.FreeFold c m e) (hfree : free ≤ m)
    (hposition : position ≤ m) : .ofPositions m e ∈ fs ∨
      ∃ m' e', d.FreeFold c m' e' ∧ .ofPositions m' e' ∈ fs ∧ m' < m ∧ m ≤ e' := by
  induction w with
  | done hend =>
      have hlt : m < d.lineCount := Nat.lt_trans hfold.lt hfold.1.2.1.2.1
      omega
  | skip hpassed _ ih =>
      rcases Nat.eq_or_lt_of_le hposition with rfl | hlt
      · rcases hpassed with htaken | hnone
        · omega
        · exact absurd hfold (hnone e)
      · exact ih hfree hlt
  | @fold _ position e' fs _ hfirst _ ih =>
      rcases Nat.eq_or_lt_of_le hposition with rfl | hlt
      · rw [hfold.unique hfirst]
        exact .inl List.mem_cons_self
      rcases Nat.lt_or_ge e' m with hbehind | hinside
      · refine (ih hbehind hlt).imp (List.mem_cons_of_mem _) ?_
        rintro ⟨m', e', hfold', hmem, hrest⟩
        exact ⟨m', e', hfold', List.mem_cons_of_mem _ hmem, hrest⟩
      · exact .inr ⟨position, e', hfirst, List.mem_cons_self, hlt, hinside⟩

end Walk

/-! ## All folds -/

variable (c d) in
/-- The folds of metatags before they are put in order. -/
def blockFolds : List Fold :=
  metatagFolds c (fun line => (d.headingFolds (d.headings c)).any (·.covers line)) 0 0 d.lines

theorem walk_blockFolds : d.Walk c 0 0 (d.blockFolds c) :=
  walk_metatagFolds (fun _ => any_covers_iff) List.drop_zero

theorem mem_blockFolds (hf : f ∈ d.blockFolds c) :
    ∃ m e, d.FreeFold c m e ∧ f = .ofPositions m e := by
  obtain ⟨m, e, -, hfold⟩ := walk_blockFolds.freeFold hf
  exact ⟨m, e, hfold⟩

/-- Of two folds of metatags the earlier one ends before the later one starts. -/
theorem lt_of_mem_blockFolds (hm' : .ofPositions m' e' ∈ d.blockFolds c)
    (hm : .ofPositions m e ∈ d.blockFolds c) (hlt : m' < m) : e' < m := by
  have hapart := List.pairwise_iff_getElem.mp (walk_blockFolds (c := c) (d := d)).apart
  obtain ⟨i, hi, hfirst⟩ := List.getElem_of_mem hm'
  obtain ⟨j, hj, hsecond⟩ := List.getElem_of_mem hm
  rcases Nat.lt_trichotomy i j with hij | rfl | hji
  · have hbefore := hapart i j hi hj hij
    rw [hfirst, hsecond] at hbefore
    exact Nat.lt_of_succ_lt_succ hbefore
  · have hsame := Fold.ofPositions_inj.mp (hfirst.symm.trans hsecond)
    exact absurd hsame.1 (Nat.ne_of_lt hlt)
  · have hbefore := hapart j i hj hi hji
    rw [hfirst, hsecond] at hbefore
    obtain ⟨m₀, e₀, hfold, heq⟩ := mem_blockFolds hm
    obtain ⟨rfl, rfl⟩ := Fold.ofPositions_inj.mp heq
    have hends := hfold.lt
    have hafter := Nat.lt_of_succ_lt_succ hbefore
    omega

/-- The metatags that fold, read from the lines. -/
theorem mem_blockFolds_iff :
    .ofPositions m e ∈ d.blockFolds c ↔ d.BlockFold c m e := by
  induction m using Nat.strong_induction_on generalizing e with
  | _ m ih =>
      rw [BlockFold]
      constructor
      · intro h
        obtain ⟨m₀, e₀, hfold, heq⟩ := mem_blockFolds h
        obtain ⟨rfl, rfl⟩ := Fold.ofPositions_inj.mp heq
        exact ⟨hfold, fun m' hlt e' hm' => lt_of_mem_blockFolds ((ih m' hlt).mpr hm') h hlt⟩
      · rintro ⟨hfold, hfree⟩
        refine (walk_blockFolds.complete hfold (Nat.zero_le m) (Nat.zero_le m)).resolve_right ?_
        rintro ⟨m', e', -, hmem, hlt, hinside⟩
        exact Nat.not_lt.mpr hinside (hfree m' hlt e' ((ih m' hlt).mp hmem))

theorem folds_perm :
    (d.folds c).Perm (d.headingFolds (d.headings c) ++ d.blockFolds c) :=
  List.mergeSort_perm _ _

theorem mem_folds_iff :
    f ∈ d.folds c ↔ f ∈ d.headingFolds (d.headings c) ∨ f ∈ d.blockFolds c :=
  folds_perm.mem_iff.trans List.mem_append

/-- No two folds start on one line. -/
theorem folds_increasing : (d.folds c).Pairwise fun f g => f.start < g.start := by
  have hsorted : (d.folds c).Pairwise fun f g => f.start ≤ g.start := by
    refine (List.pairwise_mergeSort ?_ ?_ _).imp of_decide_eq_true
    · exact fun f g k hfg hgk =>
        decide_eq_true (Nat.le_trans (of_decide_eq_true hfg) (of_decide_eq_true hgk))
    · intro f g
      rw [Bool.or_eq_true, decide_eq_true_eq, decide_eq_true_eq]
      exact Nat.le_total _ _
  have hdistinct : (d.folds c).Pairwise fun f g => f.start ≠ g.start := by
    refine (folds_perm.pairwise_iff fun hne => Ne.symm hne).mpr ?_
    refine List.pairwise_append.mpr ⟨?_, ?_, ?_⟩
    · exact (headingFolds_increasing headings_increasing).imp Nat.ne_of_lt
    · refine walk_blockFolds.apart.imp_of_mem fun hf _ hlt => ?_
      obtain ⟨m, e, hfold, rfl⟩ := mem_blockFolds hf
      exact Nat.ne_of_lt (Nat.lt_trans (Nat.succ_lt_succ hfold.lt) hlt)
    · intro f hf g hg heq
      obtain ⟨h, e, hheading, rfl⟩ := mem_headingFolds_iff.mp hf
      obtain ⟨m, e', hfold, rfl⟩ := mem_blockFolds hg
      obtain rfl : h = m := Nat.succ.inj heq
      exact hfold.2.1 ⟨h, e, hheading, Nat.le_refl h, Nat.le_of_lt hheading.2.1.1⟩
  exact hsorted.imp₂ (fun _ _ => Nat.lt_of_le_of_ne) hdistinct

theorem filter_start_eq {fs : List Fold} (hfs : fs.Pairwise fun f g => f.start < g.start)
    (hf : f ∈ fs) : fs.filter (fun g => g.start == f.start) = [f] := by
  induction fs with
  | nil => cases hf
  | cons g fs ih =>
      obtain ⟨hafter, hrest⟩ := List.pairwise_cons.mp hfs
      rcases List.mem_cons.mp hf with rfl | hf
      · have hnone : fs.filter (fun g => g.start == f.start) = [] :=
          List.filter_eq_nil_iff.mpr fun g hg => by simpa using Nat.ne_of_gt (hafter g hg)
        have hself : (f.start == f.start) = true := beq_self_eq_true f.start
        rw [List.filter_cons, if_pos hself, hnone]
      · have hother : ¬(g.start == f.start) = true := by
          rw [beq_iff_eq]
          exact Nat.ne_of_lt (hafter f hf)
        rw [List.filter_cons, if_neg hother, ih hrest hf]

/-- The folds of a document are those that its lines call for. -/
theorem folds_isFolding (c : Configuration) (d : Document) : d.IsFolding c (d.folds c) := by
  have hcases : ∀ f ∈ d.folds c,
      (∃ h e, d.HeadingFold c h e ∧ f = .ofPositions h e) ∨
        ∃ m e, d.FreeFold c m e ∧ f = .ofPositions m e := by
    intro f hf
    exact (mem_folds_iff.mp hf).imp mem_headingFolds_iff.mp mem_blockFolds
  refine ⟨folds_increasing, fun f hf => ?_, fun h i hheading hi hcontent => ?_,
    fun f hf hother => ?_, fun m e hfold hfree hmissing => ?_⟩
  · have hends : ∀ {owned : Nat → Prop} {start e : Nat}, d.EndsAt owned e →
        (∀ i, owned i → start < i ∧ i < d.lineCount) →
        1 ≤ start + 1 ∧ start + 1 < e + 1 ∧ e + 1 ≤ d.lineCount ∧ d.ContentAt (e + 1 - 1) := by
      intro owned start e hends howned
      obtain ⟨hlt, hin⟩ := howned e hends.1
      exact ⟨by omega, by omega, hin, hends.2.1⟩
    rcases hcases f hf with ⟨h, e, hfold, rfl⟩ | ⟨m, e, hfold, rfl⟩
    · exact hends hfold.2 fun i hi => ⟨hi.1, hi.2.1⟩
    · exact hends hfold.1.2 fun i hi => ⟨hi.1, hi.2.1⟩
  · obtain ⟨e, hfold, -⟩ := exists_headingFold hheading hi hcontent
    have hmem : .ofPositions h e ∈ d.folds c :=
      mem_folds_iff.mpr (.inl (mem_headingFolds_iff.mpr ⟨h, e, hfold, rfl⟩))
    exact ⟨e, hfold.2, filter_start_eq folds_increasing hmem⟩
  · rcases hcases f hf with ⟨h, e, hfold, heq⟩ | hmetatag
    · exact absurd heq (hother h e hfold)
    · exact hmetatag
  · by_cases hend : d.InHeadingFold c e
    · exact .inl hend
    rcases walk_blockFolds.complete ⟨hfold, hfree, hend⟩ (Nat.zero_le m) (Nat.zero_le m) with
      hmem | ⟨m', e', hfold', hmem, hrest⟩
    · exact absurd (mem_folds_iff.mpr (.inr hmem)) hmissing
    · exact .inr ⟨m', e', hfold', mem_folds_iff.mpr (.inr hmem), hrest⟩

end
end Document
end Stepwise
