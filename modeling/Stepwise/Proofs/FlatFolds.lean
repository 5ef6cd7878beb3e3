import Stepwise.Proofs.FoldRanges

/-!
# When folds are flat

The folds of headings are apart from each other, and so are those of metatags. Between the two
only the first and the last line of a metatag's fold are looked at, so it may take in the fold
of a heading. It does exactly when the metatag's block ends on a heading that owns no content:
the last heading of a block that owns some folds at least to the end of the block.
-/
namespace Stepwise

/-- Folds without a line in common. -/
def Fold.Apart (f g : Fold) : Prop :=
  ∀ line, ¬(f.covers line = true ∧ g.covers line = true)

namespace Fold
variable {f g : Fold} {a b a' b' : Nat}

theorem Apart.symm (hfg : f.Apart g) : g.Apart f :=
  fun line h => hfg line h.symm

theorem apart_ofPositions_iff (hab : a ≤ b) (hab' : a' ≤ b') :
    (ofPositions a b).Apart (ofPositions a' b') ↔ b < a' ∨ b' < a := by
  simp only [Apart, covers, Bool.and_eq_true, decide_eq_true_eq]
  simp only [ofPositions]
  constructor
  · intro h
    have hcommon := h (max a a' + 1)
    omega
  · intro h line
    omega

end Fold

namespace Document
variable {c : Configuration} {d : Document} {h h' i j m e e' : Nat}

variable (c d) in
/-- A heading that owns no content. -/
def BareHeading (h : Nat) : Prop :=
  d.HeadingAt c h ∧ ∀ i, d.InSection c h i → ¬d.ContentAt i

/-! ## Folds of one sort -/

theorem HeadingFold.lt_of_lt (hfold : d.HeadingFold c h e) (hnext : d.HeadingAt c h')
    (hlt : h < h') : e < h' := by
  by_contra hge
  exact hfold.2.1.2.2 h' hlt (Nat.le_of_not_lt hge) hnext

theorem headingFolds_apart : (d.headingFolds (d.headings c)).Pairwise Fold.Apart := by
  refine (headingFolds_increasing headings_increasing).imp_of_mem fun hf hg hlt => ?_
  obtain ⟨h, e, hfold, rfl⟩ := mem_headingFolds_iff.mp hf
  obtain ⟨h', e', hfold', rfl⟩ := mem_headingFolds_iff.mp hg
  refine (Fold.apart_ofPositions_iff (Nat.le_of_lt hfold.2.1.1)
    (Nat.le_of_lt hfold'.2.1.1)).mpr (.inl ?_)
  exact hfold.lt_of_lt hfold'.1 (Nat.lt_of_succ_lt_succ hlt)

theorem blockFolds_apart : (d.blockFolds c).Pairwise Fold.Apart := by
  refine walk_blockFolds.apart.imp_of_mem fun hf hg hlt => ?_
  obtain ⟨m, e, hfold, rfl⟩ := mem_blockFolds hf
  obtain ⟨m', e', hfold', rfl⟩ := mem_blockFolds hg
  refine (Fold.apart_ofPositions_iff (Nat.le_of_lt hfold.lt) (Nat.le_of_lt hfold'.lt)).mpr ?_
  exact .inl (Nat.lt_of_succ_lt_succ hlt)

/-! ## A heading's fold and a metatag's -/

theorem FreeFold.apart_iff (hfold : d.FreeFold c m e') (hheading : d.HeadingFold c h e) :
    (Fold.ofPositions h e).Apart (.ofPositions m e') ↔ ¬(m < h ∧ h < e') := by
  have hle := hheading.2.1.1
  have hstart : ¬(h ≤ m ∧ m ≤ e) := fun hin => hfold.2.1 ⟨h, e, hheading, hin⟩
  have hstop : ¬(h ≤ e' ∧ e' ≤ e) := fun hin => hfold.2.2 ⟨h, e, hheading, hin⟩
  rw [Fold.apart_ofPositions_iff (Nat.le_of_lt hle) (Nat.le_of_lt hfold.lt)]
  omega

theorem exists_last_heading (hheading : d.HeadingAt c h) (hle : h ≤ i) :
    ∃ h', d.HeadingAt c h' ∧ h ≤ h' ∧ h' ≤ i ∧ ∀ k, h' < k → k ≤ i → ¬d.HeadingAt c k := by
  induction i, hle using Nat.le_induction with
  | base => exact ⟨h, hheading, Nat.le_refl h, Nat.le_refl h, fun k hk hle => by omega⟩
  | succ i hle ih =>
      by_cases hnext : d.HeadingAt c (i + 1)
      · exact ⟨i + 1, hnext, by omega, Nat.le_refl _, fun k hk hle => by omega⟩
      · obtain ⟨h', hheading', hfrom, hto, hfree⟩ := ih
        refine ⟨h', hheading', hfrom, by omega, fun k hk hle => ?_⟩
        rcases Nat.le_succ_iff.mp hle with hle | rfl
        · exact hfree k hk hle
        · exact hnext

/-- A metatag's fold with a heading in it ends on a heading without content. -/
theorem FreeFold.bareHeading (hfold : d.FreeFold c m e) (hheading : d.HeadingAt c h)
    (hle : h ≤ e) : d.BareHeading c e := by
  -- whatever the last heading owns up to the end of the block would fold there
  have hcovered : ∀ h' i, d.HeadingAt c h' → h' ≤ e → e ≤ i → d.InSection c h' i →
      ¬d.ContentAt i := by
    intro h' i hheading' hle hei hi hcontent
    obtain ⟨e', hfold', hend⟩ := exists_headingFold hheading' hi hcontent
    exact hfold.2.2 ⟨h', e', hfold', hle, Nat.le_trans hei hend⟩
  obtain ⟨h', hheading', -, hto, hfree⟩ := exists_last_heading hheading hle
  obtain ⟨⟨-, hin, -⟩, hcontent, -⟩ := hfold.1.2
  rcases Nat.lt_or_eq_of_le hto with hlt | rfl
  · exact absurd hcontent (hcovered h' e hheading' hto (Nat.le_refl e) ⟨hlt, hin, hfree⟩)
  · exact ⟨hheading', fun i hi => hcovered h' i hheading' hto (Nat.le_of_lt hi.1) hi⟩

theorem BareHeading.not_inHeadingFold (hbare : d.BareHeading c e) : ¬d.InHeadingFold c e := by
  rintro ⟨h, e', hfold, hle, hend⟩
  rcases Nat.lt_or_eq_of_le hle with hlt | rfl
  · exact absurd (hfold.lt_of_lt hbare.1 hlt) (Nat.not_lt.mpr hend)
  · exact hbare.2 e' hfold.2.1 hfold.2.2.1

/-- A block inside a block. -/
theorem InBlock.trans (hi : d.InBlock m i) (hcontent : d.ContentAt i) (hj : d.InBlock i j) :
    d.InBlock m j := by
  obtain ⟨hmi, -, hrun⟩ := hi
  obtain ⟨hij, hin, hrun'⟩ := hj
  refine ⟨Nat.lt_trans hmi hij, hin, fun k hk hle => ?_⟩
  rcases Nat.lt_or_ge i k with hlt | hge
  · have hdeep : d.columnAt m < d.columnAt i :=
      (hrun i hmi (Nat.le_refl i)).resolve_left (not_not_intro hcontent)
    exact (hrun' k hlt hle).imp_right (Nat.lt_trans hdeep)
  · exact hrun k hk hge

/-- Folds are flat when no fold of a heading lies in one of a metatag. -/
theorem folds_apart_iff_not_nested : (d.folds c).Pairwise Fold.Apart ↔
    ∀ h e m e', d.HeadingFold c h e → .ofPositions m e' ∈ d.blockFolds c →
      d.FreeFold c m e' → ¬(m < h ∧ h < e') := by
  rw [folds_perm.pairwise_iff Fold.Apart.symm, List.pairwise_append]
  constructor
  · rintro ⟨-, -, happart⟩ h e m e' hheading hmem hfold
    refine (hfold.apart_iff hheading).mp (happart _ ?_ _ hmem)
    exact mem_headingFolds_iff.mpr ⟨h, e, hheading, rfl⟩
  · intro hnested
    refine ⟨headingFolds_apart, blockFolds_apart, fun f hf g hg => ?_⟩
    obtain ⟨h, e, hheading, rfl⟩ := mem_headingFolds_iff.mp hf
    obtain ⟨m, e', hfold, rfl⟩ := mem_blockFolds hg
    exact (hfold.apart_iff hheading).mpr (hnested h e m e' hheading hg hfold)

/-- Folds are flat exactly when every metatag outside the folds of headings whose block ends on
a heading without content has only such headings in its block. -/
theorem folds_apart_iff (c : Configuration) (d : Document) :
    (d.folds c).Pairwise Fold.Apart ↔
      ∀ m e h, d.MetatagFold c m e → ¬d.InHeadingFold c m → d.BareHeading c e →
        m < h → h < e → d.HeadingAt c h → d.BareHeading c h := by
  rw [folds_apart_iff_not_nested]
  constructor
  · intro hflat m e h hblock hfree hbare hmh hhe hheading
    refine ⟨hheading, fun i hi hcontent => ?_⟩
    obtain ⟨e₀, hfold₀, -⟩ := exists_headingFold hheading hi hcontent
    have hfold : d.FreeFold c m e := ⟨hblock, hfree, hbare.not_inHeadingFold⟩
    rcases walk_blockFolds.complete hfold (Nat.zero_le m) (Nat.zero_le m) with
      hmem | ⟨m', e', hfold', hmem, hlt, hle⟩
    · exact hflat h e₀ m e hfold₀ hmem hfold ⟨hmh, hhe⟩
    · -- the block lies in an earlier one, which reaches at least as far
      have hinside : d.InBlock m' m := by
        obtain ⟨-, hin, hrun⟩ := hfold'.1.2.1
        exact ⟨hlt, by omega, fun k hk hkm => hrun k hk (Nat.le_trans hkm hle)⟩
      have hreach : e ≤ e' :=
        hfold'.1.2.2.2 e (hinside.trans hblock.1.contentAt hblock.2.1) hblock.2.2.1
      exact hflat h e₀ m' e' hfold₀ hmem hfold' ⟨by omega, by omega⟩
  · rintro hlayout h e m e' hheading - hfold ⟨hmh, hhe⟩
    have hbare := hfold.bareHeading hheading.1 (Nat.le_of_lt hhe)
    have hempty := hlayout m e' h hfold.1 hfold.2.1 hbare hmh hhe hheading.1
    exact hempty.2 e hheading.2.1 hheading.2.2.1

/-- A metatag whose block ends on an empty heading takes in the fold of the heading before. -/
theorem folds_nested :
    let c := Configuration.initial.withLexicon (.ofPhrases
      [⟨"", .feature, ["Feature"]⟩, ⟨"", .scenario, ["Scenario"]⟩])
    let d : Document :=
      ⟨"inmemory:a", 1, 1, ["try", "  Feature: a", "    b", "  Scenario: c"]⟩
    ⟨1, 4⟩ ∈ d.folds c ∧ ⟨2, 3⟩ ∈ d.folds c ∧ ¬(d.folds c).Pairwise Fold.Apart := by
  intro c d
  have hheadings : d.headingFolds (d.headings c) = [⟨2, 3⟩] := by decide +kernel
  have hblocks : d.blockFolds c = [⟨1, 4⟩] := by decide +kernel
  have hperm := folds_perm (c := c) (d := d)
  rw [hheadings, hblocks] at hperm
  refine ⟨hperm.mem_iff.mpr (by simp), hperm.mem_iff.mpr (by simp), fun hflat => ?_⟩
  rw [hperm.pairwise_iff Fold.Apart.symm] at hflat
  exact (List.pairwise_cons.mp hflat).1 _ List.mem_cons_self 2 (by decide)

end Document
end Stepwise
