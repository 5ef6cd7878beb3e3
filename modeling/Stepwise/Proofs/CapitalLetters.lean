import Stepwise.Text.Blank
import Stepwise.Text.Casing.Basic

/-!
# Letters that keep their capital

Upper case and lower case are no inverses of each other: a capital can lose an accent,
become several letters, or be the capital of another letter as well. A letter keeps its
capital when there is one, and its lower case is the lower case of the letter.

Then a word that begins with the capital has the lower case of the word that begins with
the letter. What follows is read in the same context, because a letter and its lower case
are the same or both cased. This is a fact about the tables, and it is checked run by run.
-/
namespace Stepwise.Text.Casing

def Run.members (r : Run) : List Nat :=
  (List.range ((r.last - r.first) / r.step + 1)).map fun i => r.first + r.step * i

/-- Whether intervals hold the members of a run when these are moved by a distance. Most
runs lie in one interval. -/
def Run.within (ranges : List (Nat × Nat)) (distance : Int) (r : Run) : Bool :=
  let moved := fun n : Nat => ((n : Int) + distance).toNat
  (ranges.any fun s => s.1 ≤ moved r.first && moved r.last ≤ s.2) ||
    r.members.all fun n => inRanges ranges (moved n)

section
variable {r : Run} {ranges : List (Nat × Nat)} {n m : Nat}

theorem Run.image?_eq_some (h : r.image? n = some m) :
    (r.first ≤ n ∧ n ≤ r.last ∧ n ∈ r.members) ∧ m = ((n : Int) + r.shift).toNat := by
  unfold image? at h
  split at h
  · rename_i hon
    simp only [Bool.and_eq_true, decide_eq_true_eq, beq_iff_eq] at hon
    obtain ⟨⟨hfirst, hlast⟩, hstep⟩ := hon
    refine ⟨⟨hfirst, hlast, List.mem_map.mpr ⟨(n - r.first) / r.step, ?_, ?_⟩⟩, ?_⟩
    · have hle : (n - r.first) / r.step ≤ (r.last - r.first) / r.step :=
        Nat.div_le_div_right (by omega)
      exact List.mem_range.mpr (by omega)
    · have hdivides := Nat.div_add_mod (n - r.first) r.step
      omega
    · exact (Option.some.inj h).symm
  · cases h

theorem inRanges_of_within {distance : Int} (h : r.within ranges distance = true)
    (hfirst : r.first ≤ n) (hlast : n ≤ r.last) (hmem : n ∈ r.members) :
    inRanges ranges ((n : Int) + distance).toNat = true := by
  rcases Bool.or_eq_true_iff.mp h with hone | hall
  · obtain ⟨s, hs, hin⟩ := List.any_eq_true.mp hone
    simp only [Bool.and_eq_true, decide_eq_true_eq] at hin
    refine List.any_eq_true.mpr ⟨s, hs, ?_⟩
    simp only [Bool.and_eq_true, decide_eq_true_eq]
    omega
  · exact List.all_eq_true.mp hall n hmem

theorem lowerRuns_within_cased :
    lowerRuns.all (fun r => r.within casedRanges 0 && r.within casedRanges r.shift) = true := by
  decide +kernel

theorem isValidChar_of_cased (h : inRanges casedRanges n = true) : n.isValidChar := by
  have htable : ∀ s ∈ casedRanges, s.2 < 0xD800 ∨ 0xDFFF < s.1 ∧ s.2 < 0x110000 := by
    decide +kernel
  obtain ⟨s, hs, hin⟩ := List.any_eq_true.mp h
  simp only [Bool.and_eq_true, decide_eq_true_eq] at hin
  rcases htable s hs with hlow | hhigh
  · exact .inl (by omega)
  · exact .inr ⟨by omega, by omega⟩

end

section
variable {t : Tailoring} {c u : Char} {rest : List Char}

/-- A letter and its lower case are the same or both cased. -/
theorem lowerSimple_eq_or_cased (c : Char) :
    lowerSimple c = c ∨ isCased c = true ∧ isCased (lowerSimple c) = true := by
  unfold lowerSimple
  split
  · rename_i m hm
    obtain ⟨r, hr, hrun⟩ := List.exists_of_findSome?_eq_some hm
    obtain ⟨⟨hfirst, hlast, hmem⟩, rfl⟩ := Run.image?_eq_some hrun
    obtain ⟨hsource, himage⟩ := Bool.and_eq_true_iff.mp
      (List.all_eq_true.mp lowerRuns_within_cased r hr)
    have hcased := inRanges_of_within hsource hfirst hlast hmem
    have hlower := inRanges_of_within himage hfirst hlast hmem
    refine .inr ⟨?_, ?_⟩
    · simpa [isCased] using hcased
    · rw [isCased, Char.ofNat, dif_pos (isValidChar_of_cased hlower)]
      exact hlower
  · exact .inl rfl

theorem isBlank_of_isCased (h : isCased c = true) : isBlank c = false := by
  have htable : ∀ s ∈ casedRanges, 0x20 < s.1 ∧ (s.2 < 0x85 ∨ 0xA0 < s.1) ∧
      (s.2 < 0x1680 ∨ 0x1680 < s.1) ∧ (s.2 < 0x2000 ∨ 0x205F < s.1) ∧
      (s.2 < 0x3000 ∨ 0x3000 < s.1) := by
    decide +kernel
  obtain ⟨s, hs, hin⟩ := List.any_eq_true.mp h
  simp only [Bool.and_eq_true, decide_eq_true_eq] at hin
  have := htable s hs
  simp only [isBlank, Bool.or_eq_false_iff, Bool.and_eq_false_iff, decide_eq_false_iff_not,
    beq_eq_false_iff_ne]
  omega

theorem lowerFull_eq_or_cased (c : Char) :
    ∃ h hs, lowerFull c = h :: hs ∧ (h = c ∨ isCased c = true ∧ isCased h = true) := by
  unfold lowerFull
  split
  · rename_i hc
    refine ⟨'i', ['\u0307'], rfl, .inr ⟨?_, by decide +kernel⟩⟩
    rw [isCased, eq_of_beq hc]
    decide +kernel
  · exact ⟨lowerSimple c, [], rfl, lowerSimple_eq_or_cased c⟩

/-- The lower case of a letter in a language begins with the letter itself, or both are
cased. -/
theorem lowerLetter_eq_or_cased (t : Tailoring) (c : Char) (rest : List Char) :
    ∃ h hs, (lowerLetter t c rest).1 = h :: hs ∧
      (h = c ∨ isCased c = true ∧ isCased h = true) := by
  cases t with
  | none => exact lowerFull_eq_or_cased c
  | greek => exact lowerFull_eq_or_cased c
  | turkic =>
      unfold lowerLetter
      dsimp only
      split
      · rename_i hc
        refine ⟨'i', [], rfl, .inr ⟨?_, by decide +kernel⟩⟩
        rw [isCased, eq_of_beq hc]
        decide +kernel
      · split
        · rename_i hc
          obtain rfl : c = 'I' := eq_of_beq hc
          split
          · exact ⟨'i', [], rfl, .inr (by decide +kernel)⟩
          · exact ⟨'ı', [], rfl, .inr (by decide +kernel)⟩
        · exact lowerFull_eq_or_cased c
  | lithuanian =>
      have htable : ∀ e ∈ lithuanianAccented, inRanges casedRanges e.1 = true ∧
          (e.2.map Char.ofNat).head?.any isCased = true := by
        decide +kernel
      unfold lowerLetter
      dsimp only
      split
      · rename_i n ns hfind
        obtain ⟨hcased, hfirst⟩ := htable _ (List.mem_of_find?_eq_some hfind)
        have hn : n = c.toNat := by simpa using List.find?_some hfind
        rw [hn] at hcased
        cases hlower : ns.map Char.ofNat with
        | nil =>
            rw [hlower] at hfirst
            cases hfirst
        | cons h hs =>
            rw [hlower] at hfirst
            exact ⟨h, hs, rfl, .inr ⟨hcased, hfirst⟩⟩
      · split <;> exact lowerFull_eq_or_cased c

/-- Letters with one lower case are the same or both cased. -/
theorem eq_or_cased_of_lowerLetter (h : lowerLetter t u rest = lowerLetter t c rest) :
    u = c ∨ isCased u = true ∧ isCased c = true := by
  obtain ⟨l, ls, hl, hu⟩ := lowerLetter_eq_or_cased t u rest
  obtain ⟨l', ls', hl', hc⟩ := lowerLetter_eq_or_cased t c rest
  rw [h, hl', List.cons.injEq] at hl
  obtain ⟨rfl, -⟩ := hl
  rcases hu with rfl | ⟨hu, hl⟩
  · rcases hc with rfl | ⟨hc, hl⟩
    · exact .inl rfl
    · exact .inr ⟨hl, hc⟩
  · rcases hc with rfl | ⟨hc, -⟩
    · exact .inr ⟨hu, hl⟩
    · exact .inr ⟨hu, hc⟩

/-- The lower case of a word is that of the word with its first letter exchanged, when the
two letters have one lower case. -/
theorem lower_exchange (h : lowerLetter t u rest = lowerLetter t c rest) :
    lower t (String.ofList (u :: rest)) = lower t (String.ofList (c :: rest)) := by
  have hcased : isCased u = isCased c := by
    rcases eq_or_cased_of_lowerLetter h with rfl | ⟨hu, hc⟩
    · rfl
    · rw [hu, hc]
  -- the rest is lowered in the context that the first letter leaves, cased or not
  have hlength : 2 * (rest.length + 1) = (2 * rest.length + 1) + 1 := by omega
  simp only [lower, String.toList_ofList, String.length_ofList, List.length_cons, hlength,
    lowerFrom, Bool.false_and, Bool.false_eq_true, if_false, Bool.or_false, h, hcased]

/-- Whether a letter keeps its capital before a text: there is one capital, and it has the
lower case of the letter. -/
def keepsCapital (t : Tailoring) (c : Char) (rest : List Char) : Bool :=
  match upperChar t c with
  | [u] => lowerLetter t u rest == lowerLetter t c rest
  | _ => false

/-- A letter that keeps its capital, at the head of a word: the word with the capital is a
word too and has the same lower case. -/
theorem exists_capital (h : keepsCapital t c rest = true) (hc : isBlank c = false) :
    ∃ u, upperChar t c = [u] ∧ isBlank u = false ∧
      lower t (String.ofList (u :: rest)) = lower t (String.ofList (c :: rest)) := by
  unfold keepsCapital at h
  split at h
  · rename_i u hu
    have hlower := eq_of_beq h
    refine ⟨u, hu, ?_, lower_exchange hlower⟩
    rcases eq_or_cased_of_lowerLetter hlower with rfl | ⟨hcased, -⟩
    · exact hc
    · exact isBlank_of_isCased hcased
  · cases h

end
end Stepwise.Text.Casing
