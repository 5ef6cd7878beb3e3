import Mathlib.Data.List.Nodup
import Mathlib.Data.List.Perm.Basic
import Stepwise.Proofs.RepairedLines

/-!
# The nearest documented steps

For a step line the documented steps near enough to its text are ranked by the distance of
their shapes and, at one distance, by their places in the registry. There is one such ranking,
and the proposals for the line are its first three steps.

The ranking comes from a sort that knows only the distances. It is stable: the steps of one
distance stay in the order of the list, and that list is the registry with steps left out.
-/
namespace Stepwise

/-! ## A sort by keys -/

section
variable {α : Type} (key : α → Nat) (l : List α)

theorem key_le_trans (a b c : α) (hab : decide (key a ≤ key b) = true)
    (hbc : decide (key b ≤ key c) = true) : decide (key a ≤ key c) = true := by
  simp only [decide_eq_true_eq] at *
  omega

theorem key_le_total (a b : α) :
    (decide (key a ≤ key b) || decide (key b ≤ key a)) = true := by
  simp only [Bool.or_eq_true, decide_eq_true_eq]
  omega

/-- The elements of one key keep their order when a list is sorted by the keys. -/
theorem filter_mergeSort_key (k : Nat) :
    (l.mergeSort fun a b => decide (key a ≤ key b)).filter (fun a => key a == k) =
      l.filter fun a => key a == k := by
  have hsame : (l.filter fun a => key a == k).Pairwise
      fun a b => decide (key a ≤ key b) = true := by
    refine List.pairwise_of_forall_mem_list fun a ha b hb => ?_
    have hka := beq_iff_eq.mp (List.mem_filter.mp ha).2
    have hkb := beq_iff_eq.mp (List.mem_filter.mp hb).2
    exact decide_eq_true (by omega)
  have hsub := (List.sublist_mergeSort (key_le_trans key) (key_le_total key) hsame
    List.filter_sublist).filter fun a => key a == k
  rw [List.filter_filter] at hsub
  simp only [Bool.and_self] at hsub
  exact (hsub.eq_of_length ((List.mergeSort_perm l _).filter _).length_eq.symm).symm

/-- A list sorted by keys is in the order of the keys and, where they are equal, in its old
order. -/
theorem pairwise_mergeSort_key {r : α → α → Prop} (h : l.Pairwise r) :
    (l.mergeSort fun a b => decide (key a ≤ key b)).Pairwise fun a b =>
      key a < key b ∨ key a = key b ∧ r a b := by
  have hsorted := List.pairwise_mergeSort (key_le_trans key) (key_le_total key) l
  rw [List.pairwise_iff_forall_sublist] at h hsorted ⊢
  intro a b hab
  have hle := decide_eq_true_iff.mp (hsorted hab)
  rcases Nat.lt_or_eq_of_le hle with hlt | heq
  · exact .inl hlt
  · -- both are among the elements of one key
    have hpair := hab.filter fun x => key x == key b
    rw [filter_mergeSort_key] at hpair
    simp only [List.filter_cons, heq, beq_self_eq_true, if_true, List.filter_nil] at hpair
    exact .inr ⟨heq, h (hpair.trans List.filter_sublist)⟩

end

/-! ## The ranking -/

namespace Configuration

def stepDistance (text : String) (s : StepDefinition) : Nat :=
  Diff.distance (Step.shape text) (Step.shape s.key)

/-- A ranking of the documented steps near a text, each with its place in the registry: those
within half the length of the text's shape, nearest first and in registry order at one
distance. -/
structure IsRanking (c : Configuration) (text : String) (ranked : List (StepDefinition × Nat)) :
    Prop where
  near : ∀ e, e ∈ ranked ↔ c.steps.all[e.2]? = some e.1 ∧ e.1.isDocumented = true ∧
    stepDistance text e.1 ≤ (Step.shape text).length / 2
  ordered : ranked.Pairwise fun a b => stepDistance text a.1 < stepDistance text b.1 ∨
    stepDistance text a.1 = stepDistance text b.1 ∧ a.2 < b.2

variable {c : Configuration} {text : String}

/-- There is only one. -/
theorem IsRanking.unique {ranked other : List (StepDefinition × Nat)} (h : c.IsRanking text ranked)
    (h' : c.IsRanking text other) : ranked = other := by
  have hnodup : ∀ {r}, c.IsRanking text r → r.Nodup := by
    intro r hr
    refine hr.ordered.imp ?_
    rintro a b hab rfl
    omega
  refine List.Perm.eq_of_pairwise ?_ h.ordered h'.ordered
    ((List.perm_ext_iff_of_nodup (hnodup h) (hnodup h')).mpr fun e =>
      (h.near e).trans (h'.near e).symm)
  intro a b _ _ hab hba
  omega

/-- Whether a step is proposed for a text, if there are not too many. -/
def isNear (text : String) (s : StepDefinition) : Bool :=
  stepDistance text s ≤ (Step.shape text).length / 2 && s.isDocumented

/-- The steps that are ranked, in registry order. -/
def nearPlaces (c : Configuration) (text : String) : List (StepDefinition × Nat) :=
  c.steps.all.zipIdx.filter fun e => isNear text e.1

def ranking (c : Configuration) (text : String) : List (StepDefinition × Nat) :=
  (c.nearPlaces text).mergeSort
    fun a b => decide (stepDistance text a.1 ≤ stepDistance text b.1)

theorem mem_nearPlaces_iff (e : StepDefinition × Nat) : e ∈ c.nearPlaces text ↔
    c.steps.all[e.2]? = some e.1 ∧ e.1.isDocumented = true ∧
      stepDistance text e.1 ≤ (Step.shape text).length / 2 := by
  rw [nearPlaces, List.mem_filter, List.mem_zipIdx_iff_getElem?, isNear, Bool.and_eq_true,
    decide_eq_true_eq, and_comm (a := e.1.isDocumented = true)]

theorem isRanking_ranking (c : Configuration) (text : String) :
    c.IsRanking text (c.ranking text) where
  near e := by rw [ranking, List.mem_mergeSort, mem_nearPlaces_iff]
  ordered := by
    have hplaces : (c.steps.all.zipIdx).Pairwise fun a b => a.2 < b.2 := by
      rw [List.pairwise_iff_getElem]
      intro i j hi hj hij
      simpa using hij
    exact pairwise_mergeSort_key (fun e : StepDefinition × Nat => stepDistance text e.1) _
      (hplaces.filter _)

/-- Measuring the documented steps and keeping the near ones leaves the steps that are ranked. -/
theorem near_measured (c : Configuration) (text : String) :
    ((c.steps.documented.map fun s => (stepDistance text s, s)).filter
      fun e => e.1 ≤ (Step.shape text).length / 2) =
        (c.nearPlaces text).map fun e => (stepDistance text e.1, e.1) := by
  have hplaced : c.steps.all.filter (isNear text) =
      (c.nearPlaces text).map (·.1) := by
    conv => lhs; rw [← List.zipIdx_map_fst 0 c.steps.all, List.filter_map]
    rfl
  rw [List.filter_map, Steps.documented, List.filter_filter]
  change (c.steps.all.filter (isNear text)).map _ = _
  rw [hplaced, List.map_map]
  rfl

/-- The steps proposed for a text are the first of the ranking. -/
theorem nearestSteps_eq (c : Configuration) (text : String) :
    c.nearestSteps text = ((c.ranking text).take Fix.stepLimit).map (·.1) := by
  have hsort := List.map_mergeSort (l := c.nearPlaces text)
    (r := fun a b => decide (stepDistance text a.1 ≤ stepDistance text b.1))
    (s := fun a b => decide (a.1 ≤ b.1)) (f := fun e => (stepDistance text e.1, e.1))
    fun _ _ _ _ => rfl
  rw [← near_measured] at hsort
  rw [nearestSteps]
  change ((((c.steps.documented.map fun s => (stepDistance text s, s)).filter
    fun e => e.1 ≤ (Step.shape text).length / 2).mergeSort _).take _).map _ = _
  rw [← hsort, ← List.map_take, List.map_map]
  rfl

end Configuration

/-! ## The proposals for a marker -/

namespace Document
variable {c : Configuration} {d : Document} {m : Marker}

/-- The markers that fixes are proposed for. -/
def markersFor (c : Configuration) (d : Document) (ms : List Marker) : List Marker :=
  if ms.isEmpty then d.diagnostics c else ms

/-- The fixes that carry a marker are those of its line, once for each time it is given. -/
theorem filter_markers_fixes {span : Span} (ms : List Marker)
    (hin : (d.fixSpan span).containsLine m.span.startLine = true) :
    (d.fixes c span ms).filter (fun f => f.markers.contains m) =
      ((d.markersFor c ms).filter (· == m)).flatMap
        fun _ => c.lineFixes (d.line m.span.startLine) m := by
  have himports : ∀ f ∈ d.importFixes c (d.fixSpan span), ¬f.markers.contains m = true := by
    intro f hf
    obtain ⟨name, -, rfl⟩ := List.mem_map.mp hf
    exact Bool.false_ne_true
  have hline : ∀ m', (c.lineFixes (d.line m'.span.startLine) m').filter
      (fun f => f.markers.contains m) =
        if m' == m then c.lineFixes (d.line m.span.startLine) m else [] := by
    intro m'
    by_cases hm : m' = m
    · subst hm
      rw [if_pos (beq_self_eq_true m'), List.filter_eq_self]
      intro f hf
      rw [(Configuration.fixOf_of_mem hf).markers]
      simp
    · rw [if_neg (by simpa using hm), List.filter_eq_nil_iff]
      intro f hf
      rw [(Configuration.fixOf_of_mem hf).markers]
      simpa using Ne.symm hm
  change ((((d.markersFor c ms).filter
    fun m => (d.fixSpan span).containsLine m.span.startLine).flatMap
      fun m => c.lineFixes (d.line m.span.startLine) m) ++
        d.importFixes c (d.fixSpan span)).filter _ = _
  rw [List.filter_append, List.filter_eq_nil_iff.mpr himports, List.append_nil, List.filter_flatMap]
  simp only [hline]
  induction d.markersFor c ms with
  | nil => rfl
  | cons m' others ih =>
      by_cases hm : m' = m
      · subst hm
        simp only [List.filter_cons, hin, beq_self_eq_true, if_true, List.flatMap_cons, ih]
      · have hne : (m' == m) = false := beq_false_of_ne hm
        have hskip : (m' :: others).filter (· == m) = others.filter (· == m) :=
          List.filter_cons_of_neg (by simpa using hm)
        rw [hskip, ← ih, List.filter_cons]
        split
        · simp only [List.flatMap_cons, hne, Bool.false_eq_true, if_false, List.nil_append]
        · rfl

/-- Only documented steps are proposed in the place of what was typed. -/
theorem documented_of_replaceTitle {span : Span} {ms : List Marker} {f : Fix} {label : String}
    (hf : f ∈ d.fixes c span ms) (htitle : f.title = "Replace with " ++ inQuotes label) :
    ∃ s ∈ c.steps.all, s.isDocumented = true ∧ s.label = label ∧
      ∃ place typed, f.edits = [⟨place, typed ++ " " ++ s.key⟩] := by
  rcases List.mem_append.mp hf with hf | hf
  · obtain ⟨m, -, hf⟩ := List.mem_flatMap.mp hf
    obtain ⟨_, s, -, hs, hlabel, hedits⟩ :=
      (Configuration.fixOf_of_mem hf).of_replaceTitle htitle
    have hdocumented := List.mem_filter.mp (Configuration.mem_documented_of_nearestSteps hs)
    exact ⟨s, hdocumented.1, hdocumented.2, hlabel, _, _, hedits⟩
  · obtain ⟨name, -, rfl⟩ := List.mem_map.mp hf
    have hfirst := congrArg (fun t : String => t.toList.head?) htitle
    simp [Configuration.importFix, inQuotes] at hfirst

/-- The proposals for a marker on a step line are the first three steps, or all, of the one
ranking of the documented steps that are near to the text of the line. Each keeps the keyword
as typed and puts the key of the step after it. No proposal of any line is for a step without
documentation. -/
theorem fixes_nearest_steps {span : Span} (ms : List Marker) {step : StepLine}
    (hin : (d.fixSpan span).containsLine m.span.startLine = true)
    (hstep : StepLine.of? c.lexicon (d.line m.span.startLine) = some step) :
    let line := d.line m.span.startLine
    let typed := Text.joinWords ((Text.words line).take step.keyword.size)
    (∃ ranked, c.IsRanking step.text ranked ∧ (∀ r, c.IsRanking step.text r → r = ranked) ∧
      (d.fixes c span ms).filter (fun f => f.markers.contains m) =
        ((d.markersFor c ms).filter (· == m)).flatMap fun _ => (ranked.take 3).map fun e =>
          ⟨"Replace with " ++ inQuotes e.1.label, [m],
            [⟨.ofContent line m.span.startLine 1, typed ++ " " ++ e.1.key⟩], false⟩) ∧
    ∀ f ∈ d.fixes c span ms, ∀ label, f.title = "Replace with " ++ inQuotes label →
      ∃ s ∈ c.steps.all, s.isDocumented = true ∧ s.label = label ∧
        ∃ place typed, f.edits = [⟨place, typed ++ " " ++ s.key⟩] := by
  intro line typed
  refine ⟨⟨c.ranking step.text, c.isRanking_ranking step.text,
    fun r hr => hr.unique (c.isRanking_ranking step.text), ?_⟩,
    fun f hf label htitle => documented_of_replaceTitle hf htitle⟩
  rw [filter_markers_fixes ms hin]
  congr 1
  funext _
  simp only [Configuration.lineFixes, hstep, Configuration.nearestStepFixes,
    Configuration.nearestSteps_eq, List.map_map]
  rfl

/-- A step with a key of its own and some documentation, or none. -/
def keyedStep (key documentation : String) : StepDefinition :=
  { StepDefinition.blank with key, label := key, documentation }

/-- Of these steps those at the distance 1 come first, in registry order, then the first at the
distance 2; the one without documentation is passed over. -/
theorem fixes_nearest_steps_send :
    let c := (Configuration.ofStep countStep).withSteps (.ofList [keyedStep "mind" "d",
      keyedStep "sent" "d", keyedStep "seed" "", keyedStep "bend" "d", keyedStep "find" "d"])
    let d : Document := ⟨"inmemory:a", 1, 1, ["Given  send"]⟩
    let m : Marker := ⟨8, "Syntax error", ⟨1, 1, 1, 12⟩⟩
    let proposal := fun key : String =>
      (⟨"Replace with " ++ inQuotes key, [m], [⟨⟨1, 1, 1, 12⟩, "Given " ++ key⟩], false⟩ : Fix)
    (d.fixSpan .unset).containsLine m.span.startLine = true ∧
      StepLine.of? c.lexicon (d.line m.span.startLine) = some ⟨Configuration.given, "send"⟩ ∧
      (d.fixes c .unset [m]).filter (fun f => f.markers.contains m) =
        [proposal "sent", proposal "bend", proposal "mind"] := by
  intro c d m proposal
  have hin : (d.fixSpan .unset).containsLine m.span.startLine = true := by decide
  have hstep : StepLine.of? c.lexicon (d.line m.span.startLine) =
      some ⟨Configuration.given, "send"⟩ := by decide +kernel
  have hperm : List.Perm [(keyedStep "sent" "d", 1), (keyedStep "bend" "d", 3),
      (keyedStep "mind" "d", 0), (keyedStep "find" "d", 4)] (c.nearPlaces "send") := by
    decide +kernel
  have hranking : c.IsRanking "send" [(keyedStep "sent" "d", 1), (keyedStep "bend" "d", 3),
      (keyedStep "mind" "d", 0), (keyedStep "find" "d", 4)] :=
    ⟨fun e => hperm.mem_iff.trans (Configuration.mem_nearPlaces_iff e), by decide +kernel⟩
  have hmarkers : (d.markersFor c [m]).filter (· == m) = [m] := by decide
  obtain ⟨⟨ranked, -, hunique, hfixes⟩, -⟩ := fixes_nearest_steps [m] hin hstep
  rw [← hunique _ hranking, hmarkers, List.flatMap_singleton] at hfixes
  refine ⟨hin, hstep, hfixes.trans ?_⟩
  decide +kernel

end Document
end Stepwise
