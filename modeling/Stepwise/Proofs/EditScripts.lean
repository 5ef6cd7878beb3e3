import Mathlib.Data.List.Basic
import Stepwise.Diff.Distance

/-!
# Scripts turn one text into the other

However a script is found, what it keeps and deletes is the old text and what it keeps and
inserts is the new one. Both are read from left to right, so a script is judged piece by piece:
`Turns` is said of a part of a script and the two parts of the texts that it covers.

The passes that tidy a script work on a reversed script and with edits that are pending. They
move characters between pieces and never change what the pieces read together. Cutting two
texts leaves their parts to be compared, whether the cut is around a common part or at a point
that the search from both ends proposes. Where that search meets does not matter here: any
point divides both texts.
-/
namespace Stepwise.Diff

/-- A script reads the text `old` and writes the text `new`. -/
structure Turns (script : List Edit) (old new : List Char) : Prop where
  source_eq : source script = old
  target_eq : target script = new

section
variable {e : Edit} {script script' : List Edit} {a b c d t : List Char}

theorem Turns.nil : Turns [] [] [] := ⟨rfl, rfl⟩

theorem Turns.of_script (script : List Edit) : Turns script (source script) (target script) :=
  ⟨rfl, rfl⟩

theorem Turns.append (h : Turns script a b) (h' : Turns script' c d) :
    Turns (script ++ script') (a ++ c) (b ++ d) := by
  constructor
  · rw [source, List.flatMap_append, ← source, ← source, h.source_eq, h'.source_eq]
  · rw [target, List.flatMap_append, ← target, ← target, h.target_eq, h'.target_eq]

theorem turns_cons_iff :
    Turns (e :: script) a b ↔ ∃ c d, a = e.source ++ c ∧ b = e.target ++ d ∧ Turns script c d := by
  constructor
  · intro h
    exact ⟨source script, target script, h.source_eq.symm, h.target_eq.symm, .of_script script⟩
  · rintro ⟨c, d, rfl, rfl, h⟩
    constructor
    · rw [source, List.flatMap_cons, ← source, h.source_eq]
    · rw [target, List.flatMap_cons, ← target, h.target_eq]

theorem Turns.cons (e : Edit) (h : Turns script a b) :
    Turns (e :: script) (e.source ++ a) (e.target ++ b) :=
  turns_cons_iff.mpr ⟨a, b, rfl, rfl, h⟩

/-- One piece more at the end of a script that is kept in reverse. -/
theorem Turns.reverse_cons (e : Edit) (h : Turns script.reverse a b) :
    Turns (e :: script).reverse (a ++ e.source) (b ++ e.target) := by
  have he : Turns [e] e.source e.target := by
    simpa only [List.append_nil] using Turns.nil.cons e
  rw [List.reverse_cons]
  exact h.append he

theorem turns_replaceAll (old new : List Char) : Turns (replaceAll old new) old new := by
  constructor
  · exact List.append_nil old
  · exact List.append_nil new

theorem turns_keepSome (t : List Char) : Turns (keepSome t) t t := by
  unfold keepSome
  cases t with
  | nil => exact .nil
  | cons c t =>
      constructor
      · exact List.append_nil (c :: t)
      · exact List.append_nil (c :: t)

end

/-! ## Common ends -/

theorem commonStart_prefix (a b : List Char) :
    commonStart a b <+: a ∧ commonStart a b <+: b := by
  induction a generalizing b with
  | nil => simp [commonStart]
  | cons x a ih =>
      cases b with
      | nil => simp [commonStart]
      | cons y b =>
          rw [commonStart]
          split
          · rename_i heq
            obtain rfl := beq_iff_eq.mp heq
            obtain ⟨ha, hb⟩ := ih b
            exact ⟨(List.prefix_cons_inj x).mpr ha, (List.prefix_cons_inj x).mpr hb⟩
          · exact ⟨List.nil_prefix, List.nil_prefix⟩

theorem commonEnd_suffix (a b : List Char) : commonEnd a b <:+ a ∧ commonEnd a b <:+ b := by
  obtain ⟨ha, hb⟩ := commonStart_prefix a.reverse b.reverse
  rw [← List.reverse_suffix, List.reverse_reverse] at ha hb
  exact ⟨ha, hb⟩

/-- A text is its start, its ending and what is left between them. -/
theorem start_core_ending {start ending t : List Char} (hstart : start <+: t)
    (hending : ending <:+ t.drop start.length) :
    start ++ ((t.drop start.length).take ((t.drop start.length).length - ending.length) ++
      ending) = t := by
  rw [List.suffix_iff_eq_append.mp hending]
  exact List.prefix_iff_eq_append.mp hstart

/-! ## Tidying -/

theorem turns_pushKeep {done : List Edit} {a b : List Char} (h : Turns done.reverse a b)
    (t : List Char) : Turns (pushKeep t done).reverse (a ++ t) (b ++ t) := by
  unfold pushKeep
  split
  · rename_i s done
    rw [List.reverse_cons] at h
    have hlast := (Turns.of_script done.reverse).reverse_cons (.keep (s ++ t))
    have hs := (Turns.of_script done.reverse).reverse_cons (.keep s)
    rw [List.reverse_cons] at hs
    have ha : a = source done.reverse ++ s := h.source_eq.symm.trans hs.source_eq
    have hb : b = target done.reverse ++ s := h.target_eq.symm.trans hs.target_eq
    rw [ha, hb, List.append_assoc, List.append_assoc]
    exact hlast
  · exact h.reverse_cons (.keep t)

/-- Where no piece of a sort is pending there are no characters of that sort. -/
structure Pending.Counted (p : Pending) : Prop where
  deleted : p.deletes = 0 → p.deleted = []
  inserted : p.inserts = 0 → p.inserted = []

theorem Pending.counted_none : Pending.none.Counted := ⟨fun _ => rfl, fun _ => rfl⟩

/-- The pending edits and the kept piece after them are what is added to a script. -/
theorem turns_flush {p : Pending} (hp : p.Counted) {done : List Edit} {a b : List Char}
    (h : Turns done.reverse a b) (t : List Char) :
    Turns (flush p t done).reverse (a ++ (p.deleted ++ t)) (b ++ (p.inserted ++ t)) := by
  unfold flush
  split
  · rename_i hnone
    rw [Bool.and_eq_true, beq_iff_eq, beq_iff_eq] at hnone
    rw [hp.deleted hnone.1, hp.inserted hnone.2]
    exact turns_pushKeep h t
  split
  · rename_i hdeletes
    rw [hp.deleted (beq_iff_eq.mp hdeletes)]
    simpa [Edit.source, Edit.target] using
      (h.reverse_cons (.insert p.inserted)).reverse_cons (.keep t)
  split
  · rename_i hinserts
    rw [hp.inserted (beq_iff_eq.mp hinserts)]
    simpa [Edit.source, Edit.target] using
      (h.reverse_cons (.delete p.deleted)).reverse_cons (.keep t)
  · obtain ⟨hstart, hstart'⟩ := commonStart_prefix p.inserted p.deleted
    generalize commonStart p.inserted p.deleted = start at hstart hstart' ⊢
    obtain ⟨hending, hending'⟩ :=
      commonEnd_suffix (p.inserted.drop start.length) (p.deleted.drop start.length)
    dsimp only
    generalize commonEnd (p.inserted.drop start.length) (p.deleted.drop start.length) = ending
      at hending hending' ⊢
    have hdone : Turns (if start.isEmpty then done else pushKeep start done).reverse
        (a ++ start) (b ++ start) := by
      split
      · rename_i hempty
        rw [List.isEmpty_iff.mp hempty, List.append_nil, List.append_nil]
        exact h
      · exact turns_pushKeep h start
    have hdeleted := start_core_ending hstart' hending'
    have hinserted := start_core_ending hstart hending
    generalize (p.deleted.drop start.length).take _ = deleted at hdeleted ⊢
    generalize (p.inserted.drop start.length).take _ = inserted at hinserted ⊢
    rw [← hdeleted, ← hinserted]
    simpa [Edit.source, Edit.target] using ((hdone.reverse_cons (.delete deleted)).reverse_cons
      (.insert inserted)).reverse_cons (.keep (ending ++ t))

theorem turns_joinFrom {p : Pending} (hp : p.Counted) {done script : List Edit}
    {a b c d : List Char} (h : Turns done.reverse a b) (hs : Turns script c d) :
    Turns (joinFrom p done (script ++ [.keep []])).reverse (a ++ (p.deleted ++ c))
      (b ++ (p.inserted ++ d)) := by
  induction script generalizing p done a b c d with
  | nil =>
      obtain ⟨rfl, rfl⟩ := hs
      exact turns_flush hp h []
  | cons e script ih =>
      obtain ⟨c, d, rfl, rfl, hrest⟩ := turns_cons_iff.mp hs
      cases e with
      | insert t =>
          have hp' : (Pending.mk p.deletes (p.inserts + 1) p.deleted (p.inserted ++ t)).Counted :=
            ⟨hp.deleted, nofun⟩
          simpa [joinFrom, Edit.source, Edit.target] using ih hp' h hrest
      | delete t =>
          have hp' : (Pending.mk (p.deletes + 1) p.inserts (p.deleted ++ t) p.inserted).Counted :=
            ⟨nofun, hp.inserted⟩
          simpa [joinFrom, Edit.source, Edit.target] using ih hp' h hrest
      | keep t =>
          simpa [joinFrom, Edit.source, Edit.target, Pending.none] using
            ih Pending.counted_none (turns_flush hp h t) hrest

theorem turns_dropEmptyLast {done : List Edit} {a b : List Char} (h : Turns done.reverse a b) :
    Turns (dropEmptyLast done).reverse a b := by
  unfold dropEmptyLast
  split
  · rename_i e done
    split
    · rename_i hempty
      have hnone : e.source = [] ∧ e.target = [] := by
        cases e <;> simpa [Edit.text, Edit.source, Edit.target] using hempty
      have hsame := (Turns.of_script done.reverse).reverse_cons e
      rw [hnone.1, hnone.2, List.append_nil, List.append_nil] at hsame
      exact ⟨hsame.source_eq.symm.trans h.source_eq, hsame.target_eq.symm.trans h.target_eq⟩
    · exact h
  · exact h

theorem turns_joinPieces {script : List Edit} {a b : List Char} (h : Turns script a b) :
    Turns (joinPieces script) a b := by
  have hnone : Turns ([] : List Edit).reverse [] [] := .nil
  exact turns_dropEmptyLast (turns_joinFrom Pending.counted_none hnone h)

theorem append_of_beforeEnd? {ending t front : List Char} (h : beforeEnd? ending t = some front) :
    front ++ ending = t := by
  obtain ⟨rest, hrest, rfl⟩ := Option.map_eq_some_iff.mp h
  rw [List.isPrefixOf?_eq_some_iff_append_eq] at hrest
  rw [← List.reverse_inj, List.reverse_append, List.reverse_reverse, hrest]

theorem eq_keep_of_isKeep {e : Edit} (h : e.isKeep = true) : e = .keep e.text := by
  cases e with
  | keep t => rfl
  | delete t => cases h
  | insert t => cases h

/-- An edit that ends like the kept piece before it trades places with that piece. -/
theorem Turns.slide_back {p n front : List Char} {cur : Edit} {script : List Edit}
    {a b : List Char} (hcur : front ++ p = cur.text)
    (h : Turns (.keep p :: cur :: .keep n :: script) a b) :
    Turns (cur.withText (p ++ front) :: .keep (p ++ n) :: script) a b := by
  rw [← h.source_eq, ← h.target_eq]
  cases cur with
  | keep t | delete t | insert t =>
      obtain rfl : front ++ p = t := hcur
      constructor <;> simp [source, target, Edit.source, Edit.target, Edit.withText]

/-- An edit that begins like the kept piece after it trades places with that piece. -/
theorem Turns.slide_on {p n back : List Char} {cur : Edit} {script : List Edit}
    {a b : List Char} (hcur : n ++ back = cur.text)
    (h : Turns (.keep p :: cur :: .keep n :: script) a b) :
    Turns (.keep (p ++ n) :: cur.withText (back ++ n) :: script) a b := by
  rw [← h.source_eq, ← h.target_eq]
  cases cur with
  | keep t | delete t | insert t =>
      obtain rfl : n ++ back = t := hcur
      constructor <;> simp [source, target, Edit.source, Edit.target, Edit.withText]

theorem Turns.cons_of {e : Edit} {script script' : List Edit} {a b : List Char}
    (h : Turns (e :: script) a b)
    (hrest : ∀ {c d : List Char}, Turns script c d → Turns script' c d) :
    Turns (e :: script') a b := by
  obtain ⟨c, d, rfl, rfl, hscript⟩ := turns_cons_iff.mp h
  exact (hrest hscript).cons e

theorem turns_slideFrom {prev : Edit} {script : List Edit} {a b : List Char}
    (h : Turns (prev :: script) a b) : Turns (slideFrom prev script).1 a b := by
  fun_induction slideFrom prev script generalizing a b with
  | case1 prev cur next rest hkeep front hfront slid _ hslid ih =>
      rw [Bool.and_eq_true] at hkeep
      rw [eq_keep_of_isKeep hkeep.1, eq_keep_of_isKeep hkeep.2] at h
      rw [hslid] at ih
      exact (h.slide_back (append_of_beforeEnd? hfront)).cons_of ih
  | case2 prev cur next rest hkeep _ back hback slid _ hslid ih =>
      rw [Bool.and_eq_true] at hkeep
      rw [eq_keep_of_isKeep hkeep.1, eq_keep_of_isKeep hkeep.2] at h
      rw [hslid] at ih
      exact (h.slide_on (List.isPrefixOf?_eq_some_iff_append_eq.mp hback)).cons_of ih
  | case3 prev cur next rest _ _ _ slid _ hslid ih =>
      rw [hslid] at ih
      exact h.cons_of ih
  | case4 prev cur next rest _ slid _ hslid ih =>
      rw [hslid] at ih
      exact h.cons_of ih
  | case5 => exact h

theorem turns_slidePieces {script : List Edit} {a b : List Char} (h : Turns script a b) :
    Turns (slidePieces script).1 a b := by
  cases script with
  | nil => exact h
  | cons prev script => exact turns_slideFrom h

theorem turns_tidyWithin {script : List Edit} {a b : List Char} (n : Nat)
    (h : Turns script a b) : Turns (tidyWithin n script) a b := by
  induction n generalizing script with
  | zero => exact h
  | succ n ih =>
      have hpass := turns_slidePieces (turns_joinPieces h)
      rw [tidyWithin]
      dsimp only
      split
      · exact ih hpass
      · exact hpass

theorem turns_tidy {script : List Edit} {a b : List Char} (h : Turns script a b) :
    Turns (tidy script) a b :=
  turns_tidyWithin _ h

/-! ## Common parts -/

theorem eq_of_indexOf? {word t : List Char} {i : Nat} (h : indexOf? word t = some i) :
    t.take i ++ (word ++ t.drop (i + word.length)) = t := by
  induction t generalizing i with
  | nil =>
      rw [indexOf?, Option.ite_none_right_eq_some, List.isEmpty_iff] at h
      obtain ⟨rfl, -⟩ := h
      simp
  | cons c t ih =>
      rw [indexOf?] at h
      split at h
      · rename_i hprefix
        obtain rfl := Option.some.inj h
        rw [List.take_zero, List.nil_append, Nat.zero_add]
        exact List.prefix_iff_eq_append.mp (List.isPrefixOf_iff_prefix.mp hprefix)
      · obtain ⟨j, hj, rfl⟩ := Option.map_eq_some_iff.mp h
        rw [List.take_succ_cons, Nat.add_right_comm, List.drop_succ_cons, List.cons_append, ih hj]

/-- Both texts have the common part between what is before and after it. -/
structure Halves.Cuts (h : Halves) (old new : List Char) : Prop where
  old_eq : h.oldBefore ++ (h.common ++ h.oldAfter) = old
  new_eq : h.newBefore ++ (h.common ++ h.newAfter) = new

theorem Halves.Cuts.swap {h : Halves} {old new : List Char} (hc : h.Cuts old new) :
    h.swap.Cuts new old :=
  ⟨hc.new_eq, hc.old_eq⟩

/-- A text cut at a position and the parts of both sides that are common. -/
theorem cut_around {t before after : List Char} {i : Nat} (hi : i ≤ t.length)
    (hbefore : before <:+ t.take i) (hafter : after <+: t.drop i) :
    t.take (i - before.length) ++ ((before ++ after) ++ t.drop (i + after.length)) = t := by
  have hfront := List.suffix_iff_eq_append.mp hbefore
  have hback := List.prefix_iff_eq_append.mp hafter
  rw [List.length_take_of_le hi, List.take_take, Nat.min_eq_left (Nat.sub_le i _)] at hfront
  rw [List.drop_drop] at hback
  rw [List.append_assoc, hback, ← List.append_assoc, hfront, List.take_append_drop]

theorem halvesAt_cuts {long short : List Char} {i j : Nat} (hi : i ≤ long.length)
    (hj : j ≤ short.length) : (halvesAt long short i j).Cuts long short := by
  obtain ⟨hafter, hafter'⟩ := commonStart_prefix (long.drop i) (short.drop j)
  obtain ⟨hbefore, hbefore'⟩ := commonEnd_suffix (long.take i) (short.take j)
  exact ⟨cut_around hi hbefore hafter, cut_around hj hbefore' hafter'⟩

theorem halvesFromSeed?_cuts {long short : List Char} {i : Nat} (hi : i ≤ long.length)
    {h : Halves} (hh : halvesFromSeed? long short i = some h) : h.Cuts long short := by
  obtain ⟨hsome, -⟩ := Option.filter_eq_some_iff.mp hh
  refine List.foldlRecOn (motive := fun best : Option Halves => ∀ b ∈ best, b.Cuts long short)
    _ _ (fun b hb => absurd hb (Option.not_mem_none b)) ?_ h hsome
  intro best hbest j hj b hb
  have hj' : j ≤ short.length := Nat.le_of_lt (List.mem_range.mp (List.mem_filter.mp hj).1)
  have hnew := halvesAt_cuts hi hj'
  dsimp only at hb
  split at hb
  · split at hb
    · exact Option.some.inj hb ▸ hnew
    · exact hbest b hb
  · split at hb
    · cases hb
    · exact Option.some.inj hb ▸ hnew

theorem longHalves?_cuts {long short : List Char} {h : Halves}
    (hh : longHalves? long short = some h) : h.Cuts long short := by
  unfold longHalves? at hh
  split at hh
  · cases hh
  rename_i hlong
  rw [Bool.or_eq_true, decide_eq_true_eq, not_or] at hlong
  have hquarter : (long.length + 3) / 4 ≤ long.length := by omega
  have hhalf : (long.length + 1) / 2 ≤ long.length := by omega
  split at hh
  · exact halvesFromSeed?_cuts hhalf hh
  · exact halvesFromSeed?_cuts hquarter hh
  · rename_i first second hfirst hsecond
    split at hh
    · exact halvesFromSeed?_cuts hquarter (hfirst.trans hh)
    · exact halvesFromSeed?_cuts hhalf (hsecond.trans hh)

theorem halves?_cuts {old new : List Char} {h : Halves} (hh : halves? old new = some h) :
    h.Cuts old new := by
  unfold halves? at hh
  split at hh
  · exact longHalves?_cuts hh
  · obtain ⟨swapped, hswapped, rfl⟩ := Option.map_eq_some_iff.mp hh
    exact (longHalves?_cuts hswapped).swap

/-! ## The script of two texts -/

theorem turns_inside? {old new : List Char} {es : List Edit} (h : inside? old new = some es) :
    Turns es old new := by
  unfold inside? at h
  split at h
  · obtain ⟨i, hi, rfl⟩ := Option.map_eq_some_iff.mp h
    constructor
    · simpa [source, Edit.source] using eq_of_indexOf? hi
    · simp [target, Edit.target]
  · obtain ⟨i, hi, rfl⟩ := Option.map_eq_some_iff.mp h
    constructor
    · simp [source, Edit.source]
    · simpa [target, Edit.target] using eq_of_indexOf? hi

/-- A plan is a script of the two texts, or a cut of both around a common part. -/
theorem plan_cases (old new : List Char) :
    (∃ es, plan old new = .edits es ∧ Turns es old new) ∨
      ∃ parts, plan old new = .split parts ∧ parts.Cuts old new := by
  unfold plan
  split
  · rename_i hold
    obtain rfl := List.isEmpty_iff.mp hold
    exact .inl ⟨_, rfl, rfl, List.append_nil new⟩
  split
  · rename_i hnew
    obtain rfl := List.isEmpty_iff.mp hnew
    exact .inl ⟨_, rfl, List.append_nil old, rfl⟩
  split
  · rename_i es hes
    exact .inl ⟨es, rfl, turns_inside? hes⟩
  split
  · exact .inl ⟨_, rfl, turns_replaceAll old new⟩
  split
  · rename_i parts hparts
    exact .inr ⟨parts, rfl, halves?_cuts hparts⟩
  split
  · exact .inr ⟨_, rfl, List.take_append_drop _ old, List.take_append_drop _ new⟩
  · exact .inl ⟨_, rfl, turns_replaceAll old new⟩

/-- The script found for two texts turns the one into the other. -/
theorem turns_script (old new : List Char) : Turns (script old new) old new := by
  fun_induction script old new with
  | case1 old new heq =>
      obtain rfl := beq_iff_eq.mp heq
      exact turns_keepSome old
  | case2 old new _ start oldRest newRest ending oldCore newCore core ihBefore ihAfter =>
      have hcore : Turns core oldCore newCore := by
        rcases plan_cases oldCore newCore with ⟨es, hplan, hes⟩ | ⟨parts, hplan, hparts⟩
        · simpa only [core, hplan] using hes
        · simp only [core, hplan]
          split
          · rename_i hless
            have hscript := ((ihBefore parts hless).append (turns_keepSome parts.common)).append
              (ihAfter parts hless)
            rwa [List.append_assoc parts.oldBefore, hparts.old_eq,
              List.append_assoc parts.newBefore, hparts.new_eq] at hscript
          · exact turns_replaceAll oldCore newCore
      have hstart := commonStart_prefix old new
      have hending := commonEnd_suffix oldRest newRest
      have hall := ((turns_keepSome start).append hcore).append (turns_keepSome ending)
      rw [List.append_assoc start, start_core_ending hstart.1 hending.1,
        List.append_assoc start, start_core_ending hstart.2 hending.2] at hall
      exact turns_tidy hall

end Stepwise.Diff
