import Mathlib.Tactic.ByContra
import Stepwise.Document.LineClass

/-!
# Classes of lines read without a machine

Classification passes over a document once and carries a context along. Here the
same classes are read off the document itself. A line is docstring when it is a
fence that no earlier docstring contains, or when an earlier such fence is not
closed before it. Whether a free line is description depends on the nearest
heading or step line above it. Every other line has its class by itself.

The context before a position is shown to hold exactly these two facts about the
lines above. Positions count from 0.
-/
namespace Stepwise
namespace Document

/-- The fence that the line at a position begins with. -/
def fenceAt? (d : Document) (i : Nat) : Option Fence :=
  d.lines[i]?.bind fun line => Fence.of? (Text.trim line)

/-- Whether the line at a position begins with a fence of one kind. -/
def showsFence (d : Document) (f : Fence) (i : Nat) : Bool :=
  match d.lines[i]? with
  | some line => Text.startsWith f.mark (Text.trim line)
  | none => false

/-- A fence that opens a docstring: every docstring opened above it is closed above it. -/
def OpensAt (d : Document) (i : Nat) (f : Fence) : Prop :=
  d.fenceAt? i = some f ∧
    ∀ j, j < i → ∀ g, d.OpensAt j g → ∃ k, j < k ∧ k < i ∧ d.showsFence g k = true
termination_by i

/-- A position after an opening fence, up to the first line that shows the fence again. -/
def FencedBy (d : Document) (i : Nat) (f : Fence) : Prop :=
  ∃ j, j < i ∧ d.OpensAt j f ∧ ∀ k, j < k → k < i → d.showsFence f k = false

/-- A docstring opens at the position or holds it. -/
def InDocString (d : Document) (i : Nat) : Prop :=
  (∃ f, d.OpensAt i f) ∨ ∃ f, d.FencedBy i f

theorem opensAt_iff (d : Document) (i : Nat) (f : Fence) :
    d.OpensAt i f ↔ d.fenceAt? i = some f ∧ ∀ g, ¬d.FencedBy i g := by
  rw [OpensAt]
  refine and_congr_right fun _ => ⟨?_, ?_⟩
  · rintro h g ⟨j, hj, hopen, hclosed⟩
    obtain ⟨k, hjk, hki, hk⟩ := h j hj g hopen
    rw [hclosed k hjk hki] at hk
    cases hk
  · intro h j hj g hopen
    by_contra hnone
    refine h g ⟨j, hj, hopen, fun k hjk hki => ?_⟩
    cases hk : d.showsFence g k with
    | false => rfl
    | true => exact absurd ⟨k, hjk, hki, hk⟩ hnone

theorem not_fencedBy_zero (d : Document) (f : Fence) : ¬d.FencedBy 0 f := by
  rintro ⟨j, hj, _⟩
  exact absurd hj (Nat.not_lt_zero j)

/-- One line further: the docstring goes on, or the line opens one. -/
theorem fencedBy_succ_iff (d : Document) (i : Nat) (f : Fence) :
    d.FencedBy (i + 1) f ↔ d.OpensAt i f ∨ (d.FencedBy i f ∧ d.showsFence f i = false) := by
  constructor
  · rintro ⟨j, hj, hopen, hclosed⟩
    rcases Nat.lt_succ_iff_lt_or_eq.mp hj with hj | rfl
    · refine .inr ⟨⟨j, hj, hopen, fun k hjk hki => hclosed k hjk (by omega)⟩, ?_⟩
      exact hclosed i hj (Nat.lt_succ_self i)
    · exact .inl hopen
  · rintro (hopen | ⟨⟨j, hj, hopen, hclosed⟩, hi⟩)
    · exact ⟨i, Nat.lt_succ_self i, hopen, fun k hik hki => absurd hki (by omega)⟩
    · refine ⟨j, by omega, hopen, fun k hjk hki => ?_⟩
      rcases Nat.lt_succ_iff_lt_or_eq.mp hki with hki | rfl
      · exact hclosed k hjk hki
      · exact hi

/-- A position lies in at most one docstring. -/
theorem FencedBy.unique {d : Document} {i : Nat} {f g : Fence} (hf : d.FencedBy i f)
    (hg : d.FencedBy i g) : f = g := by
  obtain ⟨j, hj, hjf, hjc⟩ := hf
  obtain ⟨k, hk, hkg, hkc⟩ := hg
  rcases Nat.lt_trichotomy j k with hjk | rfl | hkj
  · have hkf : d.FencedBy k f := ⟨j, hjk, hjf, fun m hjm hmk => hjc m hjm (by omega)⟩
    exact absurd hkf (((d.opensAt_iff k g).mp hkg).2 f)
  · have h := ((d.opensAt_iff j f).mp hjf).1.symm.trans ((d.opensAt_iff j g).mp hkg).1
    exact Option.some.inj h
  · have hjg : d.FencedBy j g := ⟨k, hkj, hkg, fun m hkm hmj => hkc m hkm (by omega)⟩
    exact absurd hjg (((d.opensAt_iff j f).mp hjf).2 g)

end Document

/-! ## One line -/

section
variable (c : Configuration) (t : String)

/-- A line of words that opens with no mark. -/
def Unmarked (t : String) : Prop :=
  t ≠ "" ∧ Fence.of? t = none ∧ Text.startsWith "#" t = false ∧ Text.startsWith "@" t = false ∧
    Text.startsWith "|" t = false

/-- The class that a trimmed line has by itself outside docstrings. The tests are made in
this order, and free lines pass none of them. -/
inductive OwnClass : LineClass → Prop
  | blank : t = "" → OwnClass .blank
  | comment : Text.startsWith "#" t = true → OwnClass .comment
  | tag : Text.startsWith "@" t = true → OwnClass .tag
  | table : Text.startsWith "|" t = true → OwnClass .table
  | metatag : Unmarked t → c.isMetatag t = true → OwnClass .metatag
  | importLine : Unmarked t → c.isMetatag t = false → c.isImportLine t = true →
      OwnClass .importLine
  | header {k : Keyword} : Unmarked t → c.isMetatag t = false → c.isImportLine t = false →
      c.lexicon.findHeader? t = some k → OwnClass .header
  | step {s : StepLine} : Unmarked t → c.isMetatag t = false → c.isImportLine t = false →
      c.lexicon.findHeader? t = none → StepLine.of? c.lexicon t = some s → OwnClass .step

end

/-- The class of a form that has one by itself. -/
def LineForm.ownClass? : LineForm → Option LineClass
  | .blank => some .blank
  | .fence _ => none
  | .comment => some .comment
  | .tag => some .tag
  | .table => some .table
  | .metatag => some .metatag
  | .importLine => some .importLine
  | .header _ => some .header
  | .step => some .step
  | .free => none

theorem startsWith_char {c : Char} {mark : String} (hm : mark.toList = [c]) {t : String}
    (h : Text.startsWith mark t = true) : ∃ rest, t.toList = c :: rest := by
  rw [Text.startsWith, hm] at h
  cases ht : t.toList with
  | nil => simp [ht] at h
  | cons d rest =>
      simp only [ht, List.isPrefixOf, Bool.and_true, beq_iff_eq] at h
      exact ⟨rest, by rw [h]⟩

theorem ne_empty_of_toList {t : String} {c : Char} {rest : List Char} (h : t.toList = c :: rest) :
    t.isEmpty = false := by
  rw [← Bool.not_eq_true, String.isEmpty_iff]
  rintro rfl
  cases h

/-- Two different marks do not open one line. -/
theorem startsWith_of_char {c d : Char} {mark : String} (hm : mark.toList = [c]) {t : String}
    {rest : List Char} (ht : t.toList = d :: rest) (hne : c ≠ d) :
    Text.startsWith mark t = false := by
  rw [Text.startsWith, hm, ht]
  simp [List.isPrefixOf, hne]

section
variable {c : Configuration} {t : String}

theorem LineForm.of_unmarked (h : Unmarked t) : LineForm.of c t = .ofWords c t := by
  obtain ⟨hne, hf, hc, ht, hb⟩ := h
  have he : t.isEmpty = false := by rwa [← Bool.not_eq_true, String.isEmpty_iff]
  simp only [LineForm.of, he, hf, hc, ht, hb, Bool.false_eq_true, if_false]

/-- A form follows the tests of the classes, fences apart. -/
theorem OwnClass.form {cls : LineClass} (h : OwnClass c t cls) (hf : Fence.of? t = none) :
    (LineForm.of c t).ownClass? = some cls := by
  cases h with
  | blank h =>
      have he : t.isEmpty = true := String.isEmpty_iff.mpr h
      rw [LineForm.of, if_pos he, LineForm.ownClass?]
  | comment h =>
      obtain ⟨rest, ht⟩ := startsWith_char rfl h
      simp [LineForm.of, ne_empty_of_toList ht, hf, h, LineForm.ownClass?]
  | tag h =>
      obtain ⟨rest, ht⟩ := startsWith_char rfl h
      have hc : Text.startsWith "#" t = false := startsWith_of_char rfl ht (by decide)
      simp [LineForm.of, ne_empty_of_toList ht, hf, hc, h, LineForm.ownClass?]
  | table h =>
      obtain ⟨rest, ht⟩ := startsWith_char rfl h
      have hc : Text.startsWith "#" t = false := startsWith_of_char rfl ht (by decide)
      have ha : Text.startsWith "@" t = false := startsWith_of_char rfl ht (by decide)
      simp [LineForm.of, ne_empty_of_toList ht, hf, hc, ha, h, LineForm.ownClass?]
  | metatag hu hm => simp [LineForm.of_unmarked hu, LineForm.ofWords, hm, LineForm.ownClass?]
  | importLine hu hm hi =>
      simp [LineForm.of_unmarked hu, LineForm.ofWords, hm, hi, LineForm.ownClass?]
  | header hu hm hi hh =>
      simp [LineForm.of_unmarked hu, LineForm.ofWords, hm, hi, hh, LineForm.ownClass?]
  | step hu hm hi hh hs =>
      simp [LineForm.of_unmarked hu, LineForm.ofWords, hm, hi, hh, hs, LineForm.ownClass?]

theorem OwnClass.unique {own cls : LineClass} (h : OwnClass c t own) (h' : OwnClass c t cls)
    (hf : Fence.of? t = none) : own = cls :=
  Option.some.inj ((h.form hf).symm.trans (h'.form hf))

/-- No line is docstring by itself. -/
theorem OwnClass.ne_docString {own : LineClass} (h : OwnClass c t own) : own ≠ .docString := by
  cases h <;> nofun

theorem ownClass_of_words {cls : LineClass} (hu : Unmarked t)
    (h : (LineForm.ofWords c t).ownClass? = some cls) : OwnClass c t cls := by
  unfold LineForm.ofWords at h
  split at h
  · rename_i hm
    cases h
    exact .metatag hu hm
  rename_i hm
  rw [Bool.not_eq_true] at hm
  split at h
  · rename_i hi
    cases h
    exact .importLine hu hm hi
  rename_i hi
  rw [Bool.not_eq_true] at hi
  split at h
  · rename_i k hh
    cases h
    exact .header hu hm hi hh
  rename_i hh
  split at h
  · rename_i hs
    obtain ⟨s, hs⟩ := Option.isSome_iff_exists.mp hs
    cases h
    exact .step hu hm hi hh hs
  · cases h

theorem ownClass_of_form {cls : LineClass} (hf : Fence.of? t = none)
    (h : (LineForm.of c t).ownClass? = some cls) : OwnClass c t cls := by
  simp only [LineForm.of, hf] at h
  split at h
  · rename_i he
    cases h
    exact .blank (String.isEmpty_iff.mp he)
  rename_i he
  split at h
  · rename_i hc
    cases h
    exact .comment hc
  rename_i hc
  split at h
  · rename_i ha
    cases h
    exact .tag ha
  rename_i ha
  split at h
  · rename_i hb
    cases h
    exact .table hb
  rename_i hb
  rw [String.isEmpty_iff] at he
  rw [Bool.not_eq_true] at hc ha hb
  exact ownClass_of_words ⟨he, hf, hc, ha, hb⟩ h

theorem LineForm.of_fence {f : Fence} (h : Fence.of? t = some f) : LineForm.of c t = .fence f := by
  have he : t.isEmpty = false := by
    rw [← Bool.not_eq_true, String.isEmpty_iff]
    rintro rfl
    cases h
  simp only [LineForm.of, he, h, Bool.false_eq_true, if_false]

theorem LineForm.of_header {k : Keyword} (hu : Unmarked t) (hm : c.isMetatag t = false)
    (hi : c.isImportLine t = false) (hh : c.lexicon.findHeader? t = some k) :
    LineForm.of c t = .header k.kind := by
  simp only [LineForm.of_unmarked hu, LineForm.ofWords, hm, hi, hh, Bool.false_eq_true, if_false]

end

inductive LineStep (c : Configuration) (before : LineContext) (t : String) :
    LineClass → LineContext → Prop
  | inside {f : Fence} : before.fence = some f →
      LineStep c before t .docString
        (if Text.startsWith f.mark t then { before with fence := none } else before)
  | opening {f : Fence} : before.fence = none → Fence.of? t = some f →
      LineStep c before t .docString { before with fence := some f }
  | own {cls : LineClass} : before.fence = none → Fence.of? t = none → OwnClass c t cls →
      cls ≠ .header → cls ≠ .step → LineStep c before t cls before
  | header {k : Keyword} : before.fence = none → Fence.of? t = none → OwnClass c t .header →
      c.lexicon.findHeader? t = some k →
      LineStep c before t .header { before with inDescription := k.kind.takesDescription }
  | step : before.fence = none → Fence.of? t = none → OwnClass c t .step →
      LineStep c before t .step { before with inDescription := false }
  | free : before.fence = none → Fence.of? t = none → (∀ own, ¬OwnClass c t own) →
      LineStep c before t
        (if before.inDescription && !c.opensWithNearMiss t then .description else .unknown) before

theorem LineForm.of_ne_fence {c : Configuration} {t : String} (h : Fence.of? t = none) (f : Fence) :
    LineForm.of c t ≠ .fence f := by
  simp only [LineForm.of, LineForm.ofWords, h]
  repeat' split
  all_goals exact fun he => by cases he

theorem lineStep_classifyForm {c : Configuration} {before : LineContext} {t : String}
    (hb : before.fence = none) (hf : Fence.of? t = none) :
    LineStep c before t (before.classifyForm c t (.of c t)).1
      (before.classifyForm c t (.of c t)).2 := by
  have hown : ∀ cls, (LineForm.of c t).ownClass? = some cls → OwnClass c t cls :=
    fun _ => ownClass_of_form hf
  cases hl : LineForm.of c t with
  | fence f => exact absurd hl (LineForm.of_ne_fence hf f)
  | header kind =>
      have hh : OwnClass c t .header := hown .header (by rw [hl]; rfl)
      cases hh with
      | header hu hm hi hk =>
          rw [LineForm.of_header hu hm hi hk] at hl
          cases hl
          exact .header hb hf (.header hu hm hi hk) hk
  | free =>
      have hnone : ∀ own, ¬OwnClass c t own := by
        intro own ho
        have h := ho.form hf
        rw [hl] at h
        cases h
      have h := LineStep.free hb hf hnone
      cases hd : before.inDescription && !c.opensWithNearMiss t with
      | true =>
          rw [hd] at h
          simp only [LineContext.classifyForm, hd, if_true]
          exact h
      | false =>
          rw [hd] at h
          simp only [LineContext.classifyForm, hd, Bool.false_eq_true, if_false]
          exact h
  | step => exact .step hb hf (hown _ (by rw [hl]; rfl))
  | blank => exact .own hb hf (hown _ (by rw [hl]; rfl)) nofun nofun
  | comment => exact .own hb hf (hown _ (by rw [hl]; rfl)) nofun nofun
  | tag => exact .own hb hf (hown _ (by rw [hl]; rfl)) nofun nofun
  | table => exact .own hb hf (hown _ (by rw [hl]; rfl)) nofun nofun
  | metatag => exact .own hb hf (hown _ (by rw [hl]; rfl)) nofun nofun
  | importLine => exact .own hb hf (hown _ (by rw [hl]; rfl)) nofun nofun

theorem lineStep_classify (c : Configuration) (before : LineContext) (line : String) :
    LineStep c before (Text.trim line) (before.classify c line).1 (before.classify c line).2 := by
  unfold LineContext.classify
  dsimp only
  generalize Text.trim line = t
  cases hb : before.fence with
  | some f => exact .inside hb
  | none =>
      dsimp only
      cases hf : Fence.of? t with
      | some f =>
          rw [LineForm.of_fence hf]
          exact .opening hb hf
      | none => exact lineStep_classifyForm hb hf

/-- The fence that is open after a line. -/
def Fence.next (t : String) : Option Fence → Option Fence
  | some f => if Text.startsWith f.mark t then none else some f
  | none => Fence.of? t

theorem LineStep.fence_eq {c : Configuration} {before after : LineContext} {t : String}
    {cls : LineClass} (h : LineStep c before t cls after) :
    after.fence = Fence.next t before.fence := by
  cases h with
  | inside hb =>
      rw [hb, Fence.next]
      split
      · rfl
      · exact hb
  | opening hb hf => rw [hb, Fence.next, hf]
  | own hb hf _ _ _ => rw [hb, Fence.next, hf]
  | header hb hf _ _ => exact hb.trans (by rw [hb, Fence.next, hf])
  | step hb hf _ => exact hb.trans (by rw [hb, Fence.next, hf])
  | free hb hf _ => rw [hb, Fence.next, hf]

theorem Kind.takesDescription_iff (k : Kind) :
    k.takesDescription = true ↔ k = .feature ∨ k = .rule := by
  cases k <;> simp [Kind.takesDescription]

/-! ## All lines above a position -/

namespace Document
variable (c : Configuration) (d : Document)

/-- The context that the lines above a position leave. -/
def contextAt (i : Nat) : LineContext :=
  (d.lines.take i).foldl (fun before line => (before.classify c line).2) .start

def classAt? (i : Nat) : Option LineClass :=
  (d.classes c)[i]?

/-- The nearest heading or step line above a position is the heading of a feature or a rule. -/
def Described (i : Nat) : Prop :=
  ∃ j line k, j < i ∧ d.lines[j]? = some line ∧ d.classAt? c j = some .header ∧
    c.lexicon.findHeader? (Text.trim line) = some k ∧ (k.kind = .feature ∨ k.kind = .rule) ∧
    ∀ m, j < m → m < i → d.classAt? c m ≠ some .header ∧ d.classAt? c m ≠ some .step

theorem classifyAll_getElem? (before : LineContext) (lines : List String) (i : Nat) :
    (before.classifyAll c lines)[i]? = lines[i]?.map fun line =>
      (((lines.take i).foldl (fun before line => (before.classify c line).2) before).classify
        c line).1 := by
  induction lines generalizing before i with
  | nil => rfl
  | cons line lines ih =>
      cases i with
      | zero => rfl
      | succ i =>
          simp only [LineContext.classifyAll, List.getElem?_cons_succ, List.take_succ_cons,
            List.foldl_cons]
          exact ih _ i

theorem classAt?_eq (i : Nat) :
    d.classAt? c i = d.lines[i]?.map fun line => ((d.contextAt c i).classify c line).1 :=
  classifyAll_getElem? c .start d.lines i

variable {c d} {i : Nat} {line : String}

theorem contextAt_succ (h : d.lines[i]? = some line) :
    d.contextAt c (i + 1) = ((d.contextAt c i).classify c line).2 := by
  rw [contextAt, List.take_add_one, h, List.foldl_append]
  rfl

/-- The step of the line at a position, from the context above it to the one below. -/
theorem lineStep_at (h : d.lines[i]? = some line) :
    ∃ cls, d.classAt? c i = some cls ∧
      LineStep c (d.contextAt c i) (Text.trim line) cls (d.contextAt c (i + 1)) := by
  refine ⟨((d.contextAt c i).classify c line).1, ?_, ?_⟩
  · rw [classAt?_eq, h]
    rfl
  · rw [contextAt_succ h]
    exact lineStep_classify c _ line

theorem fencedBy_step (h : d.lines[i]? = some line) {before : Option Fence}
    (hb : ∀ f, before = some f ↔ d.FencedBy i f) (f : Fence) :
    Fence.next (Text.trim line) before = some f ↔ d.FencedBy (i + 1) f := by
  have hfence : d.fenceAt? i = Fence.of? (Text.trim line) := by
    rw [fenceAt?, h, Option.bind_some]
  rw [fencedBy_succ_iff, opensAt_iff, hfence]
  cases before with
  | some g =>
      have hg : d.FencedBy i g := (hb g).mp rfl
      have hshows : d.showsFence g i = Text.startsWith g.mark (Text.trim line) := by
        rw [showsFence, h]
      have hno : ¬(Fence.of? (Text.trim line) = some f ∧ ∀ g, ¬d.FencedBy i g) :=
        fun ho => ho.2 g hg
      rw [or_iff_right hno, ← hb, Option.some.injEq, Fence.next]
      cases hw : Text.startsWith g.mark (Text.trim line) with
      | true =>
          rw [hw] at hshows
          simp only [if_true, reduceCtorEq, false_iff]
          rintro ⟨rfl, hs⟩
          rw [hshows] at hs
          cases hs
      | false =>
          rw [hw] at hshows
          simp only [Bool.false_eq_true, if_false, Option.some.injEq]
          constructor
          · rintro rfl
            exact ⟨rfl, hshows⟩
          · exact And.left
  | none =>
      have hno : ∀ g, ¬d.FencedBy i g := fun g hg => by cases (hb g).mpr hg
      exact ⟨fun ho => .inl ⟨ho, hno⟩, fun ho => ho.elim And.left fun ho => absurd ho.1 (hno f)⟩

/-- The open fence in the context is the one that the position lies behind. -/
theorem contextAt_fence (hi : i ≤ d.lines.length) (f : Fence) :
    (d.contextAt c i).fence = some f ↔ d.FencedBy i f := by
  induction i generalizing f with
  | zero => exact ⟨nofun, fun h => absurd h (d.not_fencedBy_zero f)⟩
  | succ i ih =>
      have hline := List.getElem?_eq_getElem (Nat.lt_of_succ_le hi)
      obtain ⟨cls, _, hstep⟩ := lineStep_at (c := c) hline
      rw [hstep.fence_eq]
      exact fencedBy_step hline (ih (Nat.le_of_succ_le hi)) f

/-- A line that is neither heading nor step does not count for the lines below it. -/
theorem described_succ_of_ne (hh : d.classAt? c i ≠ some .header)
    (hs : d.classAt? c i ≠ some .step) : d.Described c (i + 1) ↔ d.Described c i := by
  constructor
  · rintro ⟨j, line, k, hj, hline, hcls, hk, hkind, hnone⟩
    have hji : j ≠ i := by
      rintro rfl
      exact hh hcls
    exact ⟨j, line, k, by omega, hline, hcls, hk, hkind, fun m hjm hmi => hnone m hjm (by omega)⟩
  · rintro ⟨j, line, k, hj, hline, hcls, hk, hkind, hnone⟩
    refine ⟨j, line, k, by omega, hline, hcls, hk, hkind, fun m hjm hmi => ?_⟩
    rcases Nat.lt_succ_iff_lt_or_eq.mp hmi with hmi | rfl
    · exact hnone m hjm hmi
    · exact ⟨hh, hs⟩

theorem described_succ_of_header {k : Keyword} (h : d.lines[i]? = some line)
    (hcls : d.classAt? c i = some .header)
    (hk : c.lexicon.findHeader? (Text.trim line) = some k) :
    d.Described c (i + 1) ↔ k.kind = .feature ∨ k.kind = .rule := by
  constructor
  · rintro ⟨j, line', k', hj, hline, _, hk', hkind, hnone⟩
    rcases Nat.lt_succ_iff_lt_or_eq.mp hj with hj | rfl
    · exact absurd hcls (hnone i hj (Nat.lt_succ_self i)).1
    · rw [h, Option.some.injEq] at hline
      rw [← hline, hk, Option.some.injEq] at hk'
      rwa [hk']
  · intro hkind
    exact ⟨i, line, k, Nat.lt_succ_self i, h, hcls, hk, hkind, fun m him hmi => by omega⟩

theorem not_described_succ_of_step (hcls : d.classAt? c i = some .step) :
    ¬d.Described c (i + 1) := by
  rintro ⟨j, line, k, hj, hline, hh, hk, hkind, hnone⟩
  rcases Nat.lt_succ_iff_lt_or_eq.mp hj with hj | rfl
  · exact (hnone i hj (Nat.lt_succ_self i)).2 hcls
  · rw [hcls] at hh
    cases hh

/-- The context knows what the nearest heading or step line above the position is. -/
theorem contextAt_inDescription (hi : i ≤ d.lines.length) :
    (d.contextAt c i).inDescription = true ↔ d.Described c i := by
  induction i with
  | zero =>
      constructor
      · exact nofun
      · rintro ⟨j, _, _, hj, _⟩
        exact absurd hj (Nat.not_lt_zero j)
  | succ i ih =>
      have hline := List.getElem?_eq_getElem (Nat.lt_of_succ_le hi)
      have ih := ih (Nat.le_of_succ_le hi)
      obtain ⟨cls, hcls, hstep⟩ := lineStep_at (c := c) hline
      generalize d.contextAt c (i + 1) = after at hstep ⊢
      have hkeep : after.inDescription = (d.contextAt c i).inDescription → cls ≠ .header →
          cls ≠ .step → (after.inDescription = true ↔ d.Described c (i + 1)) := by
        intro ha hh hs
        have hh' : d.classAt? c i ≠ some .header := fun he => hh (Option.some.inj (hcls ▸ he))
        have hs' : d.classAt? c i ≠ some .step := fun he => hs (Option.some.inj (hcls ▸ he))
        rw [ha, ih, described_succ_of_ne hh' hs']
      cases hstep with
      | inside _ => exact hkeep (by split <;> rfl) nofun nofun
      | opening _ _ => exact hkeep rfl nofun nofun
      | own _ _ _ hh hs => exact hkeep rfl hh hs
      | free _ _ _ => exact hkeep rfl (by split <;> nofun) (by split <;> nofun)
      | header _ _ _ hk => rw [described_succ_of_header hline hcls hk, Kind.takesDescription_iff]
      | step _ _ _ => exact ⟨nofun, fun hd => absurd hd (not_described_succ_of_step hcls)⟩

theorem not_fencedBy_of_fence (hi : i ≤ d.lines.length) (h : (d.contextAt c i).fence = none)
    (f : Fence) : ¬d.FencedBy i f := by
  intro hf
  rw [← contextAt_fence (c := c) hi, h] at hf
  cases hf

theorem not_inDocString_of_fence (h : d.lines[i]? = some line)
    (hb : (d.contextAt c i).fence = none) (hf : Fence.of? (Text.trim line) = none) :
    ¬d.InDocString i := by
  have hi : i < d.lines.length := (List.getElem?_eq_some_iff.mp h).1
  rintro (⟨f, ho⟩ | ⟨f, ho⟩)
  · have hfence := ((d.opensAt_iff i f).mp ho).1
    rw [fenceAt?, h, Option.bind_some, hf] at hfence
    cases hfence
  · exact not_fencedBy_of_fence (Nat.le_of_lt hi) hb f ho

/-- The class of a line, read off the document: what a docstring holds is docstring, a
line with a class of its own has that class, and a free line is description or unknown. -/
theorem classAt?_cases (h : d.lines[i]? = some line) :
    (d.InDocString i ∧ d.classAt? c i = some .docString) ∨
      (¬d.InDocString i ∧
        ((∃ own, OwnClass c (Text.trim line) own ∧ d.classAt? c i = some own) ∨
          ((∀ own, ¬OwnClass c (Text.trim line) own) ∧
            ((d.Described c i ∧ c.opensWithNearMiss (Text.trim line) = false ∧
                d.classAt? c i = some .description) ∨
              (¬(d.Described c i ∧ c.opensWithNearMiss (Text.trim line) = false) ∧
                d.classAt? c i = some .unknown))))) := by
  have hi : i ≤ d.lines.length := Nat.le_of_lt (List.getElem?_eq_some_iff.mp h).1
  obtain ⟨cls, hcls, hstep⟩ := lineStep_at (c := c) h
  generalize d.contextAt c (i + 1) = after at hstep
  rw [hcls]
  cases hstep with
  | inside hb => exact .inl ⟨.inr ⟨_, (contextAt_fence hi _).mp hb⟩, rfl⟩
  | @opening f hb hf =>
      have ho : d.fenceAt? i = some f := by rw [fenceAt?, h, Option.bind_some, hf]
      exact .inl ⟨.inl ⟨f, (d.opensAt_iff i f).mpr ⟨ho, not_fencedBy_of_fence hi hb⟩⟩, rfl⟩
  | own hb hf ho _ _ => exact .inr ⟨not_inDocString_of_fence h hb hf, .inl ⟨_, ho, rfl⟩⟩
  | header hb hf ho _ => exact .inr ⟨not_inDocString_of_fence h hb hf, .inl ⟨_, ho, rfl⟩⟩
  | step hb hf ho => exact .inr ⟨not_inDocString_of_fence h hb hf, .inl ⟨_, ho, rfl⟩⟩
  | free hb hf ho =>
      refine .inr ⟨not_inDocString_of_fence h hb hf, .inr ⟨ho, ?_⟩⟩
      rw [← contextAt_inDescription hi]
      cases (d.contextAt c i).inDescription with
      | false => exact .inr ⟨nofun, rfl⟩
      | true =>
          cases c.opensWithNearMiss (Text.trim line) with
          | false => exact .inl ⟨rfl, rfl, rfl⟩
          | true => exact .inr ⟨nofun, rfl⟩

theorem fence_of_not_inDocString (h : d.lines[i]? = some line) (hd : ¬d.InDocString i) :
    Fence.of? (Text.trim line) = none := by
  cases hf : Fence.of? (Text.trim line) with
  | none => rfl
  | some f =>
      have ho : d.fenceAt? i = some f := by rw [fenceAt?, h, Option.bind_some, hf]
      exact absurd (.inl ⟨f, (d.opensAt_iff i f).mpr ⟨ho, fun g hg => hd (.inr ⟨g, hg⟩)⟩⟩) hd

theorem classAt?_eq_docString_iff (h : d.lines[i]? = some line) :
    d.classAt? c i = some .docString ↔ d.InDocString i := by
  rcases classAt?_cases (c := c) h with ⟨hd, hc⟩ | ⟨hd, ⟨own, ho, hc⟩ | ⟨_, ⟨_, _, hc⟩ | ⟨_, hc⟩⟩⟩
  · simp [hd, hc]
  · simp [hd, hc, ho.ne_docString]
  · simp [hd, hc]
  · simp [hd, hc]

theorem classAt?_of_ownClass (h : d.lines[i]? = some line) (hd : ¬d.InDocString i)
    {own : LineClass} (ho : OwnClass c (Text.trim line) own) : d.classAt? c i = some own := by
  rcases classAt?_cases (c := c) h with ⟨hin, _⟩ | ⟨_, ⟨cls, hcls, hc⟩ | ⟨hno, _⟩⟩
  · exact absurd hin hd
  · rw [hc, ho.unique hcls (fence_of_not_inDocString h hd)]
  · exact absurd ho (hno own)

theorem classAt?_of_free (h : d.lines[i]? = some line) (hd : ¬d.InDocString i)
    (hno : ∀ own, ¬OwnClass c (Text.trim line) own) :
    (d.classAt? c i = some .description ↔
        d.Described c i ∧ c.opensWithNearMiss (Text.trim line) = false) ∧
      (d.classAt? c i = some .unknown ↔
        ¬(d.Described c i ∧ c.opensWithNearMiss (Text.trim line) = false)) := by
  rcases classAt?_cases (c := c) h with
    ⟨hin, _⟩ | ⟨_, ⟨own, ho, _⟩ | ⟨_, ⟨hdesc, hnear, hc⟩ | ⟨hnot, hc⟩⟩⟩
  · exact absurd hin hd
  · exact absurd ho (hno own)
  · simp [hc, hdesc, hnear]
  · rw [hc]
    exact ⟨⟨nofun, fun hyes => absurd hyes hnot⟩, ⟨fun _ => hnot, fun _ => rfl⟩⟩

end Document
end Stepwise
