import Stepwise.Configuration.Basic

/-!
# Looking up steps by shape

The index of shapes holds positions in the list of steps and is kept beside that
list. For every configuration that the operations can build the two belong
together, so that looking up a text by the index is searching the list: the first
step whose key has the shape of the text.
-/
namespace Stepwise

namespace ShapeIndex

theorem lookup_add (entries : List (String × Nat)) (key : String) (position : Nat)
    (shape : String) :
    (add entries key position).lookup shape =
      (entries.lookup shape).or (if key == shape then some position else none) := by
  unfold add
  by_cases hk : key = shape
  · subst hk
    cases hl : entries.lookup key with
    | none =>
        have hn : entries.any (·.1 == key) = false := by
          rw [List.any_eq_false]
          intro e he
          have hne := List.lookup_eq_none_iff.mp hl e he
          rw [beq_iff_eq]
          exact (bne_iff_ne.mp hne).symm
        rw [hn]
        simp [List.lookup_append, hl]
    | some n =>
        have ha : entries.any (·.1 == key) = true := by
          obtain ⟨before, after, rfl, _⟩ := List.lookup_eq_some_iff.mp hl
          simp
        rw [ha]
        simp [hl]
  · have hb : (key == shape) = false := beq_false_of_ne hk
    have hs : (shape == key) = false := beq_false_of_ne (Ne.symm hk)
    split
    · simp [hb]
    · simp [List.lookup_append, hb, List.lookup_cons, hs]

/-- An index built on another one finds the old entries first, and else the first new key
of the shape. -/
theorem lookup_ofKeys (entries : List (String × Nat)) (position : Nat) (keys : List String)
    (shape : String) :
    (ofKeys entries position keys).lookup shape =
      (entries.lookup shape).or
        ((keys.findIdx? fun key => Step.shape key == shape).map (· + position)) := by
  induction keys generalizing entries position with
  | nil => simp [ofKeys]
  | cons key keys ih =>
      rw [ofKeys, ih, lookup_add, List.findIdx?_cons, Option.or_assoc]
      congr 1
      split
      · simp
      · simp only [Option.none_or, Option.map_map]
        congr 1
        funext n
        simp only [Function.comp_apply]
        omega

end ShapeIndex

/-- Searching for a position and reading there is searching for the item. -/
theorem findIdx?_bind_getElem? {α : Type} (p : α → Bool) (l : List α) :
    ((l.findIdx? p).bind fun i => l[i]?) = l.find? p := by
  induction l with
  | nil => rfl
  | cons a l ih =>
      rw [List.findIdx?_cons, List.find?_cons]
      by_cases h : p a = true
      · simp [h]
      · simp only [h, Bool.false_eq_true, if_false]
        rw [← ih]
        cases l.findIdx? p <;> rfl

namespace Configuration

/-- The configurations that can be built: the first one, and any one with a part replaced. -/
inductive Reachable : Configuration → Prop
  | initial : Reachable .initial
  | withLexicon {c : Configuration} (lexicon : Lexicon) :
      Reachable c → Reachable (c.withLexicon lexicon)
  | withMetatags {c : Configuration} (metatags : List String) :
      Reachable c → Reachable (c.withMetatags metatags)
  | withSteps {c : Configuration} (steps : Steps) : Reachable c → Reachable (c.withSteps steps)
  | withVariables {c : Configuration} (vars : Variables) :
      Reachable c → Reachable (c.withVariables vars)
  | withImports {c : Configuration} (imports : Imports) :
      Reachable c → Reachable (c.withImports imports)
  | withMessages {c : Configuration} (messages : List (String × String)) :
      Reachable c → Reachable (c.withMessages messages)
  | withDirectives {c : Configuration} (directives : List String) :
      Reachable c → Reachable (c.withDirectives directives)

theorem Reachable.shapes_eq {c : Configuration} (h : c.Reachable) :
    c.shapes = .ofSteps c.steps := by
  induction h with
  | initial => rfl
  | withSteps steps _ _ => rfl
  | withLexicon _ _ ih => exact ih
  | withMetatags _ _ ih => exact ih
  | withVariables _ _ ih => exact ih
  | withImports _ _ ih => exact ih
  | withMessages _ _ ih => exact ih
  | withDirectives _ _ ih => exact ih

theorem Reachable.findStep?_eq_find? {c : Configuration} (h : c.Reachable) (text : String) :
    c.findStep? text = c.steps.all.find? fun s => Step.shape s.key == Step.shape text := by
  rw [findStep?, h.shapes_eq, ShapeIndex.position?, ShapeIndex.ofSteps, ShapeIndex.lookup_ofKeys,
    List.lookup_nil, Option.none_or, List.findIdx?_map]
  rw [← findIdx?_bind_getElem?]
  simp only [Nat.add_zero, Option.map_id']
  rfl

/-- Nothing is found exactly when no step has the shape of the text. -/
theorem Reachable.findStep?_eq_none_iff {c : Configuration} (h : c.Reachable) (text : String) :
    c.findStep? text = none ↔ ∀ s ∈ c.steps.all, Step.shape s.key ≠ Step.shape text := by
  rw [h.findStep?_eq_find?, List.find?_eq_none]
  simp only [beq_iff_eq, ne_eq]

end Configuration
end Stepwise
