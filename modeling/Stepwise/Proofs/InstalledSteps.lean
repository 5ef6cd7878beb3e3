import Mathlib.Data.List.Induction
import Stepwise.Proofs.StepLookup

/-!
# Steps after any changes

A configuration is changed one part at a time. Its steps are those installed last, whatever
else has changed since, and none before any are installed. A text is looked up among them in
their order: the first step whose key has the shape of the text answers. That the index of
shapes is of the same steps is an invariant of every single change.
-/
namespace Stepwise

inductive Change where
  | lexicon (lexicon : Lexicon)
  | metatags (metatags : List String)
  | steps (steps : Steps)
  | vars (vars : Variables)
  | imports (imports : Imports)
  | messages (messages : List (String × String))
  | directives (directives : List String)

def Change.steps? : Change → Option Steps
  | .steps s => some s
  | _ => none

namespace Configuration

def change (c : Configuration) : Change → Configuration
  | .lexicon lexicon => c.withLexicon lexicon
  | .metatags metatags => c.withMetatags metatags
  | .steps steps => c.withSteps steps
  | .vars vars => c.withVariables vars
  | .imports imports => c.withImports imports
  | .messages messages => c.withMessages messages
  | .directives directives => c.withDirectives directives

/-- The configuration after changes, the first of them made first. -/
def after (c : Configuration) (changes : List Change) : Configuration :=
  changes.foldl change c

theorem after_concat (c : Configuration) (changes : List Change) (e : Change) :
    c.after (changes ++ [e]) = (c.after changes).change e := by
  rw [after, List.foldl_append]
  rfl

theorem Reachable.change {c : Configuration} (h : c.Reachable) (e : Change) :
    (c.change e).Reachable := by
  cases e with
  | lexicon lexicon => exact h.withLexicon lexicon
  | metatags metatags => exact h.withMetatags metatags
  | steps steps => exact h.withSteps steps
  | vars vars => exact h.withVariables vars
  | imports imports => exact h.withImports imports
  | messages messages => exact h.withMessages messages
  | directives directives => exact h.withDirectives directives

theorem reachable_after (changes : List Change) : (initial.after changes).Reachable := by
  induction changes using List.reverseRecOn with
  | nil => exact .initial
  | append_singleton changes e ih =>
      rw [after_concat]
      exact ih.change e

theorem steps_change (c : Configuration) (e : Change) :
    (c.change e).steps = e.steps?.getD c.steps := by
  cases e <;> rfl

/-- The steps are those installed last. -/
theorem steps_after (changes : List Change) :
    (initial.after changes).steps = (changes.reverse.findSome? Change.steps?).getD .empty := by
  induction changes using List.reverseRecOn with
  | nil => rfl
  | append_singleton changes e ih =>
      rw [after_concat, steps_change, ih, List.reverse_concat, List.findSome?_cons]
      cases e.steps? <;> rfl

/-- After any changes a text finds the first step, in the order of the steps installed last,
whose key has the shape of the text, and nothing exactly when there is no such step. -/
theorem findStep?_first_of_shape (changes : List Change) (text : String) :
    let c := initial.after changes
    c.steps = (changes.reverse.findSome? Change.steps?).getD .empty ∧
      (∀ s, c.findStep? text = some s ↔ ∃ before after, c.steps.all = before ++ s :: after ∧
        Step.shape s.key = Step.shape text ∧
        ∀ b ∈ before, Step.shape b.key ≠ Step.shape text) ∧
      (c.findStep? text = none ↔ ∀ s ∈ c.steps.all, Step.shape s.key ≠ Step.shape text) := by
  intro c
  have hc : c.Reachable := reachable_after changes
  refine ⟨steps_after changes, fun s => ?_, hc.findStep?_eq_none_iff text⟩
  rw [hc.findStep?_eq_find?, List.find?_eq_some_iff_append]
  constructor
  · rintro ⟨hshape, before, after, hsplit, hbefore⟩
    refine ⟨before, after, hsplit, by simpa using hshape, fun b hb => ?_⟩
    simpa using hbefore b hb
  · rintro ⟨before, after, hsplit, hshape, hbefore⟩
    refine ⟨by simpa using hshape, before, after, hsplit, fun b hb => ?_⟩
    simpa using hbefore b hb

/-- A key declared again keeps its place before another key of the same shape. -/
example :
    let first : StepDefinition := { StepDefinition.blank with key := "I see <n>" }
    let second : StepDefinition := { StepDefinition.blank with key := "i see 5" }
    let again : StepDefinition := { first with label := "seen" }
    (initial.after [.steps (.ofList [first, second, again]), .directives []]).findStep?
      "I  see 'x'" = some again := by
  decide +kernel

end Configuration
end Stepwise
