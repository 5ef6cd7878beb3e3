import Stepwise.Proofs.FlaggedLines
import Stepwise.Proofs.JoinedWords

/-!
# Lexicons of declarations

Every lexicon in use is made of a list of declarations, so its parts fit each other:
an entry holds the lower-case words of its own keyword, a keyword has words, none of
them is longer than the lexicon is wide, and every language in use is listed.
-/
namespace Stepwise

/-- The lexicon of some declarations, as every lexicon in use is. -/
def Lexicon.Declared (l : Lexicon) : Prop :=
  ∃ phrases, l = ofPhrases phrases

structure Lexicon.Fits (l : Lexicon) (e : LexiconEntry) : Prop where
  lowered : e.lowered = e.keyword.lowered
  words_ne_nil : e.keyword.words ≠ []
  isWord : ∀ w ∈ e.keyword.words, Text.IsWord w.toList
  size_le : e.keyword.size ≤ l.width
  tag_mem : e.keyword.tag ∈ l.tags

theorem Phrase.keyword?_words {p : Phrase} {k : Keyword} (h : p.keyword? = some k) :
    k.words = p.plainWords ∧ k.words ≠ [] := by
  unfold keyword? at h
  split at h
  · cases h
  · cases h
  · rename_i hne _
    cases h
    exact ⟨rfl, hne⟩

theorem le_foldl_max {n : Nat} {ns : List Nat} (m : Nat) (h : n ∈ ns ∨ n ≤ m) :
    n ≤ ns.foldl max m := by
  induction ns generalizing m with
  | nil => exact h.resolve_left List.not_mem_nil
  | cons a ns ih =>
      refine ih (max m a) ?_
      rcases h with h | h
      · rcases List.mem_cons.mp h with rfl | h
        · exact .inr (Nat.le_max_right m n)
        · exact .inl h
      · exact .inr (Nat.le_trans h (Nat.le_max_left m a))

namespace Lexicon

/-- The entry of a keyword that is declared fits. -/
theorem fits_of_declared {phrases : List Phrase} {k : Keyword}
    (h : k ∈ phrases.filterMap Phrase.keyword?) : (ofPhrases phrases).Fits ⟨k, k.lowered⟩ := by
  obtain ⟨p, _, hp⟩ := List.mem_filterMap.mp h
  obtain ⟨hwords, hne⟩ := Phrase.keyword?_words hp
  refine ⟨rfl, hne, ?_, ?_, ?_⟩
  · intro w hw
    change w ∈ k.words at hw
    rw [hwords] at hw
    obtain ⟨entry, _, hw⟩ := List.mem_flatMap.mp hw
    exact Text.isWord_of_mem_words hw
  · exact le_foldl_max 0 (.inl (List.mem_map_of_mem h))
  · exact List.mem_eraseDups.mpr (List.mem_map_of_mem h)

theorem Declared.fits_step {l : Lexicon} (hl : l.Declared) {e : LexiconEntry}
    (h : e ∈ l.steps) : l.Fits e := by
  obtain ⟨phrases, rfl⟩ := hl
  obtain ⟨k, hk, rfl⟩ := List.mem_map.mp (List.mem_of_mem_filter h)
  exact fits_of_declared hk

theorem Declared.fits_header {l : Lexicon} (hl : l.Declared) {e : LexiconEntry}
    (h : e ∈ l.headers) : l.Fits e := by
  obtain ⟨phrases, rfl⟩ := hl
  obtain ⟨k, hk, rfl⟩ := List.mem_map.mp (List.mem_of_mem_filter h)
  exact fits_of_declared hk

/-- The words of a step keyword are words. -/
theorem Declared.isWord {l : Lexicon} (hl : l.Declared) {k : Keyword}
    (h : k ∈ l.stepKeywords) : ∀ w ∈ k.words, Text.IsWord w.toList := by
  obtain ⟨e, he, rfl⟩ := List.mem_map.mp h
  exact (hl.fits_step he).isWord

end Lexicon

namespace Session

theorem declared_step {s : Session} (h : s.configuration.lexicon.Declared) (e : SessionEvent) :
    (s.step e).configuration.lexicon.Declared := by
  have hstep : (s.step e).configuration.lexicon = _ := s.registry_step e .keywords
  rw [hstep]
  cases e.dataFor? .keywords with
  | none => exact h
  | some data => exact ⟨_, rfl⟩

/-- Every lexicon of a run is declared. -/
theorem declared_run (directives : List String) (events : List SessionEvent) :
    ((withDirectives directives).run events).configuration.lexicon.Declared := by
  have hstart : (withDirectives directives).configuration.lexicon.Declared := by
    refine ⟨[], ?_⟩
    unfold withDirectives
    split <;> rfl
  generalize withDirectives directives = s at hstart
  induction events generalizing s with
  | nil => exact hstart
  | cons e events ih => exact ih _ (declared_step hstart e)

end Session
end Stepwise
