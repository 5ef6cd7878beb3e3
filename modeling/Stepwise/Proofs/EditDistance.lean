import Mathlib.Order.Lattice.Nat
import Mathlib.Order.Bounds.Basic
import Stepwise.Proofs.EditScripts
import Stepwise.Proofs.NearestKeyword

/-!
# The distance never understates

The true distance of two texts is the least number of characters that have to be inserted,
deleted or replaced, one after the other, to turn the one into the other. The distance that is
used is the cost of a script that was found quickly, and the script may be longer than it has
to be. But its cost can be carried out: between two kept pieces the deleted characters are
replaced by inserted ones as far as both go, and those left over are deleted or inserted. So
the cost is never below the true distance, and it is zero only for equal texts.

A keyword is proposed for a mistyped word when their distance is at most two. It is then no
more than two edits away.
-/
namespace Stepwise.Diff

inductive Alters : List Char → List Char → Prop
  | insert (before after : List Char) (c : Char) : Alters (before ++ after) (before ++ c :: after)
  | delete (before after : List Char) (c : Char) : Alters (before ++ c :: after) (before ++ after)
  | replace (before after : List Char) (c d : Char) :
      Alters (before ++ c :: after) (before ++ d :: after)

/-- A text is turned into another by a number of alterations, one after the other. -/
inductive AltersIn : Nat → List Char → List Char → Prop
  | refl (a : List Char) : AltersIn 0 a a
  | step {n : Nat} {a b c : List Char} : AltersIn n a b → Alters b c → AltersIn (n + 1) a c

/-- The least number of alterations that turn a text into another. -/
noncomputable def editDistance (a b : List Char) : Nat :=
  sInf {n | AltersIn n a b}

section
variable {m n : Nat} {a b c d : List Char}

theorem Alters.around (h : Alters a b) (start ending : List Char) :
    Alters (start ++ a ++ ending) (start ++ b ++ ending) := by
  cases h with
  | insert before after c => simpa using Alters.insert (start ++ before) (after ++ ending) c
  | delete before after c => simpa using Alters.delete (start ++ before) (after ++ ending) c
  | replace before after c d =>
      simpa using Alters.replace (start ++ before) (after ++ ending) c d

theorem AltersIn.around (h : AltersIn n a b) (start ending : List Char) :
    AltersIn n (start ++ a ++ ending) (start ++ b ++ ending) := by
  induction h with
  | refl a => exact .refl _
  | step _ hlast ih => exact ih.step (hlast.around start ending)

theorem AltersIn.trans (h : AltersIn m a b) (h' : AltersIn n b c) : AltersIn (m + n) a c := by
  induction h' with
  | refl => exact h
  | step _ hlast ih => exact (ih h).step hlast

theorem AltersIn.eq_of_zero (h : AltersIn 0 a b) : a = b := by
  cases h
  rfl

/-- Texts side by side are altered one after the other. -/
theorem AltersIn.append (h : AltersIn m a b) (h' : AltersIn n c d) :
    AltersIn (m + n) (a ++ c) (b ++ d) := by
  have hleft := h.around [] c
  have hright := h'.around b []
  rw [List.append_nil, List.append_nil] at hright
  exact hleft.trans hright

theorem alters_replace (c d : Char) : AltersIn 1 [c] [d] :=
  (AltersIn.refl [c]).step (.replace [] [] c d)

theorem altersIn_insertAll (t : List Char) : AltersIn t.length [] t := by
  induction t with
  | nil => exact .refl []
  | cons c t ih => exact ih.step (.insert [] t c)

theorem altersIn_deleteAll (t : List Char) : AltersIn t.length t [] := by
  induction t with
  | nil => exact .refl []
  | cons c t ih =>
      have hfirst : AltersIn 1 (c :: t) t := (AltersIn.refl (c :: t)).step (.delete [] t c)
      rw [List.length_cons, Nat.add_comm]
      exact hfirst.trans ih

/-- A text is replaced character by character, and what is left over is deleted or inserted. -/
theorem altersIn_replaceAll (a b : List Char) : AltersIn (max b.length a.length) a b := by
  induction a generalizing b with
  | nil =>
      rw [List.length_nil, Nat.max_zero]
      exact altersIn_insertAll b
  | cons c a ih =>
      cases b with
      | nil =>
          rw [List.length_nil, Nat.zero_max]
          exact altersIn_deleteAll (c :: a)
      | cons d b =>
          rw [List.length_cons, List.length_cons, Nat.add_max_add_right, Nat.add_comm]
          exact (alters_replace c d).append (ih b)

/-- The cost of a script can be carried out: `x` and `y` are the characters deleted and
inserted since the last kept piece. -/
theorem altersIn_costFrom (x y : List Char) (script : List Edit) :
    AltersIn (costFrom y.length x.length script) (x ++ source script) (y ++ target script) := by
  induction script generalizing x y with
  | nil =>
      simp only [costFrom, source, target, List.flatMap_nil, List.append_nil]
      exact altersIn_replaceAll x y
  | cons e script ih =>
      cases e with
      | insert t =>
          have hmore := ih x (y ++ t)
          rw [List.length_append, List.append_assoc] at hmore
          exact hmore
      | delete t =>
          have hmore := ih (x ++ t) y
          rw [List.length_append, List.append_assoc] at hmore
          exact hmore
      | keep t =>
          have hrest : AltersIn (costFrom 0 0 script) (t ++ source script)
              (t ++ target script) := by
            simpa using (ih [] []).around t []
          exact (altersIn_replaceAll x y).append hrest

theorem altersIn_cost (script : List Edit) :
    AltersIn (cost script) (source script) (target script) :=
  altersIn_costFrom [] [] script

/-- The distance is the number of alterations of one way to turn the texts into each other. -/
theorem altersIn_distance (a b : String) : AltersIn (distance a b) a.toList b.toList := by
  have hscript := turns_script a.toList b.toList
  have hcost := altersIn_cost (script a.toList b.toList)
  rwa [hscript.source_eq, hscript.target_eq] at hcost

/-- The least number of alterations is enough, and no smaller number is. -/
theorem isLeast_editDistance (a b : List Char) :
    IsLeast {n | AltersIn n a b} (editDistance a b) := by
  have hsome : {n | AltersIn n a b}.Nonempty := ⟨_, altersIn_replaceAll a b⟩
  exact ⟨Nat.sInf_mem hsome, fun n hn => Nat.sInf_le hn⟩

theorem editDistance_le (h : AltersIn n a b) : editDistance a b ≤ n :=
  (isLeast_editDistance a b).2 h

end

theorem distance_self (a : String) : distance a a = 0 := by
  rw [distance, script, if_pos (beq_self_eq_true _), keepSome]
  split <;> rfl

theorem distance_eq_zero_iff {a b : String} : distance a b = 0 ↔ a = b := by
  constructor
  · intro hzero
    have hnone := altersIn_distance a b
    rw [hzero] at hnone
    exact String.toList_inj.mp hnone.eq_of_zero
  · intro heq
    rw [heq, distance_self]

/-- The distance of two texts is at least the least number of alterations that turn the one into
the other, and it is zero exactly for equal texts. A keyword that is taken for a mistyped word
is no more than two alterations away from the word, both without regard to case. -/
theorem distance_never_understates :
    (∀ a b : String,
      IsLeast {n | AltersIn n a.toList b.toList} (editDistance a.toList b.toList) ∧
        editDistance a.toList b.toList ≤ distance a b ∧ (distance a b = 0 ↔ a = b)) ∧
    ∀ (l : Lexicon) (word : String) (k : Keyword), l.nearMiss? word = some k →
      ∃ w, k.words = [w] ∧ editDistance (Text.fold word).toList (Text.fold w).toList ≤ 2 := by
  constructor
  · intro a b
    exact ⟨isLeast_editDistance _ _, editDistance_le (altersIn_distance a b),
      distance_eq_zero_iff⟩
  · intro l word k hk
    obtain ⟨_, _, n, -, ⟨w, hw, hn, hnear, -⟩, -⟩ := (l.nearMiss?_eq_some_iff word k).mp hk
    have hdistance := editDistance_le (altersIn_distance (Text.fold word) (Text.fold w))
    exact ⟨w, hw, Nat.le_trans hdistance (hn ▸ hnear)⟩

/-- The letters of `Gvien` can be put in order by two alterations. -/
theorem distance_never_understates_gvien :
    let l := Lexicon.ofPhrases [⟨"", .step, ["Given"]⟩]
    ∃ k, l.nearMiss? "Gvien" = some k ∧
      ∃ w, k.words = [w] ∧ editDistance (Text.fold "Gvien").toList (Text.fold w).toList ≤ 2 := by
  intro l
  have hsome : (l.nearMiss? "Gvien").isSome = true := by decide +kernel
  obtain ⟨k, hk⟩ := Option.isSome_iff_exists.mp hsome
  exact ⟨k, hk, distance_never_understates.2 l "Gvien" k hk⟩

/-- Two alterations are enough here, and the script has three. -/
example : distance "aab" "abaa" = 3 ∧ AltersIn 2 "aab".toList "abaa".toList :=
  ⟨by decide +kernel,
    ((AltersIn.refl _).step (.insert ['a'] ['a', 'b'] 'b')).step
      (.replace ['a', 'b', 'a'] [] 'b' 'a')⟩

end Stepwise.Diff
