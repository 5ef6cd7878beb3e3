import Mathlib.Data.List.TakeDrop
import Mathlib.Data.List.TakeWhile
import Stepwise.Step.Shape

/-!
# The characters of numbers

Whatever is read as a number is written with letters, digits, signs, points and underscores.
None of them is white space or a delimiter of placeholders, so a number in a text neither ends
a token nor opens one.
-/
namespace Stepwise.Number

/-- The characters that numbers are written with. -/
def IsNumeral (c : Char) : Prop :=
  ('0' ≤ c ∧ c ≤ '9') ∨ ('A' ≤ c ∧ c ≤ 'Z') ∨ ('a' ≤ c ∧ c ≤ 'z') ∨
    c ∈ ['+', '-', '.', ',', '_']

instance : DecidablePred IsNumeral :=
  fun _ => inferInstanceAs (Decidable (_ ∨ _))

section
variable {c : Char} {cs : List Char}

theorem IsNumeral.bounds (h : IsNumeral c) :
    43 ≤ c.toNat ∧ c.toNat ≤ 122 ∧ (c.toNat ≤ 57 ∨ 65 ≤ c.toNat) := by
  have hcodes : (48 ≤ c.toNat ∧ c.toNat ≤ 57) ∨ (65 ≤ c.toNat ∧ c.toNat ≤ 90) ∨
      (97 ≤ c.toNat ∧ c.toNat ≤ 122) ∨ c ∈ ['+', '-', '.', ',', '_'] := h
  rcases hcodes with hdigit | hupper | hlower | hsign
  · omega
  · omega
  · omega
  · simp only [List.mem_cons, List.not_mem_nil, or_false] at hsign
    rcases hsign with rfl | rfl | rfl | rfl | rfl <;> decide

theorem isNumeral_of_isDigit (h : c.isDigit = true) : IsNumeral c := by
  rw [Char.isDigit, Bool.and_eq_true, decide_eq_true_eq, decide_eq_true_eq] at h
  exact .inl h

/-- Lower case makes letters and digits of nothing else. -/
theorem isNumeral_of_lowerLetter (h : IsNumeral (lowerLetter c)) : IsNumeral c := by
  unfold lowerLetter at h
  split at h
  · rename_i hupper
    rw [Bool.and_eq_true, decide_eq_true_eq, decide_eq_true_eq] at hupper
    exact .inr (.inl hupper)
  · exact h

theorem isNumeral_of_digitValue? {base : Nat} (h : (digitValue? base c).isSome = true) :
    IsNumeral c := by
  obtain ⟨n, hn⟩ := Option.isSome_iff_exists.mp h
  obtain ⟨hvalue, -⟩ := Option.filter_eq_some_iff.mp hn
  apply isNumeral_of_lowerLetter
  split at hvalue
  · rename_i hdigit
    rw [Bool.and_eq_true, decide_eq_true_eq, decide_eq_true_eq] at hdigit
    exact .inl hdigit
  split at hvalue
  · rename_i hletter
    rw [Bool.and_eq_true, decide_eq_true_eq, decide_eq_true_eq] at hletter
    exact .inr (.inr (.inl hletter))
  · cases hvalue

/-! ## What is read as a number -/

theorem isNumeral_of_readExponent (h : (readExponent cs).isSome = true) :
    ∀ c ∈ cs, IsNumeral c := by
  unfold readExponent at h
  split at h
  rename_i negative digits hsign
  have hdigits : ∀ c ∈ digits, IsNumeral c := by
    split at h
    · exact fun _ hc => absurd hc List.not_mem_nil
    split at h
    · rename_i hall
      rw [Bool.and_eq_true, List.all_eq_true] at hall
      intro c hc
      rcases Bool.or_eq_true _ _ ▸ hall.2 c hc with hdigit | hunder
      · exact isNumeral_of_isDigit hdigit
      · exact beq_iff_eq.mp hunder ▸ by decide
    · cases h
  split at hsign
  all_goals cases hsign
  · exact List.forall_mem_cons.mpr ⟨by decide, hdigits⟩
  · exact List.forall_mem_cons.mpr ⟨by decide, hdigits⟩
  · exact hdigits

/-- Digits and underscores in front can be left out. -/
theorem isNumeral_of_span (base : Nat)
    (h : ∀ c ∈ (cs.span fun c => (digitValue? base c).isSome || c == '_').2, IsNumeral c) :
    ∀ c ∈ cs, IsNumeral c := by
  rw [List.span_eq_takeWhile_dropWhile] at h
  intro c hc
  rw [← List.takeWhile_append_dropWhile (p := fun c => (digitValue? base c).isSome || c == '_')
    (l := cs)] at hc
  rcases List.mem_append.mp hc with hc | hc
  · rcases Bool.or_eq_true _ _ ▸ List.mem_takeWhile_imp hc with hdigit | hunder
    · exact isNumeral_of_digitValue? hdigit
    · exact beq_iff_eq.mp hunder ▸ by decide
  · exact h c hc

/-- What stands behind the digits is nothing or an exponent with its mark. -/
theorem isNumeral_of_exponent {mark : Char} {whole : Option Parts} {parts : Int → Parts}
    (hmark : IsNumeral mark)
    (h : (match cs with
      | [] => whole
      | e :: rest =>
        if lowerLetter e == mark then (readExponent rest).map parts else none).isSome = true) :
    ∀ c ∈ cs, IsNumeral c := by
  cases cs with
  | nil => exact fun _ hc => absurd hc List.not_mem_nil
  | cons e rest =>
      dsimp only at h
      split at h
      · rename_i he
        rw [Option.isSome_map] at h
        refine List.forall_mem_cons.mpr ⟨isNumeral_of_lowerLetter ?_, ?_⟩
        · rwa [beq_iff_eq.mp he]
        · exact isNumeral_of_readExponent h
      · cases h

theorem isNumeral_of_readParts {base : Nat} {mark : Char} (hmark : IsNumeral mark)
    (h : (readParts base mark cs).isSome = true) : ∀ c ∈ cs, IsNumeral c := by
  refine isNumeral_of_span base ?_
  unfold readParts at h
  dsimp only at h
  split at h
  · rename_i rest hpoint
    rw [hpoint]
    split at h
    · cases h
    exact List.forall_mem_cons.mpr
      ⟨by decide, isNumeral_of_span base (isNumeral_of_exponent hmark h)⟩
  · split at h
    · cases h
    exact isNumeral_of_exponent hmark h

theorem isNumeral_of_parts? (h : (parts? cs).isSome = true) : ∀ c ∈ cs, IsNumeral c := by
  unfold parts? at h
  split at h
  · cases h
  split at h
  · rename_i x next rest hseparated
    split at h
    · rename_i hmark
      have hx : IsNumeral x := isNumeral_of_lowerLetter (by rw [beq_iff_eq.mp hmark]; decide)
      exact List.forall_mem_cons.mpr ⟨by decide,
        List.forall_mem_cons.mpr ⟨hx, isNumeral_of_readParts (by decide) h⟩⟩
    · exact isNumeral_of_readParts (by decide) h
  · exact isNumeral_of_readParts (by decide) h

theorem isNumeral_of_splitSign (h : ∀ c ∈ (splitSign cs).2, IsNumeral c) :
    ∀ c ∈ cs, IsNumeral c := by
  unfold splitSign at h
  split at h
  · exact List.forall_mem_cons.mpr ⟨by decide, h⟩
  · exact List.forall_mem_cons.mpr ⟨by decide, h⟩
  · exact h

theorem isNumeral_of_parseFloat? {text : String} (h : (parseFloat? text).isSome = true) :
    ∀ c ∈ text.toList, IsNumeral c := by
  obtain ⟨x, hx⟩ := Option.isSome_iff_exists.mp h
  unfold parseFloat? at hx
  obtain ⟨parts, hparts, -⟩ := Option.bind_eq_some_iff.mp hx
  exact isNumeral_of_splitSign (isNumeral_of_parts? (Option.isSome_of_eq_some hparts))

end
end Stepwise.Number

namespace Stepwise.Step
open Number (IsNumeral)

theorem isNumeral_of_pointForComma {cs : List Char}
    (h : ∀ c ∈ isNumber.pointForComma cs, IsNumeral c) : ∀ c ∈ cs, IsNumeral c := by
  induction cs with
  | nil => exact h
  | cons c cs ih =>
      unfold isNumber.pointForComma at h
      split at h
      · rename_i hcomma
        refine List.forall_mem_cons.mpr ⟨beq_iff_eq.mp hcomma ▸ by decide, ?_⟩
        exact (List.forall_mem_cons.mp h).2
      · obtain ⟨hc, hcs⟩ := List.forall_mem_cons.mp h
        exact List.forall_mem_cons.mpr ⟨hc, ih hcs⟩

theorem isNumeral_of_isNumber {word : String} (h : isNumber word = true) :
    ∀ c ∈ word.toList, IsNumeral c := by
  unfold isNumber at h
  have hdigits : ∀ c ∈ word.toList.dropWhile fun c => c == '+' || c == '-', IsNumeral c := by
    split at h
    · cases h
    · rename_i digits hword
      rw [Bool.and_eq_true] at h
      have hpoint := Number.isNumeral_of_parseFloat? h.2
      rw [String.toList_ofList] at hpoint
      exact hword ▸ isNumeral_of_pointForComma hpoint
  intro c hc
  rw [← List.takeWhile_append_dropWhile (p := fun c => c == '+' || c == '-')
    (l := word.toList)] at hc
  rcases List.mem_append.mp hc with hc | hc
  · rcases Bool.or_eq_true _ _ ▸ List.mem_takeWhile_imp hc with hplus | hminus
    · exact beq_iff_eq.mp hplus ▸ by decide
    · exact beq_iff_eq.mp hminus ▸ by decide
  · exact hdigits c hc

theorem ne_nil_of_isNumber {word : String} (h : isNumber word = true) : word.toList ≠ [] := by
  intro hnil
  rw [isNumber, hnil] at h
  cases h

end Stepwise.Step
