import Mathlib.Data.List.TakeWhile
import Stepwise.Text.Line

/-!
# The content of a line

A line is its indentation, its content and the white space after it. Trimming
leaves the content, the columns of a line span it, and the words of a line are the
words of its content. All of these go back to the one split of a line below.
-/
namespace Stepwise.Text

/-- The white space in front of the content. -/
def indentation (cs : List Char) : List Char :=
  cs.takeWhile isBlank

/-- The white space after the content. -/
def trailing (cs : List Char) : List Char :=
  (cs.reverse.takeWhile isBlank).reverse

theorem isBlank_of_mem_indentation {cs : List Char} {c : Char} (h : c ∈ indentation cs) :
    isBlank c = true :=
  List.mem_takeWhile_imp h

theorem isBlank_of_mem_trailing {cs : List Char} {c : Char} (h : c ∈ trailing cs) :
    isBlank c = true :=
  List.mem_takeWhile_imp (List.mem_reverse.mp h)

theorem indentation_append_trimStart (cs : List Char) : indentation cs ++ trimStart cs = cs :=
  List.takeWhile_append_dropWhile

theorem trimEnd_append_trailing (cs : List Char) : trimEnd cs ++ trailing cs = cs := by
  rw [trimEnd, trailing, trimStart, ← List.reverse_append, List.takeWhile_append_dropWhile,
    List.reverse_reverse]

/-- A line falls into indentation, content and the rest. -/
theorem split_line (cs : List Char) :
    indentation cs ++ trimBoth cs ++ trailing (trimStart cs) = cs := by
  rw [List.append_assoc, trimBoth, trimEnd_append_trailing, indentation_append_trimStart]

/-- White space in front of some content is kept by a trim at the end. -/
theorem trimEnd_append {cs ds : List Char} (h : trimEnd ds ≠ []) :
    trimEnd (cs ++ ds) = cs ++ trimEnd ds := by
  have hd : ds.reverse.dropWhile isBlank ≠ [] := fun he => h (by rw [trimEnd, trimStart, he]; rfl)
  have hempty : (ds.reverse.dropWhile isBlank).isEmpty = false := by
    rwa [List.isEmpty_eq_false_iff]
  rw [trimEnd, trimStart, List.reverse_append, List.dropWhile_append, hempty]
  simp only [Bool.false_eq_true, if_false, List.reverse_append, List.reverse_reverse]
  rfl

/-- The content begins where the line's first character that is no white space stands. -/
theorem firstContentFrom_eq (n : Nat) (cs : List Char) :
    firstContentFrom n cs = if trimStart cs = [] then 0 else n + (indentation cs).length := by
  induction cs generalizing n with
  | nil => rfl
  | cons c cs ih =>
      by_cases hc : isBlank c = true
      · have hs : trimStart (c :: cs) = trimStart cs := List.dropWhile_cons_of_pos hc
        have hi : indentation (c :: cs) = c :: indentation cs := List.takeWhile_cons_of_pos hc
        rw [firstContentFrom, if_pos hc, ih, hs, hi, List.length_cons, Nat.add_assoc,
          Nat.add_comm 1]
      · rw [firstContentFrom, if_neg hc]
        simp [trimStart, indentation, List.dropWhile_cons_of_neg hc,
          List.takeWhile_cons_of_neg hc]

section
variable {line : String}

theorem trim_eq_empty_iff : trim line = "" ↔ trimBoth line.toList = [] := by
  rw [trim, ← String.toList_inj, String.toList_ofList]
  rfl

theorem toList_trim : (trim line).toList = trimBoth line.toList :=
  String.toList_ofList

theorem minColumn_eq (h : trim line ≠ "") :
    minColumn line = (indentation line.toList).length + 1 := by
  have hs : trimStart line.toList ≠ [] := fun he => h (trim_eq_empty_iff.mpr (by rw [trimBoth, he]; rfl))
  rw [minColumn, firstContentFrom_eq, if_neg hs, Nat.add_comm]

theorem maxColumn_eq (h : trim line ≠ "") :
    maxColumn line = (indentation line.toList).length + (trim line).length + 1 := by
  have hb : trimEnd (trimStart line.toList) ≠ [] := fun he => h (trim_eq_empty_iff.mpr he)
  have he : trimEnd line.toList = indentation line.toList ++ (trim line).toList := by
    conv => lhs; rw [← indentation_append_trimStart line.toList]
    rw [trimEnd_append hb, toList_trim, trimBoth]
  have hne : trimEnd line.toList ≠ [] := by
    rw [he, toList_trim]
    exact List.append_ne_nil_of_right_ne_nil _ hb
  rw [maxColumn]
  split
  · contradiction
  · rw [he, List.length_append, String.length_toList]

/-- The columns of a line that has content lie inside it and span exactly that content. -/
theorem columns_span_content (h : trim line ≠ "") :
    1 ≤ minColumn line ∧ minColumn line < maxColumn line ∧ maxColumn line ≤ line.length + 1 ∧
      (line.toList.drop (minColumn line - 1)).take (maxColumn line - minColumn line) =
        (trim line).toList := by
  have hmin := minColumn_eq h
  have hmax := maxColumn_eq h
  have hsplit := split_line line.toList
  have hlen := congrArg List.length hsplit
  have hpos : 0 < (trim line).length := by
    rw [Nat.pos_iff_ne_zero, Ne, ← String.length_toList, List.length_eq_zero_iff, toList_trim]
    exact fun he => h (trim_eq_empty_iff.mpr he)
  simp only [List.length_append, String.length_toList, ← toList_trim] at hlen
  refine ⟨by omega, by omega, by omega, ?_⟩
  have hd : minColumn line - 1 = (indentation line.toList).length := by omega
  have ht : maxColumn line - minColumn line = (trim line).toList.length := by
    rw [String.length_toList]
    omega
  rw [hd, ht]
  generalize indentation line.toList = l at hsplit ⊢
  rw [← hsplit, List.append_assoc, List.drop_left, ← toList_trim, List.take_left]

end

/-- The words of a line by its first character. What follows a character that is no
white space matters only by its first character and its own words. -/
theorem wordsOf_cons (c : Char) (cs : List Char) :
    wordsOf (c :: cs) =
      if isBlank c then wordsOf cs
      else match cs, wordsOf cs with
        | d :: _, w :: ws => if isBlank d then [c] :: w :: ws else (c :: w) :: ws
        | _, ws => [c] :: ws :=
  wordsOf.eq_def (c :: cs)

theorem wordsOf_append_left {ls : List Char} (h : ∀ c ∈ ls, isBlank c = true) (cs : List Char) :
    wordsOf (ls ++ cs) = wordsOf cs := by
  induction ls with
  | nil => rfl
  | cons l ls ih =>
      rw [List.cons_append, wordsOf_cons, if_pos (h l List.mem_cons_self)]
      exact ih fun c hc => h c (List.mem_cons_of_mem l hc)

theorem wordsOf_of_blank {rs : List Char} (h : ∀ c ∈ rs, isBlank c = true) : wordsOf rs = [] := by
  rw [← List.append_nil rs, wordsOf_append_left h]
  rfl

theorem wordsOf_append_right (cs : List Char) {rs : List Char} (h : ∀ c ∈ rs, isBlank c = true) :
    wordsOf (cs ++ rs) = wordsOf cs := by
  induction cs with
  | nil => exact wordsOf_of_blank h
  | cons c cs ih =>
      rw [List.cons_append, wordsOf_cons, wordsOf_cons, ih]
      cases cs with
      | cons d ds =>
          generalize wordsOf (d :: ds) = ws
          cases ws <;> rfl
      | nil =>
          have hnil : wordsOf [] = [] := rfl
          rw [hnil]
          cases rs <;> rfl

/-- Trimming a line does not change its words. -/
theorem words_trim (line : String) : words (trim line) = words line := by
  rw [words, words, toList_trim]
  conv => rhs; rw [← split_line line.toList]
  rw [wordsOf_append_right _ fun c hc => isBlank_of_mem_trailing hc,
    wordsOf_append_left fun c hc => isBlank_of_mem_indentation hc]

end Stepwise.Text
