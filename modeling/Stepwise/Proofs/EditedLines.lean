import Stepwise.Document.Completion
import Stepwise.Document.Fixes
import Stepwise.Proofs.JoinedWords

/-!
# Lines after an edit

An edit replaces the columns of its span by its text. Every edit that is proposed for a
line leaves the indentation and the white space at the end of the line where they are:
it replaces the content, puts something in front of it, or replaces its first word. So
each of them gives the line with another content, and the words of such a line are the
words of that content.
-/
namespace Stepwise

namespace Text

/-- A line with the columns from `start` up to `stop` replaced by a text. -/
def replaceColumns (line : String) (start stop : Nat) (text : String) : String :=
  String.ofList (line.toList.take (start - 1) ++ text.toList ++ line.toList.drop (stop - 1))

/-- A line with another content between its indentation and the white space at its end. -/
def withContent (line content : String) : String :=
  String.ofList (indentation line.toList ++ content.toList ++ trailing line.toList)

end Text

/-- The line that an edit makes of a line. -/
def Edit.rewrite (e : Edit) (line : String) : String :=
  Text.replaceColumns line e.span.startColumn.toNat e.span.endColumn.toNat e.text

/-- What accepting an item does. -/
def CompletionItem.edit (i : CompletionItem) : Edit := ⟨i.span, i.insertText⟩

namespace Text

/-- Columns are those of a part of the line: what stands before the part and after it
stays. -/
theorem toList_replaceColumns {line : String} {before part after : List Char}
    (h : line.toList = before ++ part ++ after) {start stop : Nat}
    (hstart : start = before.length + 1) (hstop : stop = start + part.length) (text : String) :
    (replaceColumns line start stop text).toList = before ++ text.toList ++ after := by
  subst hstart hstop
  have htake : line.toList.take (before.length + 1 - 1) = before := by
    rw [h, List.append_assoc, Nat.add_sub_cancel, List.take_left]
  have hdrop : line.toList.drop (before.length + 1 + part.length - 1) = after := by
    have hlen : before.length + 1 + part.length - 1 = (before ++ part).length := by
      rw [List.length_append]
      omega
    rw [hlen, h, List.drop_left]
  rw [replaceColumns, String.toList_ofList, htake, hdrop]

section
variable {line : String}

/-- A line that has content is its indentation, its content and the white space after it. -/
theorem line_eq (h : trim line ≠ "") :
    line.toList = indentation line.toList ++ (trim line).toList ++ trailing line.toList := by
  have hb : trimEnd (trimStart line.toList) ≠ [] := fun he => h (trim_eq_empty_iff.mpr he)
  have he : trimEnd line.toList = indentation line.toList ++ (trim line).toList := by
    conv => lhs; rw [← indentation_append_trimStart line.toList]
    rw [trimEnd_append hb, toList_trim, trimBoth]
  rw [← he, trimEnd_append_trailing]

theorem toList_withContent (content : String) : (withContent line content).toList =
    indentation line.toList ++ content.toList ++ trailing line.toList :=
  String.toList_ofList

theorem words_withContent (content : String) : words (withContent line content) = words content := by
  rw [words, words, toList_withContent,
    wordsOf_append_right _ fun _ hc => isBlank_of_mem_trailing hc,
    wordsOf_append_left fun _ hc => isBlank_of_mem_indentation hc]

/-- The part of a line that an edit of its content replaces. -/
theorem replaceColumns_content (h : trim line ≠ "") {part rest : List Char}
    (hpart : (trim line).toList = part ++ rest) (text : String) :
    replaceColumns line (minColumn line) (minColumn line + part.length) text =
      withContent line (text ++ String.ofList rest) := by
  have hline : line.toList = indentation line.toList ++ part ++ (rest ++ trailing line.toList) := by
    conv => lhs; rw [line_eq h, hpart]
    simp only [List.append_assoc]
  rw [← String.toList_inj, toList_replaceColumns hline (minColumn_eq h) rfl, toList_withContent,
    String.toList_append, String.toList_ofList]
  simp only [List.append_assoc]

/-- The columns of the content make way for a text. -/
theorem replaceColumns_trim (h : trim line ≠ "") (text : String) :
    replaceColumns line (minColumn line) (maxColumn line) text = withContent line text := by
  have hstop : maxColumn line = minColumn line + (trim line).toList.length := by
    rw [minColumn_eq h, maxColumn_eq h, String.length_toList]
    omega
  have hall := replaceColumns_content h (List.append_nil _).symm text
  rwa [← hstop, String.ofList_nil, String.append_empty] at hall

/-! ## The first word -/

/-- The first word of a text that begins with content is at its head, and white space or the
end follows it. -/
theorem wordsOf_cons_split {c : Char} {cs w : List Char} {ws : List (List Char)}
    (hc : isBlank c = false) (h : wordsOf (c :: cs) = w :: ws) :
    ∃ rest, c :: cs = w ++ rest ∧ wordsOf rest = ws ∧ ∀ b ∈ rest.head?, isBlank b = true := by
  induction cs generalizing c w ws with
  | nil =>
      have hnone : ∀ b ∈ ([] : List Char).head?, isBlank b = true := by simp
      rw [wordsOf_cons_end hc hnone, List.cons.injEq] at h
      exact ⟨[], by simp [← h.1], h.2, hnone⟩
  | cons d ds ih =>
      by_cases hd : isBlank d = true
      · have hend : ∀ b ∈ (d :: ds).head?, isBlank b = true := by simpa using hd
        rw [wordsOf_cons_end hc hend, List.cons.injEq] at h
        exact ⟨d :: ds, by simp [← h.1], h.2, hend⟩
      · rw [Bool.not_eq_true] at hd
        obtain ⟨v, vs, hv, hcv⟩ := wordsOf_cons_inside hc hd ds
        obtain ⟨rest, hsplit, hrest, hhead⟩ := ih hd hv
        rw [hcv, List.cons.injEq] at h
        refine ⟨rest, ?_, hrest.trans h.2, hhead⟩
        rw [hsplit, ← h.1, List.cons_append]

/-- What follows a text with white space or nothing between adds its own words. -/
theorem wordsOf_append_of_head {rest : List Char} (h : ∀ b ∈ rest.head?, isBlank b = true)
    (cs : List Char) : wordsOf (cs ++ rest) = wordsOf cs ++ wordsOf rest := by
  cases rest with
  | nil =>
      have hnil : wordsOf [] = [] := rfl
      rw [hnil, List.append_nil, List.append_nil]
  | cons b bs =>
      have hb : isBlank b = true := h b rfl
      rw [wordsOf_append_blank hb, wordsOf_cons_blank hb]

/-- What stands before a text, with white space at its end, adds its own words. -/
theorem wordsOf_append_of_last {cs : List Char} (h : ∀ b ∈ cs.getLast?, isBlank b = true)
    (rest : List Char) : wordsOf (cs ++ rest) = wordsOf cs ++ wordsOf rest := by
  rcases List.eq_nil_or_concat cs with rfl | ⟨cs, b, rfl⟩
  · rfl
  rw [List.concat_eq_append] at h ⊢
  have hb : isBlank b = true := h b List.getLast?_concat
  have hnil : wordsOf [] = [] := rfl
  rw [List.append_assoc, List.singleton_append, wordsOf_append_blank hb,
    wordsOf_append_blank hb, hnil, List.append_nil]

theorem head_trim (h : trim line ≠ "") :
    ∃ c cs, (trim line).toList = c :: cs ∧ isBlank c = false := by
  have hne : (trim line).toList ≠ [] := fun he => h (String.toList_inj.mp he)
  obtain ⟨c, cs, hcs⟩ := List.exists_cons_of_ne_nil hne
  have hstart : trimStart line.toList = c :: (cs ++ trailing line.toList) := by
    have hline := indentation_append_trimStart line.toList
    conv at hline => rhs; rw [line_eq h, hcs, List.append_assoc]
    exact List.append_cancel_left hline
  refine ⟨c, cs, hcs, ?_⟩
  have hhead := List.head?_dropWhile_not isBlank line.toList
  rw [← trimStart, hstart] at hhead
  simpa using hhead

/-- The first word of a line stands at the head of its content. -/
theorem trim_eq_of_words {word : String} {ws : List String} (h : words line = word :: ws) :
    ∃ rest, (trim line).toList = word.toList ++ rest ∧ wordsOf rest = ws.map String.toList ∧
      ∀ b ∈ rest.head?, isBlank b = true := by
  have hne : trim line ≠ "" := trim_ne_empty_of_mem_words (h ▸ List.mem_cons_self)
  obtain ⟨c, cs, hcs, hc⟩ := head_trim hne
  have hwords : wordsOf (c :: cs) = word.toList :: ws.map String.toList := by
    rw [← hcs, ← map_toList_words, words_trim, h, List.map_cons]
  rw [hcs]
  exact wordsOf_cons_split hc hwords

/-- Replacing the first word of a line keeps the words after it. -/
theorem words_replace_first {word : String} {ws : List String} (h : words line = word :: ws)
    (text : String) :
    words (replaceColumns line (minColumn line) (minColumn line + word.length) text) =
      words text ++ ws := by
  have hne : trim line ≠ "" := trim_ne_empty_of_mem_words (h ▸ List.mem_cons_self)
  obtain ⟨rest, hsplit, hrest, hhead⟩ := trim_eq_of_words h
  rw [← String.length_toList, replaceColumns_content hne hsplit, words_withContent, words, words,
    String.toList_append, String.toList_ofList, wordsOf_append_of_head hhead, hrest,
    List.map_append]
  simp [Function.comp_def]

end
end Text

theorem Span.ofContent_eq {line : String} (h : Text.trim line ≠ "") (number column : Int) :
    Span.ofContent line number column =
      .onLine number (Text.minColumn line) (Text.maxColumn line) := by
  obtain ⟨hmin, hmax, _⟩ := Text.columns_span_content h
  have hmin' : ¬Text.minColumn line = 0 := by omega
  have hmax' : ¬Text.maxColumn line = 0 := by omega
  simp only [ofContent, if_neg hmin', if_neg hmax']

theorem Span.ofContent_blank {line : String} (h : Text.trim line = "") (number column : Int) :
    Span.ofContent line number column = .onLine number column column := by
  simp only [ofContent, Text.minColumn_eq_zero_iff.mpr h, Text.maxColumn_eq_zero_iff.mpr h,
    if_true]

/-- An edit of the content of a line leaves its indentation and the white space at its
end. -/
theorem Edit.rewrite_ofContent {line : String} (h : Text.trim line ≠ "") (number column : Int)
    (text : String) :
    Edit.rewrite ⟨.ofContent line number column, text⟩ line = Text.withContent line text := by
  rw [rewrite, Span.ofContent_eq h]
  exact Text.replaceColumns_trim h text

end Stepwise
