import Stepwise.Proofs.EditedLines

/-!
# The scans of a line agree

A line is scanned in three ways that know nothing of each other: its first content column is
counted from the left, its last is found by a trim at the right, and its words are cut at
white space. All three see the same content. Either none of them finds any, or the columns
hold the trimmed line, which reaches from the head of the first word to the end of the last.

That the last word ends the content mirrors that the first one opens it: the words of a
reversed line are the words of the line, each reversed and in the opposite order.
-/
namespace Stepwise.Text

/-- The part of a line in the columns from `start` up to `stop`. -/
def inColumns (line : String) (start stop : Nat) : String :=
  String.ofList ((line.toList.drop (start - 1)).take (stop - start))

/-- The columns from `start` up to `stop` hold the content of a line. They lie in the line and
are not empty. What they hold is the trimmed line: it opens with the first word, ends with the
last, and has all the words. All else is white space, so replacing them keeps only the
indentation and the white space at the end. -/
structure HoldContent (line : String) (start stop : Nat) : Prop where
  one_le : 1 ≤ start
  lt : start < stop
  le_length : stop ≤ line.length + 1
  content : inColumns line start stop = trim line
  first : ∃ word ∈ (words line).head?, word.toList <+: (inColumns line start stop).toList
  last : ∃ word ∈ (words line).getLast?, word.toList <:+ (inColumns line start stop).toList
  words_eq : words (inColumns line start stop) = words line
  outside : ∀ i c, line.toList[i]? = some c → i + 1 < start ∨ stop ≤ i + 1 → isBlank c = true
  replaced : ∀ text, (replaceColumns line start stop text).toList =
    indentation line.toList ++ text.toList ++ trailing line.toList

/-! ## The last word -/

/-- A text is white space, its first word and a rest that has the other words. -/
theorem exists_split_of_wordsOf {cs w : List Char} {ws : List (List Char)}
    (h : wordsOf cs = w :: ws) :
    ∃ rest, cs = indentation cs ++ w ++ rest ∧ wordsOf rest = ws ∧
      ∀ b ∈ rest.head?, isBlank b = true := by
  have hcs := indentation_append_trimStart cs
  have hwords : wordsOf (trimStart cs) = w :: ws := by
    rw [← h]
    conv => rhs; rw [← hcs]
    rw [wordsOf_append_left fun _ hb => isBlank_of_mem_indentation hb]
  have hhead := List.head?_dropWhile_not isBlank cs
  rw [← trimStart] at hhead
  cases hstart : trimStart cs with
  | nil =>
      rw [hstart] at hwords
      cases hwords
  | cons c rest =>
      rw [hstart] at hwords hhead
      obtain ⟨rest', hsplit, hrest, hblank⟩ := wordsOf_cons_split (by simpa using hhead) hwords
      refine ⟨rest', ?_, hrest, hblank⟩
      rw [List.append_assoc, ← hsplit, ← hstart, hcs]

/-- The words of a reversed text are its words, each reversed, in the opposite order. -/
theorem wordsOf_reverse (cs : List Char) :
    wordsOf cs.reverse = ((wordsOf cs).map List.reverse).reverse := by
  -- on the words, so that each step takes a whole word off the front
  induction hws : wordsOf cs generalizing cs with
  | nil =>
      have hblank := isBlank_of_wordsOf_eq_nil hws
      exact wordsOf_of_blank fun c hc => hblank c (List.mem_reverse.mp hc)
  | cons w ws ih =>
      obtain ⟨rest, hcs, hrest, hhead⟩ := exists_split_of_wordsOf hws
      have hw : IsWord w := isWord_of_mem_wordsOf (hws ▸ List.mem_cons_self)
      have hw' : IsWord w.reverse :=
        ⟨fun he => hw.1 (List.reverse_eq_nil_iff.mp he),
          fun c hc => hw.2 c (List.mem_reverse.mp hc)⟩
      have hlast : ∀ b ∈ rest.reverse.getLast?, isBlank b = true := by
        rwa [List.getLast?_reverse]
      have hfront : ∀ c ∈ (indentation cs).reverse, isBlank c = true :=
        fun c hc => isBlank_of_mem_indentation (List.mem_reverse.mp hc)
      calc wordsOf cs.reverse
          = wordsOf (rest.reverse ++ (w.reverse ++ (indentation cs).reverse)) := by
            conv => lhs; rw [hcs]
            rw [List.reverse_append, List.reverse_append]
        _ = wordsOf rest.reverse ++ wordsOf w.reverse := by
            rw [wordsOf_append_of_last hlast, wordsOf_append_right _ hfront]
        _ = (ws.map List.reverse).reverse ++ [w.reverse] := by
            rw [ih rest hrest, wordsOf_of_isWord hw']
        _ = ((w :: ws).map List.reverse).reverse := by
            rw [List.map_cons, List.reverse_cons]

section
variable {line : String}

/-- The content of a line ends with a character that is no white space. -/
theorem last_trim (h : trim line ≠ "") :
    ∃ cs c, (trim line).toList = cs ++ [c] ∧ isBlank c = false := by
  have hne : (trim line).toList ≠ [] := fun he => h (String.toList_inj.mp he)
  obtain ⟨cs, c, hcs⟩ := (List.eq_nil_or_concat (trim line).toList).resolve_left hne
  rw [List.concat_eq_append] at hcs
  refine ⟨cs, c, hcs, ?_⟩
  have hreverse : trimStart (trimStart line.toList).reverse = c :: cs.reverse := by
    rw [← List.reverse_reverse (trimStart (trimStart line.toList).reverse), ← trimEnd, ← trimBoth,
      ← toList_trim, hcs, List.reverse_append]
    rfl
  have hhead := List.head?_dropWhile_not isBlank (trimStart line.toList).reverse
  rw [← trimStart, hreverse] at hhead
  simpa using hhead

/-- The last word of a line stands at the end of its content. -/
theorem trim_eq_of_words_concat {word : String} {ws : List String} (h : words line = ws ++ [word]) :
    ∃ front, (trim line).toList = front ++ word.toList := by
  have hmem : word ∈ words line := h ▸ List.mem_concat_self
  have hne := trim_ne_empty_of_mem_words hmem
  obtain ⟨cs, c, hcs, hc⟩ := last_trim hne
  have hreverse : (trim line).toList.reverse = c :: cs.reverse := by
    rw [hcs, List.reverse_append]
    rfl
  have hwords : wordsOf (c :: cs.reverse) =
      word.toList.reverse :: ((ws.map String.toList).map List.reverse).reverse := by
    rw [← hreverse, wordsOf_reverse, ← map_toList_words, words_trim, h]
    simp
  obtain ⟨rest, hsplit, -, -⟩ := wordsOf_cons_split hc hwords
  refine ⟨rest.reverse, ?_⟩
  rw [← List.reverse_reverse (trim line).toList, hreverse, hsplit, List.reverse_append,
    List.reverse_reverse]

/-! ## The content columns -/

theorem inColumns_content (h : trim line ≠ "") :
    inColumns line (minColumn line) (maxColumn line) = trim line := by
  rw [inColumns, (columns_span_content h).2.2.2, String.ofList_toList]

/-- A character in front of the content or behind it is white space. -/
theorem isBlank_of_outside (h : trim line ≠ "") {i : Nat} {c : Char}
    (hc : line.toList[i]? = some c) (hi : i + 1 < minColumn line ∨ maxColumn line ≤ i + 1) :
    isBlank c = true := by
  rw [minColumn_eq h, maxColumn_eq h, ← String.length_toList] at hi
  rw [line_eq h, List.append_assoc] at hc
  rcases hi with hi | hi
  · rw [List.getElem?_append_left (by omega)] at hc
    exact isBlank_of_mem_indentation (List.mem_of_getElem? hc)
  · rw [List.getElem?_append_right (by omega), List.getElem?_append_right (by omega)] at hc
    exact isBlank_of_mem_trailing (List.mem_of_getElem? hc)

theorem holdContent (h : trim line ≠ "") :
    HoldContent line (minColumn line) (maxColumn line) := by
  obtain ⟨hone, hlt, hle, -⟩ := columns_span_content h
  have hin := inColumns_content h
  have hwords : words line ≠ [] := fun he => h ((words_eq_nil_iff line).mp he)
  refine ⟨hone, hlt, hle, hin, ?_, ?_, ?_, fun i c => isBlank_of_outside h, fun text => ?_⟩
  · obtain ⟨word, ws, hws⟩ := List.exists_cons_of_ne_nil hwords
    obtain ⟨rest, hrest, -, -⟩ := trim_eq_of_words hws
    exact ⟨word, by rw [hws]; rfl, by rw [hin, hrest]; exact List.prefix_append _ _⟩
  · obtain ⟨ws, word, hws⟩ := (List.eq_nil_or_concat (words line)).resolve_left hwords
    rw [List.concat_eq_append] at hws
    obtain ⟨front, hfront⟩ := trim_eq_of_words_concat hws
    exact ⟨word, by rw [hws]; exact List.getLast?_concat,
      by rw [hin, hfront]; exact List.suffix_append _ _⟩
  · rw [hin, words_trim]
  · rw [replaceColumns_trim h, toList_withContent]

/-- The first content column holds a character that is no white space. -/
theorem exists_at_minColumn (h : trim line ≠ "") :
    ∃ c, line.toList[minColumn line - 1]? = some c ∧ isBlank c = false := by
  obtain ⟨c, cs, hcs, hc⟩ := head_trim h
  refine ⟨c, ?_, hc⟩
  have hline := line_eq h
  rw [hcs, List.append_assoc] at hline
  rw [minColumn_eq h, Nat.add_sub_cancel]
  generalize indentation line.toList = front at hline ⊢
  rw [hline, List.getElem?_append_right (Nat.le_refl _), Nat.sub_self]
  rfl

/-- So does the last. -/
theorem exists_before_maxColumn (h : trim line ≠ "") :
    ∃ c, line.toList[maxColumn line - 2]? = some c ∧ isBlank c = false := by
  obtain ⟨cs, c, hcs, hc⟩ := last_trim h
  refine ⟨c, ?_, hc⟩
  have hline := line_eq h
  have hat : maxColumn line - 2 = (indentation line.toList ++ cs).length := by
    rw [maxColumn_eq h, ← String.length_toList, hcs]
    simp only [List.length_append, List.length_singleton]
    omega
  rw [hcs, ← List.append_assoc, List.append_assoc] at hline
  rw [hat]
  generalize indentation line.toList ++ cs = front at hline ⊢
  rw [hline, List.getElem?_append_right (Nat.le_refl _), Nat.sub_self]
  rfl

/-- No other columns hold the content of a line. The two ends of the content are no white
space, so they are not outside, and the columns are no more than the content has characters. -/
theorem HoldContent.unique {start stop : Nat} (h : HoldContent line start stop) :
    start = minColumn line ∧ stop = maxColumn line := by
  obtain ⟨word, hword, -⟩ := h.first
  have hne := trim_ne_empty_of_mem_words (List.mem_of_head? hword)
  obtain ⟨hone, hlt, hle, -⟩ := columns_span_content hne
  have hinside : ∀ i c, line.toList[i]? = some c → isBlank c = false →
      start ≤ i + 1 ∧ i + 1 < stop := by
    intro i c hat hc
    by_contra hout
    have hblank := h.outside i c hat (by omega)
    rw [hc] at hblank
    cases hblank
  obtain ⟨first, hfirst, hfirstBlank⟩ := exists_at_minColumn hne
  obtain ⟨last, hlast, hlastBlank⟩ := exists_before_maxColumn hne
  have hstart := (hinside _ first hfirst hfirstBlank).1
  have hstop := (hinside _ last hlast hlastBlank).2
  have hlength := congrArg String.length (h.content.trans (inColumns_content hne).symm)
  have hle' := h.le_length
  have hone' := h.one_le
  simp only [inColumns, ← String.length_toList, String.toList_ofList, List.length_take,
    List.length_drop] at hle hle' hlength
  omega

end

/-- The three scans of a line agree. The two columns are 0 together, and exactly on a line
without words. On any other line they hold the content, and no other columns do. So a span of
the content has both of its edges from the line, or both from the column to fall back on. -/
theorem line_scans_agree (line : String) :
    (minColumn line = 0 ↔ maxColumn line = 0) ∧ (maxColumn line = 0 ↔ words line = []) ∧
    (words line ≠ [] → HoldContent line (minColumn line) (maxColumn line)) ∧
    (∀ start stop, HoldContent line start stop →
      start = minColumn line ∧ stop = maxColumn line) ∧
    ∀ number column, Span.ofContent line number column =
      if words line = [] then .onLine number column column
      else .onLine number (minColumn line) (maxColumn line) := by
  refine ⟨minColumn_eq_zero_iff.trans maxColumn_eq_zero_iff.symm,
    maxColumn_eq_zero_iff.trans (words_eq_nil_iff line).symm, fun h => ?_,
    fun _ _ => HoldContent.unique, fun number column => ?_⟩
  · exact holdContent fun he => h ((words_eq_nil_iff line).mpr he)
  · by_cases hne : trim line = ""
    · rw [if_pos ((words_eq_nil_iff line).mpr hne)]
      exact Span.ofContent_blank hne number column
    · rw [if_neg fun he => hne ((words_eq_nil_iff line).mp he)]
      exact Span.ofContent_eq hne number column

/-- White space of several sorts around and between the words. The zero width space is not
white space and stands inside a word. -/
theorem line_scans_agree_wide :
    let line := "\u3000 Given\u00a0  a\u200bb\u0085"
    words line ≠ [] ∧ words line = ["Given", "a\u200bb"] ∧ HoldContent line 3 14 := by
  intro line
  have hwords : words line = ["Given", "a\u200bb"] := by decide +kernel
  have hne : words line ≠ [] := by
    rw [hwords]
    exact List.cons_ne_nil _ _
  have hmin : minColumn line = 3 := by decide +kernel
  have hmax : maxColumn line = 14 := by decide +kernel
  have hhold := (line_scans_agree line).2.2.1 hne
  rw [hmin, hmax] at hhold
  exact ⟨hne, hwords, hhold⟩

end Stepwise.Text
