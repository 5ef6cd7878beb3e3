import Stepwise.Proofs.LineContent

/-!
# Words and their joined text

A word is a text without white space that is not empty. The words of a text are
words in this sense, and white space parts them wherever it stands: the words of
two texts with white space between them are those of the one and those of the
other. So joining words by single spaces and splitting again loses nothing.

Two texts that differ only in how they are spaced have the same words. The relation
`Respaced` says that one text is the other with each gap made a single space and
nothing left at its end; joining the words of a text respaces it in this sense.
-/
namespace Stepwise.Text

/-- Characters without white space among them, at least one. -/
def IsWord (w : List Char) : Prop :=
  w ≠ [] ∧ ∀ c ∈ w, isBlank c = false

section
variable {b c d : Char} {cs : List Char}

theorem wordsOf_cons_blank (hb : isBlank b = true) : wordsOf (b :: cs) = wordsOf cs := by
  rw [wordsOf_cons, if_pos hb]

/-- A character before white space, or before the end, is the end of a word. -/
theorem wordsOf_cons_end (hc : isBlank c = false) (hd : ∀ d ∈ cs.head?, isBlank d = true) :
    wordsOf (c :: cs) = [c] :: wordsOf cs := by
  rw [wordsOf_cons, hc]
  cases cs with
  | nil => rfl
  | cons d ds =>
      have hblank : isBlank d = true := hd d rfl
      cases wordsOf (d :: ds) with
      | nil => rfl
      | cons w ws => simp [hblank]

theorem wordsOf_ne_nil (hc : isBlank c = false) (cs : List Char) : wordsOf (c :: cs) ≠ [] := by
  rw [wordsOf_cons, hc]
  cases cs with
  | nil => exact List.cons_ne_nil _ _
  | cons d ds =>
      cases wordsOf (d :: ds) with
      | nil => exact List.cons_ne_nil _ _
      | cons w ws =>
          simp only [Bool.false_eq_true, if_false]
          split <;> exact List.cons_ne_nil _ _

theorem isBlank_of_wordsOf_eq_nil (h : wordsOf cs = []) : ∀ c ∈ cs, isBlank c = true := by
  induction cs with
  | nil => exact fun _ hc => absurd hc List.not_mem_nil
  | cons d ds ih =>
      by_cases hd : isBlank d = true
      · rw [wordsOf_cons_blank hd] at h
        exact List.forall_mem_cons.mpr ⟨hd, ih h⟩
      · rw [Bool.not_eq_true] at hd
        exact absurd h (wordsOf_ne_nil hd _)

/-- A character before a word belongs to that word. -/
theorem wordsOf_cons_inside (hc : isBlank c = false) (hd : isBlank d = false) (ds : List Char) :
    ∃ w ws, wordsOf (d :: ds) = w :: ws ∧ wordsOf (c :: d :: ds) = (c :: w) :: ws := by
  obtain ⟨w, ws, hw⟩ := List.exists_cons_of_ne_nil (wordsOf_ne_nil hd ds)
  refine ⟨w, ws, hw, ?_⟩
  rw [wordsOf_cons, hc, hw]
  simp [hd]

theorem isWord_of_mem_wordsOf {w : List Char} (h : w ∈ wordsOf cs) : IsWord w := by
  induction cs generalizing w with
  | nil => cases h
  | cons c cs ih =>
      by_cases hc : isBlank c = true
      · rw [wordsOf_cons_blank hc] at h
        exact ih h
      rw [Bool.not_eq_true] at hc
      by_cases hd : ∀ d ∈ cs.head?, isBlank d = true
      · rw [wordsOf_cons_end hc hd] at h
        rcases List.mem_cons.mp h with rfl | h
        · exact ⟨by simp, by simpa using hc⟩
        · exact ih h
      · cases cs with
        | nil => simp at hd
        | cons d ds =>
            have hd : isBlank d = false := by simpa using hd
            obtain ⟨v, vs, hv, hcv⟩ := wordsOf_cons_inside hc hd ds
            rw [hcv] at h
            rcases List.mem_cons.mp h with rfl | h
            · obtain ⟨_, hblank⟩ := ih (w := v) (by simp [hv])
              refine ⟨by simp, ?_⟩
              intro a ha
              rcases List.mem_cons.mp ha with rfl | ha
              · exact hc
              · exact hblank a ha
            · exact ih (by simp [hv, h])

/-- White space parts words. -/
theorem wordsOf_append_blank (hb : isBlank b = true) (xs ys : List Char) :
    wordsOf (xs ++ b :: ys) = wordsOf xs ++ wordsOf ys := by
  induction xs with
  | nil => exact wordsOf_cons_blank hb
  | cons x xs ih =>
      rw [List.cons_append]
      by_cases hx : isBlank x = true
      · rw [wordsOf_cons_blank hx, wordsOf_cons_blank hx, ih]
      rw [Bool.not_eq_true] at hx
      by_cases hd : ∀ d ∈ xs.head?, isBlank d = true
      · have hd' : ∀ d ∈ (xs ++ b :: ys).head?, isBlank d = true := by
          cases xs with
          | nil => simpa using hb
          | cons d ds => simpa using hd
        rw [wordsOf_cons_end hx hd, wordsOf_cons_end hx hd', ih, List.cons_append]
      · cases xs with
        | nil => simp at hd
        | cons d ds =>
            have hd : isBlank d = false := by simpa using hd
            obtain ⟨w, ws, hw, hxw⟩ := wordsOf_cons_inside hx hd ds
            obtain ⟨v, vs, hv, hxv⟩ := wordsOf_cons_inside hx hd (ds ++ b :: ys)
            rw [List.cons_append] at ih
            rw [hv, hw, List.cons_append, List.cons.injEq] at ih
            rw [List.cons_append, hxv, hxw, ih.1, ih.2, List.cons_append]

theorem wordsOf_of_isWord {w : List Char} (h : IsWord w) : wordsOf w = [w] := by
  obtain ⟨hne, hw⟩ := h
  induction w with
  | nil => exact absurd rfl hne
  | cons c cs ih =>
      have hc : isBlank c = false := hw c List.mem_cons_self
      cases cs with
      | nil => exact wordsOf_cons_end hc (by simp)
      | cons d ds =>
          have htail := ih (by simp) fun a ha => hw a (List.mem_cons_of_mem c ha)
          obtain ⟨v, vs, hv, hcv⟩ := wordsOf_cons_inside hc (hw d (by simp)) ds
          rw [htail, List.cons.injEq] at hv
          rw [hcv, ← hv.1, ← hv.2]

end

/-- Joined words are read back. -/
theorem wordsOf_intercalate {ws : List (List Char)} (h : ∀ w ∈ ws, IsWord w) :
    wordsOf ([' '].intercalate ws) = ws := by
  induction ws with
  | nil => rfl
  | cons w ws ih =>
      have hw := wordsOf_of_isWord (h w List.mem_cons_self)
      cases ws with
      | nil => rw [List.intercalate_singleton, hw]
      | cons v vs =>
          rw [List.intercalate_cons_cons, List.append_assoc, List.singleton_append,
            wordsOf_append_blank (by decide), hw, ih fun u hu => h u (List.mem_cons_of_mem w hu)]
          rfl

theorem toList_joinWords (ws : List String) :
    (joinWords ws).toList = [' '].intercalate (ws.map String.toList) :=
  String.toList_intercalate

theorem isWord_of_mem_words {text w : String} (h : w ∈ words text) : IsWord w.toList := by
  obtain ⟨cs, hcs, rfl⟩ := List.mem_map.mp h
  rw [String.toList_ofList]
  exact isWord_of_mem_wordsOf hcs

theorem map_toList_words (text : String) :
    (words text).map String.toList = wordsOf text.toList := by
  simp [words, Function.comp_def]

theorem words_joinWords {ws : List String} (h : ∀ w ∈ ws, IsWord w.toList) :
    words (joinWords ws) = ws := by
  have hmem : ∀ w ∈ ws.map String.toList, IsWord w := by
    intro w hw
    obtain ⟨v, hv, rfl⟩ := List.mem_map.mp hw
    exact h v hv
  rw [words, toList_joinWords, wordsOf_intercalate hmem, List.map_map]
  simp [Function.comp_def]

theorem words_append_space (x y : String) : words (x ++ " " ++ y) = words x ++ words y := by
  have htext : (x ++ " " ++ y).toList = x.toList ++ ' ' :: y.toList := by simp
  rw [words, htext, wordsOf_append_blank (by decide), List.map_append]
  rfl

theorem words_eq_nil_iff (text : String) : words text = [] ↔ trim text = "" := by
  constructor
  · intro h
    rw [trim_eq_empty_iff, trimBoth]
    have hblank := isBlank_of_wordsOf_eq_nil (by simpa [words] using h)
    rw [trimStart, List.dropWhile_eq_nil_iff.mpr hblank]
    rfl
  · intro h
    rw [← words_trim, h]
    rfl

theorem trim_ne_empty_of_mem_words {line word : String} (h : word ∈ words line) :
    trim line ≠ "" := by
  rw [Ne, ← words_eq_nil_iff]
  exact List.ne_nil_of_mem h

theorem isBlank_of_trim_eq_empty {line : String} (h : trim line = "") :
    ∀ c ∈ line.toList, isBlank c = true :=
  isBlank_of_wordsOf_eq_nil (List.map_eq_nil_iff.mp ((words_eq_nil_iff line).mpr h))

theorem minColumn_eq_zero_iff {line : String} : minColumn line = 0 ↔ trim line = "" := by
  constructor
  · intro h
    by_contra hne
    have hcolumn := minColumn_eq hne
    omega
  · intro h
    have hstart : trimStart line.toList = [] :=
      List.dropWhile_eq_nil_iff.mpr (isBlank_of_trim_eq_empty h)
    rw [minColumn, firstContentFrom_eq, if_pos hstart]

theorem maxColumn_eq_zero_iff {line : String} : maxColumn line = 0 ↔ trim line = "" := by
  constructor
  · intro h
    by_contra hne
    have hcolumn := maxColumn_eq hne
    omega
  · intro h
    have hend : trimEnd line.toList = [] := by
      rw [trimEnd, trimStart, List.dropWhile_eq_nil_iff.mpr]
      · rfl
      · exact fun c hc => isBlank_of_trim_eq_empty h c (List.mem_reverse.mp hc)
    rw [maxColumn, hend]

/-! ## Respacing -/

/-- The second text is the first with every gap made a single space and nothing but content
at its end. -/
inductive Respaced : List Char → List Char → Prop
  | ending {bs : List Char} : (∀ b ∈ bs, isBlank b = true) → Respaced bs []
  | char {c : Char} {cs ds : List Char} : isBlank c = false → Respaced cs ds →
      Respaced (c :: cs) (c :: ds)
  | gap {bs cs ds : List Char} : bs ≠ [] → (∀ b ∈ bs, isBlank b = true) → Respaced cs ds →
      Respaced (bs ++ cs) (' ' :: ds)

theorem Respaced.nil : Respaced [] [] :=
  .ending fun _ h => absurd h List.not_mem_nil

section
variable {cs ds : List Char}

/-- A respaced text begins with the same content character, or neither text begins with one. -/
theorem Respaced.head (h : Respaced cs ds) :
    ((∀ c ∈ cs.head?, isBlank c = true) ∧ ∀ d ∈ ds.head?, isBlank d = true) ∨
      ∃ c cs' ds', isBlank c = false ∧ cs = c :: cs' ∧ ds = c :: ds' := by
  cases h with
  | ending hb => exact .inl ⟨fun c hc => hb c (List.mem_of_head? hc), by simp⟩
  | char hc _ => exact .inr ⟨_, _, _, hc, rfl, rfl⟩
  | @gap bs cs ds hne hb _ =>
      obtain ⟨b, bs, rfl⟩ := List.exists_cons_of_ne_nil hne
      have hspace : isBlank ' ' = true := by decide
      exact .inl ⟨by simpa using hb b List.mem_cons_self, by simpa using hspace⟩

/-- Respacing keeps the words. -/
theorem Respaced.wordsOf_eq (h : Respaced cs ds) : wordsOf cs = wordsOf ds := by
  induction h with
  | ending hb => exact wordsOf_of_blank hb
  | gap _ hb _ ih => rw [wordsOf_append_left hb, wordsOf_cons_blank (by decide), ih]
  | char hc h ih =>
      rcases h.head with ⟨hcs, hds⟩ | ⟨c, cs, ds, hd, rfl, rfl⟩
      · rw [wordsOf_cons_end hc hcs, wordsOf_cons_end hc hds, ih]
      · obtain ⟨w, ws, hw, hcw⟩ := wordsOf_cons_inside hc hd cs
        obtain ⟨v, vs, hv, hcv⟩ := wordsOf_cons_inside hc hd ds
        rw [hw, hv, List.cons.injEq] at ih
        rw [hcw, hcv, ih.1, ih.2]

end

/-- The joined words of a text are the text respaced, from its content on. -/
theorem respaced_intercalate_wordsOf (cs : List Char) :
    Respaced (trimStart cs) ([' '].intercalate (wordsOf cs)) := by
  induction cs with
  | nil => exact .nil
  | cons c cs ih =>
      by_cases hc : isBlank c = true
      · rw [trimStart, List.dropWhile_cons_of_pos hc, wordsOf_cons_blank hc]
        exact ih
      rw [trimStart, List.dropWhile_cons_of_neg hc]
      rw [Bool.not_eq_true] at hc
      by_cases hd : ∀ d ∈ cs.head?, isBlank d = true
      · rw [wordsOf_cons_end hc hd]
        cases hw : wordsOf cs with
        | nil => exact .char hc (.ending (isBlank_of_wordsOf_eq_nil hw))
        | cons w ws =>
            have hne : indentation cs ≠ [] := by
              cases cs with
              | nil => cases hw
              | cons d ds => simp [indentation, List.takeWhile_cons_of_pos (hd d rfl)]
            have hgap := Respaced.gap hne (fun b hb => isBlank_of_mem_indentation hb) (hw ▸ ih)
            rw [indentation_append_trimStart] at hgap
            exact .char hc hgap
      · cases cs with
        | nil => simp at hd
        | cons d ds =>
            have hd : isBlank d = false := by simpa using hd
            obtain ⟨w, ws, hw, hcw⟩ := wordsOf_cons_inside hc hd ds
            rw [trimStart, List.dropWhile_cons_of_neg (by simpa using hd), hw] at ih
            rw [hcw]
            cases ws with
            | nil => exact .char hc ih
            | cons v vs => exact .char hc ih

end Stepwise.Text
