import Stepwise.Configuration.Basic
import Stepwise.Proofs.Numerals
import Stepwise.Proofs.ScannedTokens

/-!
# Contents that do not matter to a step

The shape of a text has one marker for every placeholder and one for every number. So another
text in a placeholder, or another number in place of a number, gives the same shape, unless it
changes what is cut around it. A text without white space and without delimiters cannot do that
in a placeholder, and a number cannot do it outside of all placeholders: its characters neither
open, close nor end a token, so before a number the same is read as before any other.
-/
namespace Stepwise.Step

open Text (isBlank IsWord wordsOf)

/-- What a piece leaves when placeholders are replaced. -/
def Piece.marked (marker : List Char) : Piece → List Char
  | token _ _ => marker
  | plain c => [c]

theorem withMarkers_eq_flatMap (marker cs : List Char) :
    withMarkers marker cs = (pieces cs).flatMap (Piece.marked marker) :=
  rfl

/-- The marker between spaces, as it is put in place of a placeholder. -/
def spacedMarker : List Char := [' ', '\x00', ' ']

theorem shapeWords_eq (text : String) : shapeWords text =
    (wordsOf ((pieces text.toList).flatMap (Piece.marked spacedMarker))).map
      (wordShape ∘ String.ofList) := by
  have hmarker : (" " ++ marker ++ " ").toList = spacedMarker := by decide
  rw [shapeWords, Text.words, toList_replacePlaceholders, hmarker, withMarkers_eq_flatMap,
    List.map_map]

/-! ## Another text in a placeholder -/

namespace Placeholder
variable {p : Placeholder} {text name : String}

/-- A text without white space, quotes and brackets can be held by every placeholder. -/
theorem takes_of_solid
    (h : ∀ a ∈ name.toList, isBlank a = false ∧ a ∉ ['"', '\'', '<', '>']) :
    p.Takes text name := by
  have hbreaks : ∀ a ∈ name.toList, a ∉ angleBreaks := by
    intro a ha hbreak
    obtain ⟨hblank, hplain⟩ := h a ha
    simp only [angleBreaks, List.mem_cons, List.not_mem_nil, or_false] at hbreak
    rcases hbreak with rfl | rfl | rfl | rfl | rfl | rfl | rfl
    all_goals first | exact hplain (by decide) | exact absurd hblank (by decide)
  refine ⟨fun a ha => ?_, fun e he _ hmem => ?_⟩
  · cases p.delimiter with
    | double => exact bne_iff_ne.mpr fun heq => hbreaks a ha (heq ▸ by decide)
    | single => exact bne_iff_ne.mpr fun heq => hbreaks a ha (heq ▸ by decide)
    | angle =>
        rw [Delimiter.admits, breaksAngle_eq_false_iff.mpr (hbreaks a ha)]
        rfl
  · cases e with
    | double => exact hbreaks _ hmem (by decide)
    | single => exact hbreaks _ hmem (by decide)
    | angle => cases he

/-- What a placeholder can hold does not matter to the shape. -/
theorem shape_refill (hp : p ∈ placeholders text) (h : p.Takes text name) :
    shape (p.refill text name) = shape text := by
  obtain ⟨before, after, hsplit, hstart⟩ := mem_placeholdersFrom_iff.mp hp
  have hpieces := (pieces_refill_iff hsplit (hstart.trans (Nat.add_comm ..))).mpr h
  rw [shape, shape, shapeWords_eq, shapeWords_eq, hpieces, hsplit, List.flatMap_append,
    List.flatMap_append, List.flatMap_cons, List.flatMap_cons]
  rfl

end Placeholder

/-! ## Texts before which the same is read -/

/-- Two texts that close the same tokens. -/
def CloseAlike (xs ys : List Char) : Prop :=
  ∀ d : Delimiter, d.read xs = none ↔ d.read ys = none

/-- The characters that neither open nor close a token and do not end one. -/
def IsInert (c : Char) : Prop :=
  breaksAngle c = false ∧ c ≠ '<' ∧ c ≠ '>'

theorem Delimiter.read_cons_eq_none_iff {c : Char} {cs : List Char} (d : Delimiter) :
    d.read (c :: cs) = none ↔
      (d = .angle ∧ breaksAngle c = true) ∨ (c ≠ d.closing ∧ d.read cs = none) := by
  have hquote : ∀ q : Char, upToQuote q (c :: cs) = none ↔ c ≠ q ∧ upToQuote q cs = none := by
    intro q
    rw [upToQuote_eq_none_iff, upToQuote_eq_none_iff, List.mem_cons, not_or, ne_comm]
  cases d with
  | double => simpa [read, closing] using hquote '"'
  | single => simpa [read, closing] using hquote '\''
  | angle => simpa [read, closing] using upToAngle_cons_eq_none_iff

section
variable {c : Char} {xs ys word other : List Char} {parts : List Piece}

theorem IsInert.not_break (h : IsInert c) : c ∉ angleBreaks :=
  breaksAngle_eq_false_iff.mp h.1

theorem IsInert.ne_opening (h : IsInert c) (d : Delimiter) : c ≠ d.opening := by
  rintro rfl
  cases d with
  | double => exact h.not_break (by decide)
  | single => exact h.not_break (by decide)
  | angle => exact h.2.1 rfl

theorem IsInert.ne_closing (h : IsInert c) (d : Delimiter) : c ≠ d.closing := by
  rintro rfl
  cases d with
  | double => exact h.not_break (by decide)
  | single => exact h.not_break (by decide)
  | angle => exact h.2.2 rfl

theorem CloseAlike.cons (h : CloseAlike xs ys) (c : Char) : CloseAlike (c :: xs) (c :: ys) := by
  intro d
  rw [d.read_cons_eq_none_iff, d.read_cons_eq_none_iff, h d]

theorem CloseAlike.append (h : CloseAlike xs ys) (cs : List Char) :
    CloseAlike (cs ++ xs) (cs ++ ys) := by
  induction cs with
  | nil => exact h
  | cons c cs ih => exact ih.cons c

theorem closeAlike_inert (hword : ∀ c ∈ word, IsInert c) (cs : List Char) :
    CloseAlike (word ++ cs) cs := by
  intro d
  induction word with
  | nil => exact Iff.rfl
  | cons c word ih =>
      obtain ⟨hc, hword⟩ := List.forall_mem_cons.mp hword
      rw [List.cons_append, d.read_cons_eq_none_iff, ih hword, hc.1]
      simp [hc.ne_closing d]

theorem Piece.Stands.of_closeAlike (h : CloseAlike xs ys) {part : Piece} (hpart : part.Stands xs) :
    part.Stands ys := by
  cases part with
  | token d inner => exact ⟨hpart.1, fun hd => (h .angle).mp (hpart.2 hd)⟩
  | plain c => exact fun d hd => (h d).mp (hpart d hd)

theorem StandBefore.of_closeAlike (h : CloseAlike xs ys) (hparts : StandBefore xs parts) :
    StandBefore ys parts := by
  induction parts with
  | nil => trivial
  | cons part parts ih => exact ⟨hparts.1.of_closeAlike (h.append _), ih hparts.2⟩

theorem textOf_map_plain (cs : List Char) : textOf (cs.map .plain) = cs := by
  rw [textOf, List.flatMap_map]
  exact List.flatMap_singleton' cs

theorem standBefore_inert (hword : ∀ c ∈ word, IsInert c) (cs : List Char) :
    StandBefore cs (word.map .plain) := by
  induction word with
  | nil => trivial
  | cons c word ih =>
      obtain ⟨hc, hword⟩ := List.forall_mem_cons.mp hword
      exact ⟨fun d hd => absurd hd (hc.ne_opening d), ih hword⟩

/-- Nothing of a placeholder is in a text without delimiters. -/
theorem eq_map_plain (h : ∀ c ∈ textOf parts, IsInert c) : parts = (textOf parts).map .plain := by
  induction parts with
  | nil => rfl
  | cons part parts ih =>
      rw [textOf, List.flatMap_cons] at h ⊢
      obtain ⟨hpart, hparts⟩ := List.forall_mem_append.mp h
      cases part with
      | token d inner => exact absurd rfl ((hpart _ List.mem_cons_self).ne_opening d)
      | plain c =>
          rw [List.map_append, ← textOf, ← ih hparts]
          rfl

/-- Other characters without delimiters in place of such characters are cut one by one as they
are, and everything around them as before. -/
theorem pieces_replace_inert {before after : List Piece} (hword : ∀ c ∈ word, IsInert c)
    (hother : ∀ c ∈ other, IsInert c)
    (h : StandBefore [] (before ++ (word.map .plain ++ after))) :
    pieces (textOf before ++ other ++ textOf after) =
      before ++ (other.map .plain ++ after) := by
  rw [standBefore_append, standBefore_append, List.append_nil, textOf_append,
    textOf_map_plain] at h
  obtain ⟨hbefore, -, hafter⟩ := h
  have hback := closeAlike_inert hword (textOf after)
  have hforth := closeAlike_inert hother (textOf after)
  have halike : CloseAlike (word ++ textOf after) (other ++ textOf after) :=
    fun d => (hback d).trans (hforth d).symm
  have hstand : StandBefore [] (before ++ (other.map .plain ++ after)) := by
    rw [standBefore_append, standBefore_append, List.append_nil, textOf_append, textOf_map_plain]
    exact ⟨hbefore.of_closeAlike halike, standBefore_inert hother _, hafter⟩
  have htext : textOf (before ++ (other.map .plain ++ after)) =
      textOf before ++ other ++ textOf after := by
    rw [textOf_append, textOf_append, textOf_map_plain, List.append_assoc]
  rw [← htext, pieces_textOf hstand]

/-! ## A place outside of all placeholders -/

/-- Where no placeholder goes across, the pieces can be parted. -/
theorem exists_parted {base : Nat} (h : textOf parts = xs ++ ys)
    (hacross : ∀ p ∈ placeholdersFrom base parts,
      p.stop ≤ base + xs.length ∨ base + xs.length ≤ p.start) :
    ∃ before after, parts = before ++ after ∧ textOf before = xs ∧ textOf after = ys := by
  induction parts generalizing base xs with
  | nil =>
      obtain ⟨rfl, rfl⟩ := List.append_eq_nil_iff.mp h.symm
      exact ⟨[], [], rfl, rfl, rfl⟩
  | cons part parts ih =>
      by_cases hxs : xs = []
      · subst hxs
        exact ⟨[], part :: parts, rfl, rfl, h⟩
      have hpos := List.length_pos_iff.mpr hxs
      have hfirst : part.text.length ≤ xs.length := by
        cases part with
        | token d inner =>
            have hp := hacross _ List.mem_cons_self
            rw [Placeholder.stop, String.length_ofList] at hp
            rw [Piece.length_text_token]
            dsimp only at hp
            omega
        | plain c => exact hpos
      have htext : part.text ++ textOf parts = xs ++ ys := h
      obtain ⟨rest, rfl, hrest⟩ := exists_behind htext hfirst
      have hlater : ∀ p ∈ placeholdersFrom (base + part.text.length) parts,
          p.stop ≤ base + part.text.length + rest.length ∨
            base + part.text.length + rest.length ≤ p.start := by
        intro p hp
        rw [Nat.add_assoc, ← List.length_append]
        have hmem : p ∈ placeholdersFrom base ([part] ++ parts) := by
          rw [placeholdersFrom_append, textOf, List.flatMap_singleton]
          exact List.mem_append_right _ hp
        exact hacross p hmem
      obtain ⟨before, after, rfl, hbefore, hafter⟩ := ih hrest hlater
      exact ⟨part :: before, after, rfl, congrArg (part.text ++ ·) hbefore, hafter⟩

/-- What is left of pieces ends with white space if their text does. -/
theorem blank_last_marked (h : ∀ b ∈ (textOf parts).getLast?, isBlank b = true) :
    ∀ b ∈ (parts.flatMap (Piece.marked spacedMarker)).getLast?, isBlank b = true := by
  rcases List.eq_nil_or_concat parts with rfl | ⟨parts, part, rfl⟩
  · exact h
  rw [List.concat_eq_append, List.flatMap_append, List.flatMap_singleton]
  cases part with
  | token d inner =>
      rw [Piece.marked, spacedMarker, List.getLast?_append_of_ne_nil _ (List.cons_ne_nil _ _)]
      exact fun b hb => Option.mem_some.mp hb ▸ by decide
  | plain c =>
      rw [List.concat_eq_append, textOf, List.flatMap_append, List.flatMap_singleton, Piece.text,
        List.getLast?_concat] at h
      rwa [Piece.marked, List.getLast?_concat]

/-- What is left of pieces begins with white space if their text does. -/
theorem blank_head_marked (h : ∀ b ∈ (textOf parts).head?, isBlank b = true) :
    ∀ b ∈ (parts.flatMap (Piece.marked spacedMarker)).head?, isBlank b = true := by
  cases parts with
  | nil => exact h
  | cons part parts =>
      cases part with
      | token d inner => exact fun b hb => Option.mem_some.mp hb ▸ by decide
      | plain c => exact h

end

/-! ## A number in place of another -/

theorem isInert_of_isNumeral {c : Char} (h : Number.IsNumeral c) : IsInert c := by
  obtain ⟨hlow, -, hgap⟩ := h.bounds
  have hne : ∀ a : Char, a.toNat < 43 ∨ a.toNat = 60 ∨ a.toNat = 62 → c ≠ a := by
    rintro a ha rfl
    omega
  refine ⟨breaksAngle_eq_false_iff.mpr fun hbreak => ?_,
    hne _ (.inr (.inl rfl)), hne _ (.inr (.inr rfl))⟩
  have hbelow : angleBreaks.all (·.toNat < 43) = true := by decide
  exact hne c (.inl (of_decide_eq_true (List.all_eq_true.mp hbelow c hbreak))) rfl

theorem isBlank_of_isNumeral {c : Char} (h : Number.IsNumeral c) : isBlank c = false := by
  obtain ⟨hlow, hhigh, -⟩ := h.bounds
  simp only [isBlank, Bool.or_eq_false_iff, Bool.and_eq_false_iff, decide_eq_false_iff_not,
    beq_eq_false_iff_ne]
  omega

theorem isWord_of_isNumber {word : String} (h : isNumber word = true) : IsWord word.toList :=
  ⟨ne_nil_of_isNumber h, fun c hc => isBlank_of_isNumeral (isNumeral_of_isNumber h c hc)⟩

theorem wordShape_of_isNumber {word : String} (h : isNumber word = true) :
    wordShape word = marker := by
  rw [wordShape, h, Bool.or_true, if_pos rfl]

/-- A part of a text that has white space or nothing on both sides and that no placeholder
touches. -/
structure StandsApart (front word back : String) : Prop where
  front_blank : ∀ b ∈ front.toList.getLast?, isBlank b = true
  back_blank : ∀ b ∈ back.toList.head?, isBlank b = true
  outside : ∀ p ∈ placeholders (front ++ word ++ back),
    p.stop ≤ front.length + 1 ∨ front.length + word.length + 1 ≤ p.start

theorem StandsApart.exists_pieces {front word back : String} (h : StandsApart front word back)
    (hword : ∀ c ∈ word.toList, IsInert c) :
    ∃ before after, textOf before = front.toList ∧ textOf after = back.toList ∧
      pieces (front ++ word ++ back).toList = before ++ (word.toList.map .plain ++ after) := by
  have htext : textOf (pieces (front ++ word ++ back).toList) =
      front.toList ++ (word.toList ++ back.toList) := by
    rw [textOf_pieces, String.toList_append, String.toList_append, List.append_assoc]
  obtain ⟨before, rest, hsplit, hbefore, hrest⟩ := exists_parted htext fun p hp => by
    rw [String.length_toList]
    exact (h.outside p hp).imp (by omega) (by omega)
  obtain ⟨mid, after, rfl, hmid, hafter⟩ := exists_parted hrest fun p hp => by
    rw [String.length_toList]
    have hmem : p ∈ placeholders (front ++ word ++ back) := by
      rw [placeholders, hsplit, placeholdersFrom_append]
      exact List.mem_append_right _ hp
    rw [hbefore, String.length_toList]
    exact (h.outside p hmem).imp (by omega) (by omega)
  have hplain : mid = word.toList.map .plain := by
    rw [← hmid]
    exact eq_map_plain (hmid ▸ hword)
  exact ⟨before, after, hbefore, hafter, hplain ▸ hsplit⟩

/-- The part that stands apart gives one word of the shape, and it does not matter to the other
words what it is. -/
theorem StandsApart.exists_shapeWords {front word back : String} (h : StandsApart front word back)
    (hword : ∀ c ∈ word.toList, IsInert c) :
    ∃ left right, ∀ other : String, (∀ c ∈ other.toList, IsInert c) → IsWord other.toList →
      shapeWords (front ++ other ++ back) = left ++ wordShape other :: right := by
  obtain ⟨before, after, hbefore, hafter, hpieces⟩ := h.exists_pieces hword
  refine ⟨(wordsOf (before.flatMap (Piece.marked spacedMarker))).map (wordShape ∘ String.ofList),
    (wordsOf (after.flatMap (Piece.marked spacedMarker))).map (wordShape ∘ String.ofList),
    fun other hother hisWord => ?_⟩
  have hstand := hpieces ▸ standBefore_pieces (front ++ word ++ back).toList
  have hreplaced := pieces_replace_inert hword hother hstand
  have hleft := blank_last_marked (hbefore ▸ h.front_blank)
  have hright := blank_head_marked (hafter ▸ h.back_blank)
  have hkeep : (other.toList.map Piece.plain).flatMap (Piece.marked spacedMarker) =
      other.toList := by
    rw [List.flatMap_map]
    exact List.flatMap_singleton' other.toList
  rw [hbefore, hafter, ← String.toList_append, ← String.toList_append] at hreplaced
  rw [shapeWords_eq, hreplaced, List.flatMap_append, List.flatMap_append, hkeep,
    Text.wordsOf_append_of_last hleft, Text.wordsOf_append_of_head hright,
    Text.wordsOf_of_isWord hisWord, List.map_append, List.singleton_append, List.map_cons,
    Function.comp_apply, String.ofList_toList]

theorem StandsApart.shape_number {front word back other : String}
    (h : StandsApart front word back) (hword : isNumber word = true)
    (hother : isNumber other = true) :
    shape (front ++ other ++ back) = shape (front ++ word ++ back) := by
  have hinert : ∀ {w : String}, isNumber w = true → ∀ c ∈ w.toList, IsInert c :=
    fun hw c hc => isInert_of_isNumeral (isNumeral_of_isNumber hw c hc)
  obtain ⟨left, right, hwords⟩ := h.exists_shapeWords (hinert hword)
  rw [shape, shape, hwords other (hinert hother) (isWord_of_isNumber hother),
    hwords word (hinert hword) (isWord_of_isNumber hword), wordShape_of_isNumber hother,
    wordShape_of_isNumber hword]

/-- Neither the text in a placeholder nor the value of a number outside of all placeholders
matters to the shape of a text, so the same step is found for it. -/
theorem shape_contents_irrelevant (text : String) :
    (∀ p ∈ placeholders text, ∀ name : String,
      (∀ a ∈ name.toList, isBlank a = false ∧ a ∉ ['"', '\'', '<', '>']) →
        shape (p.refill text name) = shape text ∧
        ∀ c : Configuration, c.findStep? (p.refill text name) = c.findStep? text) ∧
    ∀ front word back : String, text = front ++ word ++ back → StandsApart front word back →
      isNumber word = true → ∀ other, isNumber other = true →
        shape (front ++ other ++ back) = shape text ∧
        ∀ c : Configuration, c.findStep? (front ++ other ++ back) = c.findStep? text := by
  have hfound : ∀ other : String, shape other = shape text →
      ∀ c : Configuration, c.findStep? other = c.findStep? text := by
    intro other hshape c
    rw [Configuration.findStep?, Configuration.findStep?, hshape]
  constructor
  · intro p hp name hname
    have hshape := Placeholder.shape_refill hp (Placeholder.takes_of_solid hname)
    exact ⟨hshape, hfound _ hshape⟩
  · rintro front word back rfl happart hword other hother
    have hshape := happart.shape_number hword hother
    exact ⟨hshape, hfound _ hshape⟩

/-- A number behind a bracket that is never closed, and a placeholder with another quote
inside. -/
theorem shape_contents_irrelevant_open_bracket :
    let text := "< 5 \"a'b\""
    (⟨.double, "a'b", 5⟩ : Placeholder) ∈ placeholders text ∧
      StandsApart "< " "5" " \"a'b\"" ∧ isNumber "5" = true ∧ isNumber "-1,5e3" = true ∧
      shape "< 5 \"c\"" = shape text ∧ shape "< -1,5e3 \"a'b\"" = shape text := by
  intro text
  have hp : (⟨.double, "a'b", 5⟩ : Placeholder) ∈ placeholders text := by decide +kernel
  have hplaceholders : placeholders text = [⟨.double, "a'b", 5⟩] := by decide +kernel
  have happart : StandsApart "< " "5" " \"a'b\"" := by
    have hlast : "< ".toList.getLast? = some ' ' := by decide
    have hhead : " \"a'b\"".toList.head? = some ' ' := by decide
    refine ⟨fun b hb => ?_, fun b hb => ?_, fun p hmem => ?_⟩
    · exact Option.mem_unique hlast hb ▸ rfl
    · exact Option.mem_unique hhead hb ▸ rfl
    · obtain rfl : p = ⟨.double, "a'b", 5⟩ := List.mem_singleton.mp (hplaceholders ▸ hmem)
      exact .inr (by decide)
  have hfive : isNumber "5" = true := by decide +kernel
  have hother : isNumber "-1,5e3" = true := by decide +kernel
  have hrefilled : Placeholder.refill ⟨.double, "a'b", 5⟩ text "c" = "< 5 \"c\"" := by
    decide +kernel
  have hname : ∀ a ∈ "c".toList, isBlank a = false ∧ a ∉ ['"', '\'', '<', '>'] :=
    List.forall_mem_singleton.mpr (by decide)
  have hparts : text = "< " ++ "5" ++ " \"a'b\"" := by decide
  have hreplaced : "< " ++ "-1,5e3" ++ " \"a'b\"" = "< -1,5e3 \"a'b\"" := by decide
  obtain ⟨hrefill, hnumber⟩ := shape_contents_irrelevant text
  refine ⟨hp, happart, hfive, hother, ?_, ?_⟩
  · rw [← hrefilled]
    exact (hrefill _ hp "c" hname).1
  · rw [← hreplaced]
    exact (hnumber _ _ _ hparts happart hfive _ hother).1

end Stepwise.Step
