import Stepwise.Proofs.BoundedLines

/-!
# Placeholders of a line with another one in place

A line is cut into pieces from left to right, and whether a piece is cut depends on what
follows it: a quote stands alone only when no other quote of its sort follows, and a
bracket token ends at the last bracket it can reach. So what is put in place of a
placeholder may change the pieces before it. It does not, when it holds no quote that
stands alone there; and it is cut as one piece, when its own delimiters admit it.

`StandBefore` says of pieces that they are cut as they are before a text. The pieces of a
line stand before whatever follows them, and pieces that stand are what a line is cut
into.
-/
namespace Stepwise.Step

namespace Delimiter

/-- The characters that can stand between the delimiters of a placeholder. -/
def admits : Delimiter → Char → Bool
  | double, c => c != '"'
  | single, c => c != '\''
  | angle, c => !breaksAngle c

/-- Reads up to the closing delimiter: the text before it and the text after it. -/
def read : Delimiter → List Char → Option (List Char × List Char)
  | double => upToQuote '"'
  | single => upToQuote '\''
  | angle => upToAngle

end Delimiter

section
variable {q c : Char} {cs inner rest tail : List Char} {d : Delimiter}

theorem upToQuote_eq_none_iff : upToQuote q cs = none ↔ q ∉ cs := by
  induction cs with
  | nil => simp [upToQuote]
  | cons c cs ih =>
      by_cases hc : c = q
      · simp [upToQuote, hc]
      · simp [upToQuote, hc, ih, Ne.symm hc]

theorem upToQuote_eq_some_iff :
    upToQuote q cs = some (inner, rest) ↔ cs = inner ++ q :: rest ∧ q ∉ inner := by
  constructor
  · intro h
    refine ⟨upToQuote_text h, ?_⟩
    induction cs generalizing inner rest with
    | nil => cases h
    | cons c cs ih =>
        unfold upToQuote at h
        split at h
        · cases h
          exact List.not_mem_nil
        · rename_i hc
          obtain ⟨⟨i, r⟩, hr, heq⟩ := Option.map_eq_some_iff.mp h
          cases heq
          have hne : q ≠ c := fun he => hc (beq_iff_eq.mpr he.symm)
          exact List.not_mem_cons_of_ne_of_not_mem hne (ih hr)
  · rintro ⟨rfl, hq⟩
    induction inner with
    | nil => simp [upToQuote]
    | cons c inner ih =>
        have hne : ¬(c == q) = true := by
          rw [beq_iff_eq]
          exact (List.ne_of_not_mem_cons hq).symm
        rw [List.cons_append, upToQuote, if_neg hne, ih (List.not_mem_of_not_mem_cons hq)]
        rfl

theorem upToAngle_cons_eq_none_iff : upToAngle (c :: cs) = none ↔
    breaksAngle c = true ∨ (c ≠ '>' ∧ upToAngle cs = none) := by
  rw [upToAngle]
  cases breaksAngle c with
  | true => simp
  | false => cases upToAngle cs <;> simp

/-- A bracket token ends at the last bracket it can reach. -/
theorem upToAngle_eq_some_iff : upToAngle cs = some (inner, rest) ↔
    cs = inner ++ '>' :: rest ∧ (∀ a ∈ inner, breaksAngle a = false) ∧ upToAngle rest = none := by
  constructor
  · intro h
    refine ⟨upToAngle_text h, ?_⟩
    induction cs generalizing inner rest with
    | nil => cases h
    | cons c cs ih =>
        unfold upToAngle at h
        split at h
        · cases h
        rename_i hbreak
        rw [Bool.not_eq_true] at hbreak
        split at h
        · rename_i i r hr
          cases h
          obtain ⟨hinner, hrest⟩ := ih hr
          exact ⟨List.forall_mem_cons.mpr ⟨hbreak, hinner⟩, hrest⟩
        · rename_i hr
          split at h
          · cases h
            exact ⟨fun a ha => absurd ha List.not_mem_nil, hr⟩
          · cases h
  · rintro ⟨rfl, hinner, hrest⟩
    induction inner with
    | nil => exact upToAngle_close hrest
    | cons c inner ih =>
        have hc : breaksAngle c = false := hinner c List.mem_cons_self
        exact upToAngle_inside hc (ih fun a ha => hinner a (List.mem_cons_of_mem c ha))

namespace Delimiter

theorem read_eq_some_iff : d.read cs = some (inner, rest) ↔
    cs = inner ++ d.closing :: rest ∧ (∀ a ∈ inner, d.admits a = true) ∧
      (d = .angle → upToAngle rest = none) := by
  cases d with
  | double =>
      simp only [read, upToQuote_eq_some_iff, closing, admits, bne_iff_ne, reduceCtorEq,
        false_implies, and_true]
      exact and_congr_right fun _ => ⟨fun h a ha he => h (he ▸ ha), fun h hq => h _ hq rfl⟩
  | single =>
      simp only [read, upToQuote_eq_some_iff, closing, admits, bne_iff_ne, reduceCtorEq,
        false_implies, and_true]
      exact and_congr_right fun _ => ⟨fun h a ha he => h (he ▸ ha), fun h hq => h _ hq rfl⟩
  | angle =>
      simp only [read, upToAngle_eq_some_iff, closing, admits, Bool.not_eq_true', true_implies]

theorem read_eq_none_of_append (h : d.read (cs ++ tail) = none) : d.read cs = none := by
  cases d with
  | double =>
      rw [read, upToQuote_eq_none_iff] at h ⊢
      exact fun hq => h (List.mem_append_left tail hq)
  | single =>
      rw [read, upToQuote_eq_none_iff] at h ⊢
      exact fun hq => h (List.mem_append_left tail hq)
  | angle =>
      rw [read] at h ⊢
      induction cs with
      | nil => rfl
      | cons c cs ih =>
          rw [List.cons_append, upToAngle_cons_eq_none_iff] at h
          rw [upToAngle_cons_eq_none_iff]
          exact h.imp_right fun h => ⟨h.1, ih h.2⟩

end Delimiter

theorem tokenAt?_opening (d : Delimiter) (cs : List Char) :
    tokenAt? (d.opening :: cs) = (d.read cs).map fun r => (d, r.1, r.2) := by
  cases d <;> rfl

theorem tokenAt?_of_ne_opening (h : ∀ d : Delimiter, c ≠ d.opening) :
    tokenAt? (c :: cs) = none := by
  have h1 : c ≠ '"' := h .double
  have h2 : c ≠ '\'' := h .single
  have h3 : c ≠ '<' := h .angle
  simp [tokenAt?, h1, h2, h3]

/-- When a placeholder is cut: it is at the head with its delimiters, they admit what stands
between them, and no later bracket can be reached. -/
theorem tokenAt?_eq_some_iff : tokenAt? cs = some (d, inner, rest) ↔
    cs = (Piece.token d inner).text ++ rest ∧ (∀ a ∈ inner, d.admits a = true) ∧
      (d = .angle → upToAngle rest = none) := by
  have hread : ∀ tail, tokenAt? (d.opening :: tail) = some (d, inner, rest) ↔
      d.read tail = some (inner, rest) := by
    intro tail
    rw [tokenAt?_opening, Option.map_eq_some_iff]
    constructor
    · rintro ⟨⟨i, r⟩, hr, heq⟩
      cases heq
      exact hr
    · exact fun hr => ⟨_, hr, rfl⟩
  constructor
  · intro h
    have htext := tokenAt?_text h
    rw [htext] at h
    refine ⟨htext, ?_⟩
    exact (d.read_eq_some_iff.mp ((hread _).mp h)).2
  · rintro ⟨rfl, hinner, hrest⟩
    refine (hread _).mpr (d.read_eq_some_iff.mpr ⟨?_, hinner, hrest⟩)
    simp

theorem tokenAt?_eq_none_iff :
    tokenAt? (c :: cs) = none ↔ ∀ d : Delimiter, c = d.opening → d.read cs = none := by
  constructor
  · rintro h d rfl
    rwa [tokenAt?_opening, Option.map_eq_none_iff] at h
  · intro h
    by_cases hc : ∃ d : Delimiter, c = d.opening
    · obtain ⟨d, rfl⟩ := hc
      rw [tokenAt?_opening, h d rfl]
      rfl
    · exact tokenAt?_of_ne_opening fun d hd => hc ⟨d, hd⟩

end

/-! ## Pieces that stand -/

def textOf (parts : List Piece) : List Char :=
  parts.flatMap Piece.text

/-- Whether a piece is cut before a text: the delimiters of a placeholder admit what stands
between them and reach no further bracket, and a single character opens nothing. -/
def Piece.Stands (rest : List Char) : Piece → Prop
  | token d inner => (∀ a ∈ inner, d.admits a = true) ∧ (d = .angle → upToAngle rest = none)
  | plain c => ∀ d : Delimiter, c = d.opening → d.read rest = none

/-- Pieces that are cut as they are before a text. -/
def StandBefore (tail : List Char) : List Piece → Prop
  | [] => True
  | part :: parts => part.Stands (textOf parts ++ tail) ∧ StandBefore tail parts

section
variable {before after parts : List Piece} {tail : List Char} {d : Delimiter}

theorem textOf_append : textOf (before ++ after) = textOf before ++ textOf after :=
  List.flatMap_append

theorem textOf_pieces (cs : List Char) : textOf (pieces cs) = cs :=
  pieces_flatMap_text cs

theorem standBefore_append : StandBefore tail (before ++ after) ↔
    StandBefore (textOf after ++ tail) before ∧ StandBefore tail after := by
  induction before with
  | nil => simp [StandBefore]
  | cons part before ih =>
      rw [List.cons_append, StandBefore, StandBefore, ih, textOf_append, List.append_assoc,
        and_assoc]

/-- Pieces that stand are cut. -/
theorem pieces_of_standBefore (h : StandBefore tail parts) :
    pieces (textOf parts ++ tail) = parts ++ pieces tail := by
  induction parts with
  | nil => rfl
  | cons part parts ih =>
      obtain ⟨hpart, hparts⟩ := h
      have hsplit : textOf (part :: parts) ++ tail = part.text ++ (textOf parts ++ tail) := by
        rw [textOf, List.flatMap_cons, List.append_assoc]
        rfl
      rw [hsplit, List.cons_append, ← ih hparts]
      cases part with
      | token d inner => exact pieces_token (tokenAt?_eq_some_iff.mpr ⟨rfl, hpart⟩)
      | plain c => exact pieces_plain (tokenAt?_eq_none_iff.mpr hpart)

/-- The pieces of a text stand. -/
theorem standBefore_pieces (cs : List Char) : StandBefore [] (pieces cs) := by
  fun_induction pieces cs with
  | case1 => trivial
  | case2 c cs d inner rest h ih =>
      refine ⟨?_, ih⟩
      rw [textOf_pieces, List.append_nil]
      exact (tokenAt?_eq_some_iff.mp h).2
  | case3 c cs h ih =>
      refine ⟨?_, ih⟩
      rw [textOf_pieces, List.append_nil]
      exact tokenAt?_eq_none_iff.mp h

/-- Pieces that stand before a text stand before nothing. -/
theorem StandBefore.alone (h : StandBefore tail parts) : StandBefore [] parts := by
  induction parts with
  | nil => trivial
  | cons part parts ih =>
      obtain ⟨hpart, hparts⟩ := h
      refine ⟨?_, ih hparts⟩
      rw [List.append_nil]
      cases part with
      | token d inner =>
          exact ⟨hpart.1, fun hd => Delimiter.read_eq_none_of_append (d := .angle) (hpart.2 hd)⟩
      | plain c => exact fun d hd => Delimiter.read_eq_none_of_append (hpart d hd)

/-- Only one list of pieces of a text stands. -/
theorem pieces_textOf (h : StandBefore tail parts) : pieces (textOf parts) = parts := by
  have halone := pieces_of_standBefore h.alone
  have hnil : pieces [] = [] := by rw [pieces]
  rwa [List.append_nil, hnil, List.append_nil] at halone

theorem pieces_textOf_iff : pieces (textOf parts) = parts ↔ StandBefore [] parts :=
  ⟨fun h => h ▸ standBefore_pieces _, pieces_textOf⟩

theorem eq_of_textOf {before' : List Piece} {tail' : List Char} (h : StandBefore tail before)
    (h' : StandBefore tail' before') (htext : textOf before' = textOf before) :
    before' = before := by
  rw [← pieces_textOf h, ← pieces_textOf h', htext]

end

/-! ## Another text between the delimiters -/

theorem upToAngle_ne_none {inner : List Char} (h : ∀ a ∈ inner, breaksAngle a = false)
    (rest : List Char) : upToAngle (inner ++ '>' :: rest) ≠ none := by
  induction inner with
  | nil =>
      rw [List.nil_append, Ne, upToAngle_cons_eq_none_iff]
      rintro (hbreak | ⟨hne, _⟩)
      · cases hbreak
      · exact hne rfl
  | cons c inner ih =>
      rw [List.cons_append, Ne, upToAngle_cons_eq_none_iff, h c List.mem_cons_self]
      rintro (hbreak | ⟨_, hnone⟩)
      · cases hbreak
      · exact ih (fun a ha => h a (List.mem_cons_of_mem c ha)) hnone

section
variable {before after : List Piece} {pre inner name rest : List Char} {d : Delimiter}

/-- Nothing is closed in front of a placeholder because another text stands in it. -/
theorem upToAngle_replace (hinner : ∀ a ∈ inner, d.admits a = true)
    (h : upToAngle (pre ++ ((Piece.token d inner).text ++ rest)) = none) :
    upToAngle (pre ++ ((Piece.token d name).text ++ rest)) = none := by
  induction pre with
  | nil =>
      cases d with
      | double => exact upToAngle_cons_eq_none_iff.mpr (.inl rfl)
      | single => exact upToAngle_cons_eq_none_iff.mpr (.inl rfl)
      | angle =>
          -- the closing bracket can be reached from in front of the token
          have hfree : ∀ a ∈ '<' :: inner, breaksAngle a = false := by
            intro a ha
            rcases List.mem_cons.mp ha with rfl | ha
            · rfl
            · have hadmits := hinner a ha
              rwa [Delimiter.admits, Bool.not_eq_true'] at hadmits
          have hreach := upToAngle_ne_none hfree rest
          rw [Piece.text, List.nil_append, List.append_assoc] at h
          exact absurd h hreach
  | cons c pre ih =>
      rw [List.cons_append, upToAngle_cons_eq_none_iff] at h ⊢
      exact h.imp_right fun h => ⟨h.1, ih h.2⟩

theorem Delimiter.read_quote_eq_none_iff {cs : List Char} (hd : d.isQuote = true) :
    d.read cs = none ↔ d.opening ∉ cs := by
  cases d with
  | double => exact upToQuote_eq_none_iff
  | single => exact upToQuote_eq_none_iff
  | angle => cases hd

/-- A piece before a placeholder is cut as before with another text in the placeholder,
unless it is a quote that stands alone and the text would close it. -/
theorem Piece.stands_replace {part : Piece} (hinner : ∀ a ∈ inner, d.admits a = true)
    (h : part.Stands (pre ++ ((Piece.token d inner).text ++ rest))) :
    part.Stands (pre ++ ((Piece.token d name).text ++ rest)) ↔
      ∀ e : Delimiter, e.isQuote = true → part = .plain e.opening → e.opening ∉ name := by
  cases part with
  | token e text =>
      refine ⟨fun _ _ _ hpart => Piece.noConfusion hpart, fun _ => ⟨h.1, fun he => ?_⟩⟩
      exact upToAngle_replace hinner (h.2 he)
  | plain c =>
      -- the old line has no such quote further on, so the new one has it in the text or nowhere
      have hquote : ∀ e : Delimiter, e.isQuote = true → c = e.opening →
          (e.read (pre ++ ((Piece.token d name).text ++ rest)) = none ↔ e.opening ∉ name) := by
        intro e he hc
        have hold := (Delimiter.read_quote_eq_none_iff he).mp (h e hc)
        rw [Delimiter.read_quote_eq_none_iff he]
        simp only [Piece.text, List.mem_append, List.mem_cons, not_or] at hold ⊢
        tauto
      constructor
      · intro hnew e he hpart
        cases hpart
        exact (hquote e he rfl).mp (hnew e rfl)
      · intro hnot e hc
        cases he : e.isQuote with
        | true => exact (hquote e he hc).mpr (hnot e he (congrArg Piece.plain hc))
        | false =>
            cases e with
            | double => cases he
            | single => cases he
            | angle => exact upToAngle_replace hinner (h .angle hc)

/-- Another text in a placeholder leaves the pieces before it as they are exactly when no
quote that stands alone there is in it. -/
theorem standBefore_replace (hinner : ∀ a ∈ inner, d.admits a = true)
    (h : StandBefore (textOf (.token d inner :: after)) before) :
    StandBefore (textOf (.token d name :: after)) before ↔
      ∀ e : Delimiter, e.isQuote = true → .plain e.opening ∈ before → e.opening ∉ name := by
  induction before with
  | nil => simp [StandBefore]
  | cons part before ih =>
      obtain ⟨hpart, hbefore⟩ := h
      rw [StandBefore, ih hbefore]
      have hstands : part.Stands (textOf before ++ textOf (.token d name :: after)) ↔ _ :=
        Piece.stands_replace hinner hpart
      constructor
      · rintro ⟨hnew, hrest⟩ e he hmem
        rcases List.mem_cons.mp hmem with heq | hmem
        · exact hstands.mp hnew e he heq.symm
        · exact hrest e he hmem
      · intro hall
        refine ⟨hstands.mpr fun e he heq => hall e he ?_, fun e he hmem => hall e he ?_⟩
        · exact heq ▸ List.mem_cons_self
        · exact List.mem_cons_of_mem part hmem

end

/-! ## Placeholders with their columns -/

section
variable {before after parts : List Piece} {column : Nat} {p : Placeholder}

theorem length_textOf_token (d : Delimiter) (inner : List Char) :
    (textOf (.token d inner :: parts)).length = inner.length + 2 + (textOf parts).length := by
  rw [textOf, List.flatMap_cons, List.length_append]
  simp [Piece.text, textOf]

theorem length_textOf_plain (c : Char) :
    (textOf (.plain c :: parts)).length = 1 + (textOf parts).length := by
  rw [textOf, List.flatMap_cons, List.length_append]
  rfl

theorem placeholdersFrom_append : placeholdersFrom column (before ++ after) =
    placeholdersFrom column before ++ placeholdersFrom (column + (textOf before).length) after := by
  induction before generalizing column with
  | nil => rfl
  | cons part before ih =>
      cases part with
      | token d inner =>
          rw [List.cons_append, placeholdersFrom, placeholdersFrom, ih, length_textOf_token,
            List.cons_append, Nat.add_assoc column, Nat.add_assoc column]
      | plain c =>
          rw [List.cons_append, placeholdersFrom, placeholdersFrom, ih, length_textOf_plain,
            Nat.add_assoc column]

theorem Placeholder.touches_iff {column : Int} :
    p.touches column = true ↔ (p.start : Int) ≤ column ∧ column ≤ (p.stop : Int) := by
  rw [touches, Bool.and_eq_true, decide_eq_true_eq, decide_eq_true_eq]

theorem stop_le_of_mem (h : p ∈ placeholdersFrom column parts) :
    p.stop ≤ column + (textOf parts).length := by
  induction parts generalizing column with
  | nil => exact absurd h List.not_mem_nil
  | cons part parts ih =>
      cases part with
      | token d inner =>
          rw [length_textOf_token]
          rcases List.mem_cons.mp h with rfl | h
          · have hlen : (String.ofList inner).length = inner.length := String.length_ofList
            simp only [Placeholder.stop, hlen]
            omega
          · have := ih h
            omega
      | plain c =>
          have := ih h
          rw [length_textOf_plain]
          omega

/-- A placeholder among pieces is one of them, and its column counts the characters before
it. -/
theorem mem_placeholdersFrom_iff : p ∈ placeholdersFrom column parts ↔
    ∃ before after, parts = before ++ .token p.delimiter p.inner.toList :: after ∧
      p.start = column + (textOf before).length := by
  constructor
  · intro h
    induction parts generalizing column with
    | nil => exact absurd h List.not_mem_nil
    | cons part parts ih =>
        cases part with
        | token d inner =>
            rcases List.mem_cons.mp h with rfl | h
            · exact ⟨[], parts, by simp, rfl⟩
            · obtain ⟨before, after, rfl, hstart⟩ := ih h
              refine ⟨.token d inner :: before, after, rfl, ?_⟩
              rw [hstart, length_textOf_token]
              omega
        | plain c =>
            obtain ⟨before, after, rfl, hstart⟩ := ih h
            refine ⟨.plain c :: before, after, rfl, ?_⟩
            rw [hstart, length_textOf_plain, Nat.add_assoc]
  · rintro ⟨before, after, rfl, hstart⟩
    rw [placeholdersFrom_append]
    refine List.mem_append_right _ (List.mem_cons.mpr (.inl ?_))
    rw [← hstart, String.ofList_toList]

/-- The placeholder of a line that a column touches, with the pieces around it. -/
theorem placeholderAt?_eq_some {line : String} {column : Int}
    (h : placeholderAt? line column = some p) :
    ∃ before after, pieces line.toList = before ++ .token p.delimiter p.inner.toList :: after ∧
      p.start = (textOf before).length + 1 := by
  obtain ⟨before, after, hsplit, hstart⟩ :=
    mem_placeholdersFrom_iff.mp (List.mem_of_find?_eq_some h)
  exact ⟨before, after, hsplit, hstart.trans (Nat.add_comm ..)⟩

theorem placeholderAt?_of_pieces {line : String} {d : Delimiter} {inner : String}
    (h : pieces line.toList = before ++ .token d inner.toList :: after) :
    placeholderAt? line ((textOf before).length + 2 : Nat) =
      some ⟨d, inner, (textOf before).length + 1⟩ := by
  have hbefore : ∀ q ∈ placeholdersFrom 1 before,
      ¬q.touches ((textOf before).length + 2 : Nat) = true := by
    intro q hq
    have hstop := stop_le_of_mem hq
    rw [Placeholder.touches_iff]
    omega
  have hself : (⟨d, inner, (textOf before).length + 1⟩ : Placeholder).touches
      ((textOf before).length + 2 : Nat) = true := by
    rw [Placeholder.touches_iff]
    dsimp only [Placeholder.stop]
    omega
  rw [placeholderAt?, placeholders, h, placeholdersFrom_append, placeholdersFrom,
    String.ofList_toList, Nat.add_comm 1, List.find?_append,
    List.find?_eq_none.mpr hbefore, Option.none_or]
  exact List.find?_cons_of_pos hself

end
end Stepwise.Step
