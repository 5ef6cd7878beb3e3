import Stepwise.Proofs.CompletedVariables

/-!
# The scan for placeholders

A token is a quoted text without its own quote inside, or a bracket text without quotes and
without ASCII white space. The placeholders of a line are found by going from left to right and
taking a token wherever one starts; of the bracket texts that start at one place it is the one
that goes on to the last closing bracket of its run.

`IsScan` says this of a list of placeholders without the scan: they are tokens, in order and
apart from each other, and no token starts outside of them. One list satisfies it for each line.
-/
namespace Stepwise.Step

/-- The characters that end the run of a bracket token. -/
def angleBreaks : List Char := ['"', '\'', ' ', '\t', '\n', '\x0c', '\r']

inductive IsTokenText : List Char → Prop
  | double {inner : List Char} : '"' ∉ inner → IsTokenText ('"' :: inner ++ ['"'])
  | single {inner : List Char} : '\'' ∉ inner → IsTokenText ('\'' :: inner ++ ['\''])
  | angle {inner : List Char} : (∀ c ∈ inner, c ∉ angleBreaks) →
      IsTokenText ('<' :: inner ++ ['>'])

/-- Whether a bracket token goes on to the last closing bracket of its run. -/
def Extended (text after : List Char) : Prop :=
  text.head? = some '<' → ∀ run rest, after = run ++ rest → (∀ c ∈ run, c ∉ angleBreaks) →
    '>' ∉ run

/-- A scan of a text whose first character stands at the column `base`. -/
structure IsScan (base : Nat) (cs : List Char) (ps : List Placeholder) : Prop where
  apart : ps.Pairwise fun p q => p.stop ≤ q.start
  tokens : ∀ p ∈ ps, ∃ before after, cs = before ++ p.text.toList ++ after ∧
    p.start = base + before.length ∧ p.stop = p.start + p.text.length ∧
    IsTokenText p.text.toList ∧ Extended p.text.toList after
  complete : ∀ before text after, cs = before ++ text ++ after → IsTokenText text →
    ∃ p ∈ ps, p.start ≤ base + before.length ∧ base + before.length < p.stop

/-- A text with other text in the columns of placeholders. -/
def spliced (marker : List Char) (column : Nat) (cs : List Char) : List Placeholder → List Char
  | [] => cs
  | p :: ps => cs.take (p.start - column) ++ marker ++
      spliced marker p.stop (cs.drop (p.stop - column)) ps

/-! ## Tokens by their grammar -/

section
variable {c : Char} {cs text inner inner' rest after : List Char} {d e : Delimiter}

theorem breaksAngle_eq_false_iff : breaksAngle c = false ↔ c ∉ angleBreaks := by
  simp [breaksAngle, angleBreaks]
  tauto

theorem Piece.length_text_token (d : Delimiter) (inner : List Char) :
    (Piece.token d inner).text.length = inner.length + 2 := by
  simp [Piece.text]

theorem Piece.eq_of_text_token (h : (Piece.token d inner).text = (Piece.token e inner').text) :
    d = e ∧ inner = inner' := by
  simp only [Piece.text, List.cons_append, List.cons.injEq] at h
  obtain ⟨hopening, hrest⟩ := h
  obtain rfl : d = e := by
    cases d <;> cases e <;> first | rfl | cases hopening
  exact ⟨rfl, List.append_left_inj _ |>.mp hrest⟩

theorem isTokenText_iff : IsTokenText text ↔
    ∃ (d : Delimiter) (inner : List Char), text = (Piece.token d inner).text ∧
      ∀ a ∈ inner, d.admits a = true := by
  constructor
  · intro h
    cases h with
    | double h => exact ⟨.double, _, rfl, fun a ha => bne_iff_ne.mpr (ne_of_mem_of_not_mem ha h)⟩
    | single h => exact ⟨.single, _, rfl, fun a ha => bne_iff_ne.mpr (ne_of_mem_of_not_mem ha h)⟩
    | angle h =>
        refine ⟨.angle, _, rfl, fun a ha => ?_⟩
        rw [Delimiter.admits, breaksAngle_eq_false_iff.mpr (h a ha)]
        rfl
  · rintro ⟨d, inner, rfl, h⟩
    cases d with
    | double => exact .double fun hmem => bne_iff_ne.mp (h _ hmem) rfl
    | single => exact .single fun hmem => bne_iff_ne.mp (h _ hmem) rfl
    | angle =>
        refine .angle fun a ha => breaksAngle_eq_false_iff.mp ?_
        exact Bool.not_eq_true' _ |>.mp (h a ha)

theorem isTokenText_token_iff :
    IsTokenText (Piece.token d inner).text ↔ ∀ a ∈ inner, d.admits a = true := by
  rw [isTokenText_iff]
  constructor
  · rintro ⟨e, inner', htext, hadmits⟩
    obtain ⟨rfl, rfl⟩ := Piece.eq_of_text_token htext
    exact hadmits
  · exact fun h => ⟨d, inner, rfl, h⟩

theorem IsTokenText.ne_nil (h : IsTokenText text) : text ≠ [] := by
  cases h <;> exact List.cons_ne_nil _ _

theorem upToAngle_eq_none_iff : upToAngle cs = none ↔
    ∀ run rest, cs = run ++ rest → (∀ c ∈ run, c ∉ angleBreaks) → '>' ∉ run := by
  constructor
  · rintro h run rest rfl hrun hmem
    obtain ⟨front, back, rfl⟩ := List.append_of_mem hmem
    rw [List.append_assoc] at h
    refine upToAngle_ne_none (fun a ha => ?_) _ h
    exact breaksAngle_eq_false_iff.mpr (hrun a (List.mem_append_left _ ha))
  · intro h
    cases hread : upToAngle cs with
    | none => rfl
    | some read =>
        obtain ⟨inner, rest⟩ := read
        obtain ⟨rfl, hinner, -⟩ := upToAngle_eq_some_iff.mp hread
        refine absurd ?_ (h (inner ++ ['>']) rest (by simp) fun a ha => ?_)
        · simp
        · rcases List.mem_append.mp ha with ha | ha
          · exact breaksAngle_eq_false_iff.mp (hinner a ha)
          · rw [List.mem_singleton.mp ha]
            decide

theorem extended_token_iff : Extended (Piece.token d inner).text after ↔
    (d = .angle → upToAngle after = none) := by
  have hopening : d.opening = '<' ↔ d = .angle := by
    cases d <;> decide
  rw [Extended, upToAngle_eq_none_iff, ← hopening]
  simp [Piece.text]

theorem tokenAt?_iff : tokenAt? cs = some (d, inner, rest) ↔
    cs = (Piece.token d inner).text ++ rest ∧ IsTokenText (Piece.token d inner).text ∧
      Extended (Piece.token d inner).text rest := by
  rw [tokenAt?_eq_some_iff, isTokenText_token_iff, extended_token_iff]

/-- Where no placeholder is cut, no token starts. -/
theorem not_isTokenText (h : tokenAt? cs = none) (hcs : cs = text ++ rest) :
    ¬IsTokenText text := by
  intro htoken
  obtain ⟨d, inner, rfl, hadmits⟩ := isTokenText_iff.mp htoken
  rw [hcs, Piece.text, List.cons_append, List.cons_append, tokenAt?_opening,
    Option.map_eq_none_iff, List.append_assoc] at h
  cases d with
  | double => exact upToQuote_eq_none_iff.mp h (by simp [Delimiter.closing])
  | single => exact upToQuote_eq_none_iff.mp h (by simp [Delimiter.closing])
  | angle => exact upToAngle_ne_none (fun a ha => Bool.not_eq_true' _ |>.mp (hadmits a ha)) rest h

end

/-! ## One scan for each line -/

section
variable {base : Nat} {ps : List Placeholder} {c : Char} {cs inner rest : List Char}
variable {d : Delimiter}

theorem isScan_nil : IsScan base [] ps ↔ ps = [] := by
  constructor
  · intro h
    rw [List.eq_nil_iff_forall_not_mem]
    intro p hp
    obtain ⟨before, after, hcs, -, -, htoken, -⟩ := h.tokens p hp
    exact htoken.ne_nil (List.append_eq_nil_iff.mp (List.append_eq_nil_iff.mp hcs.symm).1).2
  · rintro rfl
    refine ⟨.nil, fun p hp => (by cases hp), fun before text after hcs htoken => ?_⟩
    exact absurd (List.append_eq_nil_iff.mp (List.append_eq_nil_iff.mp hcs.symm).1).2 htoken.ne_nil

theorem isScan_plain (hnone : tokenAt? (c :: cs) = none) :
    IsScan base (c :: cs) ps ↔ IsScan (base + 1) cs ps := by
  constructor
  · intro h
    refine ⟨h.apart, fun p hp => ?_, fun before text after hcs htoken => ?_⟩
    · obtain ⟨before, after, hcs, hstart, hstop, htoken, hext⟩ := h.tokens p hp
      cases before with
      | nil => exact absurd htoken (not_isTokenText hnone hcs)
      | cons b before =>
          obtain ⟨-, hcs⟩ := List.cons.inj hcs
          rw [List.length_cons] at hstart
          exact ⟨before, after, hcs, by omega, hstop, htoken, hext⟩
    · obtain ⟨p, hp, hle, hlt⟩ := h.complete (c :: before) text after (by rw [hcs]; rfl) htoken
      rw [List.length_cons] at hle hlt
      exact ⟨p, hp, by omega, by omega⟩
  · intro h
    refine ⟨h.apart, fun p hp => ?_, fun before text after hcs htoken => ?_⟩
    · obtain ⟨before, after, hcs, hstart, hrest⟩ := h.tokens p hp
      refine ⟨c :: before, after, by rw [hcs]; rfl, ?_, hrest⟩
      rw [List.length_cons]
      omega
    · cases before with
      | nil => exact absurd htoken (not_isTokenText hnone hcs)
      | cons b before =>
          obtain ⟨-, hcs⟩ := List.cons.inj hcs
          obtain ⟨p, hp, hle, hlt⟩ := h.complete before text after hcs htoken
          rw [List.length_cons]
          exact ⟨p, hp, by omega, by omega⟩

/-- What begins behind a part of a text stands in what follows that part. -/
theorem exists_behind {part before more : List Char} (h : part ++ rest = before ++ more)
    (hlength : part.length ≤ before.length) : ∃ mid, before = part ++ mid ∧ rest = mid ++ more := by
  obtain ⟨mid, rfl⟩ := List.prefix_of_prefix_length_le (List.prefix_append part rest)
    (h ▸ List.prefix_append before more) hlength
  rw [List.append_assoc] at h
  exact ⟨mid, rfl, List.append_cancel_left h⟩

theorem Placeholder.toList_text_ofList (start : Nat) :
    (⟨d, String.ofList inner, start⟩ : Placeholder).text.toList = (Piece.token d inner).text := by
  rw [toList_text, String.toList_ofList]

theorem Placeholder.stop_ofList (start : Nat) :
    (⟨d, String.ofList inner, start⟩ : Placeholder).stop = start + inner.length + 2 := by
  rw [stop, String.length_ofList]

/-- A token at the head of a text is the first one of its scan. -/
theorem IsScan.eq_cons (h : IsScan base cs ps) (htoken : tokenAt? cs = some (d, inner, rest)) :
    ∃ ps', ps = ⟨d, String.ofList inner, base⟩ :: ps' := by
  obtain ⟨hcs, hgrammar, -⟩ := tokenAt?_iff.mp htoken
  have hmem : ⟨d, String.ofList inner, base⟩ ∈ ps := by
    obtain ⟨p, hp, hle, -⟩ := h.complete [] _ rest hcs hgrammar
    obtain ⟨before, after, hcs', hstart, -, hgrammar', hext'⟩ := h.tokens p hp
    obtain rfl : before = [] := List.eq_nil_of_length_eq_zero (by simp at hle; omega)
    rw [Placeholder.toList_text] at hcs' hgrammar' hext'
    have hread := tokenAt?_iff.mpr ⟨hcs', hgrammar', hext'⟩
    rw [htoken, Option.some.injEq, Prod.mk.injEq, Prod.mk.injEq] at hread
    obtain ⟨rfl, rfl, -⟩ := hread
    have hbase : p.start = base := by simpa using hstart
    rwa [String.ofList_toList, ← hbase]
  cases ps with
  | nil => cases hmem
  | cons q ps' =>
      rcases List.mem_cons.mp hmem with rfl | hlater
      · exact ⟨ps', rfl⟩
      · -- one before it would end before the text begins
        have hle := (List.pairwise_cons.mp h.apart).1 _ hlater
        obtain ⟨before, after, -, hstart, -⟩ := h.tokens q List.mem_cons_self
        rw [Placeholder.stop] at hle
        dsimp only at hle
        omega

theorem IsScan.behind (h : IsScan base cs (⟨d, String.ofList inner, base⟩ :: ps))
    (hcs : cs = (Piece.token d inner).text ++ rest) :
    IsScan (base + inner.length + 2) rest ps := by
  have hlength := Piece.length_text_token d inner
  obtain ⟨hafter, hapart⟩ := List.pairwise_cons.mp h.apart
  rw [Placeholder.stop_ofList] at hafter
  refine ⟨hapart, fun p hp => ?_, fun before text after hrest htoken => ?_⟩
  · obtain ⟨before, after, hcs', hstart, hmore⟩ := h.tokens p (List.mem_cons_of_mem _ hp)
    have hle := hafter p hp
    rw [List.append_assoc, hcs] at hcs'
    obtain ⟨mid, rfl, hmid⟩ := exists_behind hcs' (by omega)
    rw [List.length_append] at hstart
    exact ⟨mid, after, by rw [hmid, List.append_assoc], by omega, hmore⟩
  · have hcs' : cs = (Piece.token d inner).text ++ before ++ text ++ after := by
      rw [hcs, hrest]
      simp only [List.append_assoc]
    obtain ⟨p, hp, hle, hlt⟩ := h.complete _ text after hcs' htoken
    rw [List.length_append] at hle hlt
    rcases List.mem_cons.mp hp with rfl | hp
    · rw [Placeholder.stop_ofList] at hlt
      omega
    · exact ⟨p, hp, by omega, by omega⟩

theorem IsScan.cons (h : IsScan (base + inner.length + 2) rest ps)
    (htoken : tokenAt? cs = some (d, inner, rest)) :
    IsScan base cs (⟨d, String.ofList inner, base⟩ :: ps) := by
  have hlength := Piece.length_text_token d inner
  obtain ⟨hcs, hgrammar, hext⟩ := tokenAt?_iff.mp htoken
  refine ⟨.cons (fun q hq => ?_) h.apart, fun p hp => ?_, fun before text after hcs' htext => ?_⟩
  · obtain ⟨before, after, -, hstart, -⟩ := h.tokens q hq
    rw [Placeholder.stop_ofList]
    omega
  · rcases List.mem_cons.mp hp with rfl | hp
    · have htext : (⟨d, String.ofList inner, base⟩ : Placeholder).text.toList =
          (Piece.token d inner).text := Placeholder.toList_text_ofList base
      exact ⟨[], rest, htext ▸ hcs, rfl, Placeholder.stop_eq, htext ▸ hgrammar, htext ▸ hext⟩
    · obtain ⟨before, after, hrest, hstart, hmore⟩ := h.tokens p hp
      refine ⟨(Piece.token d inner).text ++ before, after, ?_, ?_, hmore⟩
      · rw [hcs, hrest]
        simp only [List.append_assoc]
      · rw [List.length_append]
        omega
  · by_cases hinside : before.length < (Piece.token d inner).text.length
    · refine ⟨_, List.mem_cons_self, Nat.le_add_right _ _, ?_⟩
      rw [Placeholder.stop_ofList]
      omega
    · rw [List.append_assoc, hcs] at hcs'
      obtain ⟨mid, rfl, hmid⟩ := exists_behind hcs' (Nat.le_of_not_lt hinside)
      rw [← List.append_assoc] at hmid
      obtain ⟨p, hp, hle, hlt⟩ := h.complete mid text after hmid htext
      rw [List.length_append]
      exact ⟨p, List.mem_cons_of_mem _ hp, by omega, by omega⟩

theorem isScan_token (htoken : tokenAt? cs = some (d, inner, rest)) :
    IsScan base cs ps ↔ ∃ ps', ps = ⟨d, String.ofList inner, base⟩ :: ps' ∧
      IsScan (base + inner.length + 2) rest ps' := by
  constructor
  · intro h
    obtain ⟨ps', rfl⟩ := h.eq_cons htoken
    exact ⟨ps', rfl, h.behind (tokenAt?_iff.mp htoken).1⟩
  · rintro ⟨ps', rfl, h⟩
    exact h.cons htoken

theorem isScan_iff : IsScan base cs ps ↔ ps = placeholdersFrom base (pieces cs) := by
  fun_induction pieces cs generalizing base ps with
  | case1 => exact isScan_nil
  | case2 c cs d inner rest htoken ih =>
      rw [isScan_token htoken, placeholdersFrom]
      simp only [ih, exists_eq_right]
  | case3 c cs hnone ih => rw [isScan_plain hnone, ih, placeholdersFrom]

end

/-! ## Replacing -/

section
variable {marker : List Char} {column : Nat}

/-- What stands before all placeholders stays. -/
theorem spliced_cons {ps : List Placeholder} (hps : ∀ p ∈ ps.head?, column + 1 ≤ p.start)
    (c : Char) (cs : List Char) :
    spliced marker column (c :: cs) ps = c :: spliced marker (column + 1) cs ps := by
  cases ps with
  | nil => rfl
  | cons p ps =>
      have hstart : column + 1 ≤ p.start := hps p rfl
      have htake : p.start - column = p.start - (column + 1) + 1 := by omega
      have hdrop : p.stop - column = p.stop - (column + 1) + 1 := by
        rw [Placeholder.stop]
        omega
      rw [spliced, spliced, htake, hdrop, List.take_succ_cons, List.drop_succ_cons]
      rfl

theorem le_start_of_mem {parts : List Piece} {p : Placeholder}
    (hp : p ∈ placeholdersFrom column parts) : column ≤ p.start := by
  obtain ⟨before, after, -, hstart⟩ := mem_placeholdersFrom_iff.mp hp
  omega

theorem spliced_placeholdersFrom (parts : List Piece) :
    spliced marker column (textOf parts) (placeholdersFrom column parts) =
      parts.flatMap fun
        | .token _ _ => marker
        | .plain c => [c] := by
  induction parts generalizing column with
  | nil => rfl
  | cons part parts ih =>
      cases part with
      | token d inner =>
          have hstop : column + inner.length + 2 - column =
              (Piece.token d inner).text.length := by
            rw [Piece.length_text_token]
            omega
          rw [placeholdersFrom, spliced, List.flatMap_cons, ← ih, textOf, List.flatMap_cons]
          simp only [Placeholder.stop, String.length_ofList, Nat.sub_self, List.take_zero,
            List.nil_append, hstop, List.drop_left]
          rfl
      | plain c =>
          have hlater : ∀ p ∈ (placeholdersFrom (column + 1) parts).head?, column + 1 ≤ p.start :=
            fun p hp => le_start_of_mem (List.mem_of_head? hp)
          rw [placeholdersFrom, List.flatMap_cons, ← ih]
          exact spliced_cons hlater c (textOf parts)

end

theorem Placeholder.isDollarWrapped_iff (p : Placeholder) : p.isDollarWrapped = true ↔
    ∃ name, name ≠ [] ∧ p.inner.toList = '$' :: name ++ ['$'] := by
  simp only [isDollarWrapped, Bool.and_eq_true, decide_eq_true_eq, beq_iff_eq]
  constructor
  · rintro ⟨⟨hlength, hhead⟩, hlast⟩
    obtain ⟨rest, hrest⟩ := List.head?_eq_some_iff.mp hhead
    rw [hrest] at hlength hlast
    have hne : rest ≠ [] := by
      rintro rfl
      simp at hlength
    rw [List.getLast?_cons_of_ne_nil hne] at hlast
    obtain ⟨name, rfl⟩ := List.getLast?_eq_some_iff.mp hlast
    refine ⟨name, ?_, hrest⟩
    rintro rfl
    simp at hlength
  · rintro ⟨name, hne, hinner⟩
    have hpos := List.length_pos_iff.mpr hne
    rw [hinner, List.getLast?_concat, List.length_append, List.length_cons,
      List.length_singleton]
    exact ⟨⟨by omega, rfl⟩, rfl⟩

/-- The placeholders of a line are its one scan, and replacing them changes the line in their
columns alone. Dollars wrap a placeholder when its inner text is some text between two dollars. -/
theorem placeholders_scan (line : String) :
    (∀ ps, IsScan 1 line.toList ps ↔ ps = placeholders line) ∧
    (∀ p : Placeholder, p.isDollarWrapped = true ↔
      ∃ name, name ≠ [] ∧ p.inner.toList = '$' :: name ++ ['$']) ∧
    ∀ marker, replacePlaceholders line marker =
      String.ofList (spliced marker.toList 1 line.toList (placeholders line)) := by
  refine ⟨fun ps => isScan_iff, Placeholder.isDollarWrapped_iff, fun marker => ?_⟩
  have hspliced : spliced marker.toList 1 (textOf (pieces line.toList)) (placeholders line) = _ :=
    spliced_placeholdersFrom (pieces line.toList)
  rw [textOf_pieces] at hspliced
  rw [hspliced]
  rfl

end Stepwise.Step
