import Mathlib.Data.List.TakeWhile
import Stepwise.Proofs.JsonGrammar

/-!
# Where the values of the grammar end

A value that is passed over by its brackets and quotes alone ends where the grammar
ends it. This holds although each kind of bracket is counted by itself, because a
balanced text has as many opening as closing brackets of either kind. The count of
levels, which takes both kinds together, stays within the depth of the value.
-/
namespace Stepwise.Json

/-- What follows a value: no more of a number. -/
def Ends (rest : List Char) : Prop :=
  ∀ c cs, rest = c :: cs → isNumberChar c = false

theorem ends_nil : Ends [] := nofun

theorem ends_cons {c : Char} {cs : List Char} (h : isNumberChar c = false) : Ends (c :: cs) := by
  intro d ds he
  cases he
  exact h

theorem isNumberChar_of_isSpace {c : Char} (h : isSpace c = true) : isNumberChar c = false := by
  simp only [isSpace, Bool.or_eq_true, beq_iff_eq] at h
  rcases h with ((rfl | rfl) | rfl) | rfl <;> decide

theorem Blank.ends_append {w rest : List Char} (hw : Blank w) (h : Ends rest) : Ends (w ++ rest) := by
  cases w with
  | nil => exact h
  | cons c w => exact ends_cons (isNumberChar_of_isSpace (hw c List.mem_cons_self))

/-! ## Strings -/

theorem restOfString_append {body : List Char} (h : Enclosed body) (rest : List Char) :
    restOfString (body ++ '"' :: rest) = some (body ++ ['"'], rest) := by
  induction h with
  | nil => rfl
  | char h0 hq hb _ ih =>
      rw [List.cons_append, restOfString, ih]
      · simp [hb]
      · exact hq
      · intro d ds hd
        exact absurd hd hb
  | pair _ _ ih =>
      rw [List.cons_append, List.cons_append, restOfString, ih]
      rfl

/-! ## Brackets -/

section
variable {opening closing : Char} {depth : Nat}

theorem restOfNested_pair (e : Char) (rest : List Char) :
    restOfNested opening closing depth true ('\\' :: e :: rest) =
      (restOfNested opening closing depth true rest).map fun (s, r) => ('\\' :: e :: s, r) := by
  rw [restOfNested.eq_def]
  rfl

theorem restOfNested_inString {c : Char} (hb : c ≠ '\\') (rest : List Char) :
    restOfNested opening closing depth true (c :: rest) =
      (restOfNested opening closing depth (c != '"') rest).map fun (s, r) => (c :: s, r) := by
  rw [restOfNested.eq_def]
  simp only [if_true]
  split
  · exact absurd rfl hb
  · exact absurd rfl hb
  · rfl

theorem restOfNested_outside {c : Char} (hc : c ≠ closing) (rest : List Char) :
    restOfNested opening closing depth false (c :: rest) =
      (restOfNested opening closing (if c == opening then depth + 1 else depth) (c == '"')
        rest).map fun (s, r) => (c :: s, r) := by
  rw [restOfNested.eq_def]
  simp only [Bool.false_eq_true, if_false, beq_iff_eq, hc]

theorem restOfNested_close (rest : List Char) :
    restOfNested opening closing (depth + 1) false (closing :: rest) =
      (restOfNested opening closing depth false rest).map fun (s, r) => (closing :: s, r) := by
  rw [restOfNested.eq_def]
  simp only [Bool.false_eq_true, if_false, beq_self_eq_true, if_true]

theorem restOfNested_end (rest : List Char) :
    restOfNested opening closing 0 false (closing :: rest) = some ([closing], rest) := by
  rw [restOfNested.eq_def]
  simp only [Bool.false_eq_true, if_false, beq_self_eq_true, if_true]

end

/-- The rest of a string is passed over whole inside brackets. -/
theorem restOfNested_string {body : List Char} (h : Enclosed body) (opening closing : Char)
    (depth : Nat) (rest : List Char) :
    restOfNested opening closing depth true (body ++ '"' :: rest) =
      (restOfNested opening closing depth false rest).map fun (s, r) =>
        (body ++ '"' :: s, r) := by
  induction h with
  | nil => exact restOfNested_inString (by decide) rest
  | char _ hq hb _ ih =>
      rw [List.cons_append, restOfNested_inString hb, bne_iff_ne.mpr hq, ih, Option.map_map]
      rfl
  | pair _ _ ih =>
      rw [List.cons_append, List.cons_append, restOfNested_pair, ih, Option.map_map]
      rfl

/-- A text that is passed over whole inside brackets of a kind, at every depth. -/
def Passed (opening closing : Char) (text : List Char) : Prop :=
  ∀ depth rest, restOfNested opening closing depth false (text ++ rest) =
    (restOfNested opening closing depth false rest).map fun (s, r) => (text ++ s, r)

section
variable {opening closing : Char}

theorem Passed.append {text more : List Char} (h : Passed opening closing text)
    (hm : Passed opening closing more) : Passed opening closing (text ++ more) := by
  intro depth rest
  rw [List.append_assoc, h, hm, Option.map_map]
  simp [Function.comp_def]

theorem passed_nil : Passed opening closing [] := by
  intro depth rest
  rw [List.nil_append]
  exact Option.map_id'.symm

theorem passed_char {c : Char} (ho : c ≠ opening) (hc : c ≠ closing) (hq : c ≠ '"') :
    Passed opening closing [c] := by
  intro depth rest
  rw [List.singleton_append, restOfNested_outside hc, beq_false_of_ne ho, beq_false_of_ne hq,
    if_neg Bool.false_ne_true]
  rfl

theorem passed_string {body : List Char} (ho : '"' ≠ opening) (hc : '"' ≠ closing)
    (hb : Enclosed body) : Passed opening closing ('"' :: (body ++ ['"'])) := by
  intro depth rest
  rw [List.cons_append, List.append_assoc, List.singleton_append, restOfNested_outside hc,
    beq_false_of_ne ho, if_neg Bool.false_ne_true, beq_self_eq_true, restOfNested_string hb,
    Option.map_map]
  simp [Function.comp_def]

theorem Passed.brackets {inner : List Char} (hne : opening ≠ closing) (hq : opening ≠ '"')
    (h : Passed opening closing inner) :
    Passed opening closing (opening :: (inner ++ [closing])) := by
  intro depth rest
  rw [List.cons_append, List.append_assoc, List.singleton_append, restOfNested_outside hne,
    beq_self_eq_true, if_pos rfl, beq_false_of_ne hq, h, restOfNested_close, Option.map_map,
    Option.map_map]
  simp [Function.comp_def]

/-- Brackets of the other kind are passed over like any other characters. -/
theorem Passed.otherBrackets {a b : Char} {inner : List Char} (ha : a ≠ opening ∧ a ≠ closing)
    (hb : b ≠ opening ∧ b ≠ closing) (hq : a ≠ '"' ∧ b ≠ '"') (h : Passed opening closing inner) :
    Passed opening closing (a :: (inner ++ [b])) :=
  (passed_char ha.1 ha.2 hq.1).append (h.append (passed_char hb.1 hb.2 hq.2))

end

def IsBrackets (opening closing : Char) : Prop :=
  (opening = '[' ∧ closing = ']') ∨ (opening = '\x7b' ∧ closing = '\x7d')

theorem Passed.square {opening closing : Char} (hk : IsBrackets opening closing)
    {inner : List Char} (h : Passed opening closing inner) :
    Passed opening closing ('[' :: (inner ++ [']'])) := by
  rcases hk with ⟨rfl, rfl⟩ | ⟨rfl, rfl⟩
  · exact h.brackets (by decide) (by decide)
  · exact h.otherBrackets (by decide) (by decide) (by decide)

theorem Passed.curly {opening closing : Char} (hk : IsBrackets opening closing)
    {inner : List Char} (h : Passed opening closing inner) :
    Passed opening closing ('\x7b' :: (inner ++ ['\x7d'])) := by
  rcases hk with ⟨rfl, rfl⟩ | ⟨rfl, rfl⟩
  · exact h.otherBrackets (by decide) (by decide) (by decide)
  · exact h.brackets (by decide) (by decide)

/-- A balanced text is passed over whole inside brackets of either kind. -/
theorem Balanced.passed {opening closing : Char} (hk : IsBrackets opening closing)
    {levels : Nat} {text : List Char} (h : Balanced levels text) :
    Passed opening closing text := by
  induction h with
  | nil => exact passed_nil
  | plain hp _ ih =>
      obtain ⟨hs, hsc, hc, hcc⟩ := hp.notBracket
      rcases hk with ⟨rfl, rfl⟩ | ⟨rfl, rfl⟩
      · exact (passed_char hs hsc hp.notQuote).append ih
      · exact (passed_char hc hcc hp.notQuote).append ih
  | string hb _ ih =>
      have hq : '"' ≠ opening ∧ '"' ≠ closing := by
        rcases hk with ⟨rfl, rfl⟩ | ⟨rfl, rfl⟩ <;> decide
      have hs := (passed_string hq.1 hq.2 hb).append ih
      rwa [List.cons_append, List.append_assoc] at hs
  | array _ _ ihi ihc =>
      have hs := (ihi.square hk).append ihc
      rwa [List.cons_append, List.append_assoc] at hs
  | object _ _ ihi ihc =>
      have hs := (ihi.curly hk).append ihc
      rwa [List.cons_append, List.append_assoc] at hs

/-! ## Levels -/

theorem nestsWithin_pair (room : Int) (e : Char) (rest : List Char) :
    nestsWithin room true ('\\' :: e :: rest) = nestsWithin room true rest := by
  rw [nestsWithin.eq_def]
  rfl

theorem nestsWithin_inString {c : Char} (hb : c ≠ '\\') (room : Int) (rest : List Char) :
    nestsWithin room true (c :: rest) = nestsWithin room (c != '"') rest := by
  rw [nestsWithin.eq_def]
  simp only [if_true]
  split
  · exact absurd rfl hb
  · rfl

theorem nestsWithin_string {body : List Char} (h : Enclosed body) (room : Int)
    (rest : List Char) :
    nestsWithin room true (body ++ '"' :: rest) = nestsWithin room false rest := by
  induction h with
  | nil => exact nestsWithin_inString (by decide) room rest
  | char _ hq hb _ ih => rw [List.cons_append, nestsWithin_inString hb, bne_iff_ne.mpr hq, ih]
  | pair _ _ ih => rw [List.cons_append, List.cons_append, nestsWithin_pair, ih]

theorem nestsWithin_open {c : Char} (hc : c = '[' ∨ c = '\x7b') (room : Int) (rest : List Char) :
    nestsWithin room false (c :: rest) = (decide (0 < room) && nestsWithin (room - 1) false rest) := by
  rw [nestsWithin.eq_def]
  rcases hc with rfl | rfl <;> rfl

theorem nestsWithin_close {c : Char} (hc : c = ']' ∨ c = '\x7d') (room : Int) (rest : List Char) :
    nestsWithin room false (c :: rest) = nestsWithin (room + 1) false rest := by
  rw [nestsWithin.eq_def]
  rcases hc with rfl | rfl <;> rfl

theorem nestsWithin_outside {c : Char} (h : c ≠ '[' ∧ c ≠ ']' ∧ c ≠ '\x7b' ∧ c ≠ '\x7d')
    (room : Int) (rest : List Char) :
    nestsWithin room false (c :: rest) = nestsWithin room (c == '"') rest := by
  rw [nestsWithin.eq_def]
  obtain ⟨h1, h2, h3, h4⟩ := h
  simp [h1, h2, h3, h4]

/-- Brackets around a text that fits one level less leave the count as it was. -/
theorem nestsWithin_brackets {a b : Char} (ha : a = '[' ∨ a = '\x7b') (hb : b = ']' ∨ b = '\x7d')
    {room : Int} (hr : 0 < room) {inner rest : List Char}
    (hi : ∀ rest, nestsWithin (room - 1) false (inner ++ rest) = nestsWithin (room - 1) false rest) :
    nestsWithin room false (a :: (inner ++ b :: rest)) = nestsWithin room false rest := by
  rw [nestsWithin_open ha, hi, nestsWithin_close hb, Int.sub_add_cancel, decide_eq_true hr,
    Bool.true_and]

/-- A balanced text takes no more levels than its depth and gives all of them back. -/
theorem Balanced.nestsWithin_append {levels : Nat} {text : List Char} (h : Balanced levels text)
    {room : Int} (hr : levels ≤ room) (rest : List Char) :
    nestsWithin room false (text ++ rest) = nestsWithin room false rest := by
  induction h generalizing room rest with
  | nil => rfl
  | plain hp _ ih =>
      rw [List.cons_append, nestsWithin_outside hp.notBracket, beq_false_of_ne hp.notQuote,
        ih hr]
  | string hb _ ih =>
      rw [List.cons_append, List.append_assoc, List.cons_append,
        nestsWithin_outside (by decide), beq_self_eq_true, nestsWithin_string hb, ih hr]
  | array _ _ ihi ihc =>
      have hroom : 0 < room := by omega
      rw [List.cons_append, List.append_assoc, List.cons_append,
        nestsWithin_brackets (.inl rfl) (.inl rfl) hroom fun rest => ihi (by omega) rest, ihc hr]
  | object _ _ ihi ihc =>
      have hroom : 0 < room := by omega
      rw [List.cons_append, List.append_assoc, List.cons_append,
        nestsWithin_brackets (.inr rfl) (.inr rfl) hroom fun rest => ihi (by omega) rest, ihc hr]

/-! ## Values -/

theorem Passed.restOfNested_closed {opening closing : Char} {inner : List Char}
    (h : Passed opening closing inner) (rest : List Char) :
    restOfNested opening closing 0 false (inner ++ closing :: rest) =
      some (inner ++ [closing], rest) := by
  rw [h, restOfNested_end]
  rfl

theorem spanValue_square {inner : List Char} {levels : Nat} (h : Balanced levels inner)
    (rest : List Char) :
    spanValue ('[' :: (inner ++ [']']) ++ rest) = some ('[' :: (inner ++ [']']), rest) := by
  have hs := (h.passed (.inl ⟨rfl, rfl⟩)).restOfNested_closed rest
  rw [List.cons_append, List.append_assoc, List.singleton_append, spanValue]
  simp [hs]

theorem spanValue_curly {inner : List Char} {levels : Nat} (h : Balanced levels inner)
    (rest : List Char) :
    spanValue ('\x7b' :: (inner ++ ['\x7d']) ++ rest) =
      some ('\x7b' :: (inner ++ ['\x7d']), rest) := by
  have hs := (h.passed (.inr ⟨rfl, rfl⟩)).restOfNested_closed rest
  rw [List.cons_append, List.append_assoc, List.singleton_append, spanValue]
  simp [hs]

theorem spanValue_number {token : List Char} (h : IsNumber token) {rest : List Char}
    (hr : Ends rest) : spanValue (token ++ rest) = some (token, rest) := by
  obtain ⟨c, cs, rfl, hc⟩ := h.head
  have hcs : ∀ d ∈ cs, isNumberChar d = true :=
    fun d hd => h.isNumberChar d (List.mem_cons_of_mem c hd)
  have htake : (cs ++ rest).takeWhile isNumberChar = cs := by
    rw [List.takeWhile_append_of_pos hcs]
    cases rest with
    | nil => exact List.append_nil cs
    | cons d rest => rw [List.takeWhile_cons_of_neg (by simp [hr d rest rfl]), List.append_nil]
  have hdrop : (cs ++ rest).dropWhile isNumberChar = rest := by
    rw [List.dropWhile_append_of_pos hcs]
    cases rest with
    | nil => rfl
    | cons d rest => rw [List.dropWhile_cons_of_neg (by simp [hr d rest rfl])]
  have hmark : c ≠ '\x7b' ∧ c ≠ '[' ∧ c ≠ '"' := by
    refine ⟨?_, ?_, ?_⟩
    all_goals
      rintro rfl
      exact absurd hc (by decide)
  rw [List.cons_append, spanValue]
  simp only [beq_iff_eq, hmark.1, hmark.2.1, hmark.2.2, if_false, hc, if_true, htake, hdrop]

/-- A value is split off from what follows. Only a number needs to be ended by it. -/
theorem IsValue.spanValue_append {depth : Nat} {token : List Char} (h : IsValue depth token)
    {rest : List Char} (hr : IsNumber token → Ends rest) :
    spanValue (token ++ rest) = some (token, rest) := by
  cases h with
  | word hw =>
      simp only [List.mem_cons, List.not_mem_nil, or_false] at hw
      rcases hw with rfl | rfl | rfl <;> rfl
  | number hn => exact spanValue_number hn (hr hn)
  | string hs =>
      cases hs with
      | quoted hb =>
          rw [List.cons_append, List.append_assoc, List.singleton_append, spanValue]
          simp [restOfString_append hb.enclosed]
  | emptyArray hw => exact spanValue_square (hw.balanced : Balanced 0 _) rest
  | array _ hbare hv =>
      exact spanValue_square (balanced_items hbare fun i hi => (hv i hi).balanced) rest
  | emptyObject hw => exact spanValue_curly (hw.balanced : Balanced 0 _) rest
  | object _ hl hv =>
      exact spanValue_curly (balanced_members hl fun m hm => (hv m hm).balanced) rest

/-- A value that is not nested too deep is split off as the grammar has it. -/
theorem IsValue.spanWithin_append {depth : Nat} {token : List Char} (h : IsValue depth token)
    {room : Nat} (hd : depth ≤ room) {rest : List Char} (hr : IsNumber token → Ends rest) :
    spanWithin room (token ++ rest) = some (token, rest) := by
  have hroom : (depth : Int) ≤ room := by omega
  have hn := h.balanced.nestsWithin_append hroom []
  rw [List.append_nil] at hn
  rw [spanWithin, h.spanValue_append hr]
  simp only [hn, nestsWithin, if_true]

theorem Enclosed.notNul {body : List Char} (h : Enclosed body) : ∀ c ∈ body, c.toNat ≠ 0 := by
  induction h with
  | nil => exact nofun
  | char h0 _ _ _ ih => exact List.forall_mem_cons.mpr ⟨h0, ih⟩
  | pair h0 _ ih =>
      exact List.forall_mem_cons.mpr ⟨by decide, List.forall_mem_cons.mpr ⟨h0, ih⟩⟩

/-- A text of the grammar is read to its end, because it holds no NUL. -/
theorem Balanced.notNul {levels : Nat} {text : List Char} (h : Balanced levels text) :
    ∀ c ∈ text, c.toNat ≠ 0 := by
  induction h with
  | nil => exact nofun
  | plain hp _ ih => exact List.forall_mem_cons.mpr ⟨hp.notNul, ih⟩
  | string hb _ ih =>
      simp only [List.forall_mem_cons, List.forall_mem_append]
      exact ⟨by decide, hb.notNul, by decide, ih⟩
  | array _ _ ihi ihc =>
      simp only [List.forall_mem_cons, List.forall_mem_append]
      exact ⟨by decide, ihi, by decide, ihc⟩
  | object _ _ ihi ihc =>
      simp only [List.forall_mem_cons, List.forall_mem_append]
      exact ⟨by decide, ihi, by decide, ihc⟩

theorem upToNul_of_notNul {text : String} (h : ∀ c ∈ text.toList, c.toNat ≠ 0) :
    upToNul text = text.toList :=
  List.takeWhile_eq_self_iff.mpr fun c hc => bne_iff_ne.mpr (h c hc)

theorem IsValue.upToNul_eq {depth : Nat} {text : String} (h : IsValue depth text.toList) :
    upToNul text = text.toList :=
  upToNul_of_notNul h.balanced.notNul

end Stepwise.Json
