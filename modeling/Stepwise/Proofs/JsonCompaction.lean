import Stepwise.Json.Compact
import Stepwise.Proofs.JsonReading
import Stepwise.Proofs.NumberText

/-!
# Compaction of values of the grammar

Compaction goes through a value by its grammar. The white space between tokens is dropped and
the tokens are written as they are, strings perhaps with more escapes. A number without a
double is refused, and with it every array and object that it stands in: the fault is that of
the first such number.

The text that a value is rendered to is compact already, so compaction leaves it as it is or
refuses it because of a number.
-/
namespace Stepwise.Json

/-! ## What compaction takes -/

section
variable {escape : Bool}

/-- Compaction takes a value from the start of a text and writes it in a given way. -/
def CompactsTo (escape : Bool) (token written : List Char) : Prop :=
  ∀ fuel tail, Ends tail → token.length < fuel →
    compactValue escape fuel (token ++ tail) = .ok (written, tail)

/-- Compaction refuses a value for a number that is too large. -/
def RefusedFor (escape : Bool) (number token : List Char) : Prop :=
  ∀ fuel tail, Ends tail → token.length < fuel →
    compactValue escape fuel (token ++ tail) = .error (.number (String.ofList number) .outOfRange)

/-- Compaction refuses a value. -/
def Resists (escape : Bool) (token : List Char) : Prop :=
  ∃ number, RefusedFor escape number token

theorem CompactsTo.not_resists {token written : List Char} (h : CompactsTo escape token written) :
    ¬Resists escape token := by
  rintro ⟨number, hr⟩
  have hwritten := h _ [] ends_nil (Nat.lt_succ_self _)
  rw [hr _ [] ends_nil (Nat.lt_succ_self _)] at hwritten
  cases hwritten

/-! ### Strings and numbers -/

def writtenString (escape : Bool) (token : List Char) : List Char :=
  if escape then escapeUnsafe token else token

theorem writtenString_false (token : List Char) : writtenString false token = token := rfl

theorem compactString_append {token : List Char} {text : String} (h : IsString token text)
    (tail : List Char) :
    compactString escape (token ++ tail) = .ok (writtenString escape token, tail) := by
  cases h with
  | quoted hb =>
      rw [List.cons_append, List.append_assoc, List.singleton_append, compactString,
        restOfString_append hb.enclosed]
      cases escape <;> rfl

/-- What compaction makes of a number. -/
def compactedNumber (token tail : List Char) : Compaction :=
  if (Number.parseFloat? (String.ofList token)).isSome then .ok (token, tail)
  else .error (.number (String.ofList token) .outOfRange)

theorem compactNumber_append {token tail : List Char} (h : IsNumber token) (ht : Ends tail) :
    compactNumber (token ++ tail) = compactedNumber token tail := by
  have hfault := Number.literalFault_of_isNumber h
  obtain ⟨c, cs, rfl, hc⟩ := h.head
  have hchars : ∀ d ∈ cs, isNumberChar d = true := fun d hd =>
    h.isNumberChar d (List.mem_cons_of_mem c hd)
  have htake : (cs ++ tail).takeWhile isNumberChar = cs := by
    rw [List.takeWhile_append_of_pos hchars]
    cases tail with
    | nil => simp
    | cons d ds => simp [ht d ds rfl]
  have hdrop : (cs ++ tail).dropWhile isNumberChar = tail := by
    rw [List.dropWhile_append_of_pos hchars]
    cases tail with
    | nil => simp
    | cons d ds => simp [ht d ds rfl]
  rw [List.cons_append, compactNumber, compactedNumber, if_pos hc]
  simp only [htake, hdrop, hfault]

theorem compactValue_number {token : List Char} (h : IsNumber token) (fuel : Nat)
    {tail : List Char} (ht : Ends tail) :
    compactValue escape (fuel + 1) (token ++ tail) = compactedNumber token tail := by
  have hv : IsValue 0 token := .number h
  have hskip := hv.skipSpace_append tail
  have hread := compactNumber_append h ht
  obtain ⟨c, cs, rfl, hother⟩ := h.other_head
  rw [compactValue, hskip, ← hread, List.cons_append]
  split
  -- the other six branches begin with a character that no number begins with
  iterate 6 next he => exact absurd (List.cons.inj he).1 (hother _ (by decide))
  · rfl

theorem compactsTo_number {token : List Char} (h : IsNumber token)
    (hd : (Number.parseFloat? (String.ofList token)).isSome = true) :
    CompactsTo escape token token := by
  intro fuel tail ht hf
  obtain ⟨fuel, rfl⟩ : ∃ k, fuel = k + 1 := ⟨fuel - 1, by omega⟩
  rw [compactValue_number h fuel ht, compactedNumber, if_pos hd]

theorem refusedFor_number {token : List Char} (h : IsNumber token)
    (hd : ¬(Number.parseFloat? (String.ofList token)).isSome = true) :
    RefusedFor escape token token := by
  intro fuel tail ht hf
  obtain ⟨fuel, rfl⟩ : ∃ k, fuel = k + 1 := ⟨fuel - 1, by omega⟩
  rw [compactValue_number h fuel ht, compactedNumber, if_neg hd]

theorem compactsTo_word {word : String} (h : word ∈ ["null", "true", "false"]) :
    CompactsTo escape word.toList word.toList := by
  intro fuel tail _ hf
  obtain ⟨fuel, rfl⟩ : ∃ k, fuel = k + 1 := ⟨fuel - 1, by omega⟩
  simp only [List.mem_cons, List.not_mem_nil, or_false] at h
  rcases h with rfl | rfl | rfl <;> rfl

theorem compactsTo_string {token : List Char} {text : String} (h : IsString token text) :
    CompactsTo escape token (writtenString escape token) := by
  intro fuel tail _ hf
  obtain ⟨fuel, rfl⟩ : ∃ k, fuel = k + 1 := ⟨fuel - 1, by omega⟩
  have hread : compactString escape (token ++ tail) = _ := compactString_append h tail
  obtain ⟨cs, rfl⟩ := h.head
  rw [compactValue, List.cons_append, skipSpace_cons (by decide)]
  exact hread

/-! ### Items and members -/

theorem commaJoin_cons (t : List Char) {texts : List (List Char)} (hne : texts ≠ []) :
    commaJoin (t :: texts) = t ++ ',' :: commaJoin texts := by
  cases texts with
  | nil => exact absurd rfl hne
  | cons u texts => rfl

/-- What comes after the first of some parts: a comma, or the closing bracket. -/
theorem exists_after_first (t : List Char) (texts : List (List Char)) (close : Char)
    (tail : List Char) :
    ∃ c cs, (c = ',' ∨ c = close) ∧ commaJoin (t :: texts) ++ close :: tail = t ++ c :: cs := by
  cases texts with
  | nil => exact ⟨close, tail, .inr rfl, rfl⟩
  | cons u texts =>
      refine ⟨',', commaJoin (u :: texts) ++ close :: tail, .inl rfl, ?_⟩
      rw [commaJoin, List.append_assoc, List.cons_append]

theorem length_le_commaJoin_cons (t : List Char) (texts : List (List Char)) :
    t.length ≤ (commaJoin (t :: texts)).length := by
  cases texts with
  | nil => exact Nat.le_refl _
  | cons u texts =>
      rw [commaJoin, List.length_append]
      exact Nat.le_add_right _ _

/-- The first element without a property, if not all have it. -/
theorem exists_first_not {α : Type} {p : α → Prop} {as : List α} (h : ¬∀ a ∈ as, p a) :
    ∃ before a after, as = before ++ a :: after ∧ (∀ b ∈ before, p b) ∧ ¬p a := by
  induction as with
  | nil => exact absurd nofun h
  | cons a as ih =>
      by_cases ha : p a
      · have hrest : ¬∀ b ∈ as, p b := fun hall => h (List.forall_mem_cons.mpr ⟨ha, hall⟩)
        obtain ⟨before, b, after, rfl, hbefore, hb⟩ := ih hrest
        exact ⟨a :: before, b, after, rfl, List.forall_mem_cons.mpr ⟨ha, hbefore⟩, hb⟩
      · exact ⟨[], a, as, rfl, nofun, ha⟩

theorem compactValue_blank {w : List Char} (hw : Blank w) (fuel : Nat) (cs : List Char) :
    compactValue escape fuel (w ++ cs) = compactValue escape fuel cs := by
  cases fuel with
  | zero => rfl
  | succ fuel => rw [compactValue, compactValue, hw.skipSpace_append]

section
variable {i : Spaced} (hb : i.Bare) (fuel : Nat) (hf : i.text.length < fuel)
include hb hf

theorem CompactsTo.spaced {written : List Char} (h : CompactsTo escape i.token written) {c : Char}
    (hc : isNumberChar c = false) (hs : isSpace c = false) (cs : List Char) :
    ∃ rest, compactValue escape fuel (i.text ++ c :: cs) = .ok (written, rest) ∧
      skipSpace rest = c :: cs := by
  rw [Spaced.text, List.length_append, List.length_append] at hf
  have hread := h fuel (i.after ++ c :: cs) (hb.2.ends_append (ends_cons hc)) (by omega)
  refine ⟨_, ?_, Reader.skipSpace_after hb.2 hs⟩
  rw [Spaced.text, List.append_assoc, List.append_assoc, compactValue_blank hb.1, hread]

theorem RefusedFor.spaced {number : List Char} (h : RefusedFor escape number i.token) {c : Char}
    (hc : isNumberChar c = false) (cs : List Char) :
    compactValue escape fuel (i.text ++ c :: cs) =
      .error (.number (String.ofList number) .outOfRange) := by
  rw [Spaced.text, List.length_append, List.length_append] at hf
  rw [Spaced.text, List.append_assoc, List.append_assoc, compactValue_blank hb.1]
  exact h fuel _ (hb.2.ends_append (ends_cons hc)) (by omega)

end

section
variable {items : List Spaced} (hne : items ≠ []) (hb : ∀ i ∈ items, i.Bare)
include hne hb

theorem compactItems_compacts {written : List (List Char)}
    (h : List.Forall₂ (fun i w => CompactsTo escape i.token w) items written) (fuel : Nat)
    (tail : List Char) (hf : (commaJoin (items.map Spaced.text)).length + 1 < fuel) :
    compactItems escape fuel (commaJoin (items.map Spaced.text) ++ ']' :: tail) =
      .ok (commaJoin written ++ [']'], tail) := by
  induction h generalizing fuel with
  | nil => exact absurd rfl hne
  | @cons i w items written hi hrest ih =>
      rw [List.forall_mem_cons] at hb
      obtain ⟨fuel, rfl⟩ : ∃ k, fuel = k + 1 := ⟨fuel - 1, by omega⟩
      cases hrest with
      | nil =>
          simp only [List.map_cons, List.map_nil, commaJoin] at hf ⊢
          obtain ⟨rest, hread, hmark⟩ :=
            hi.spaced hb.1 fuel (by omega) (c := ']') (by decide) (by decide) tail
          rw [compactItems, hread]
          simp only [hmark]
      | @cons j u items written hj hmore =>
          simp only [List.map_cons, commaJoin, List.append_assoc, List.cons_append,
            List.length_append, List.length_cons] at hf ih ⊢
          obtain ⟨rest, hread, hmark⟩ :=
            hi.spaced hb.1 fuel (by omega) (c := ',') (by decide) (by decide)
              (commaJoin (j.text :: items.map Spaced.text) ++ ']' :: tail)
          rw [compactItems, hread]
          simp only [hmark, ih (List.cons_ne_nil _ _) hb.2 fuel (by omega)]
          rfl

end

/-- The first item that is refused is enough to refuse an array. The items before it are
taken. -/
theorem compactItems_refused {before after : List Spaced} {i : Spaced}
    (hb : ∀ j ∈ before ++ i :: after, j.Bare) (h : ∀ j ∈ before, ∃ w, CompactsTo escape j.token w)
    {number : List Char} (hi : RefusedFor escape number i.token) (fuel : Nat) (tail : List Char)
    (hf : (commaJoin ((before ++ i :: after).map Spaced.text)).length + 1 < fuel) :
    compactItems escape fuel (commaJoin ((before ++ i :: after).map Spaced.text) ++ ']' :: tail) =
      .error (.number (String.ofList number) .outOfRange) := by
  induction before generalizing fuel with
  | nil =>
      rw [List.nil_append, List.map_cons] at hf ⊢
      obtain ⟨fuel, rfl⟩ : ∃ k, fuel = k + 1 := ⟨fuel - 1, by omega⟩
      have hlength := length_le_commaJoin_cons i.text (after.map Spaced.text)
      obtain ⟨c, cs, hc, he⟩ := exists_after_first i.text (after.map Spaced.text) ']' tail
      have hend : isNumberChar c = false := by rcases hc with rfl | rfl <;> decide
      rw [he, compactItems, hi.spaced (hb i List.mem_cons_self) fuel (by omega) hend]
  | cons j before ih =>
      rw [List.cons_append, List.forall_mem_cons] at hb
      obtain ⟨⟨w, hw⟩, hbefore⟩ := List.forall_mem_cons.mp h
      have hne : (before ++ i :: after).map Spaced.text ≠ [] := by simp
      rw [List.cons_append, List.map_cons, commaJoin_cons _ hne] at hf ⊢
      rw [List.length_append, List.length_cons] at hf
      obtain ⟨fuel, rfl⟩ : ∃ k, fuel = k + 1 := ⟨fuel - 1, by omega⟩
      obtain ⟨rest, hread, hmark⟩ :=
        hw.spaced hb.1 fuel (by omega) (c := ',') (by decide) (by decide)
          (commaJoin ((before ++ i :: after).map Spaced.text) ++ ']' :: tail)
      rw [List.append_assoc, List.cons_append, compactItems, hread]
      simp only [hmark, ih hb.2 hbefore fuel (by omega)]
      rfl

/-- What compaction does after the name of a member and the colon. -/
def compactAfterColon (escape : Bool) (fuel : Nat) (name : List Char) :
    Compaction → Compaction
  | .error fault => .error fault
  | .ok (value, rest) =>
    match skipSpace rest with
    | ',' :: rest =>
      (compactMembers escape fuel rest).map fun (s, rest) =>
        (name ++ ':' :: value ++ ',' :: s, rest)
    | '\x7d' :: rest => .ok (name ++ ':' :: value ++ ['\x7d'], rest)
    | _ => .error (.expected .commaOfMembers)

theorem compactMembers_label {m : Member} (hl : m.Labelled) (fuel : Nat) (tail : List Char) :
    compactMembers escape (fuel + 1) (m.text ++ tail) =
      compactAfterColon escape fuel (writtenString escape m.label.token)
        (compactValue escape fuel (m.value.text ++ tail)) := by
  have hskip : ∀ rest, skipSpace (m.label.text ++ rest) =
      m.label.token ++ (m.label.after ++ rest) := by
    intro rest
    obtain ⟨cs, hlabel⟩ := hl.name.head
    rw [Spaced.text, List.append_assoc, hl.label.1.skipSpace_append, hlabel, List.append_assoc,
      List.cons_append, skipSpace_cons (by decide)]
  rw [Member.text, List.append_assoc, compactMembers, hskip, compactString_append hl.name]
  simp only [List.cons_append,
    Reader.skipSpace_after hl.label.2 (show isSpace ':' = false by decide)]
  rfl

theorem length_memberText (m : Member) :
    m.text.length = m.label.text.length + m.value.text.length + 1 := by
  rw [Member.text, List.length_append, List.length_cons]
  omega

/-- A member is written as its name, a colon and its value. -/
def CompactsMember (escape : Bool) (m : Member) (written : List Char) : Prop :=
  ∃ w, CompactsTo escape m.value.token w ∧
    written = writtenString escape m.label.token ++ ':' :: w

section
variable {members : List Member} (hne : members ≠ []) (hl : ∀ m ∈ members, m.Labelled)
include hne hl

theorem compactMembers_compacts {written : List (List Char)}
    (h : List.Forall₂ (CompactsMember escape) members written) (fuel : Nat) (tail : List Char)
    (hf : (commaJoin (members.map Member.text)).length + 1 < fuel) :
    compactMembers escape fuel (commaJoin (members.map Member.text) ++ '\x7d' :: tail) =
      .ok (commaJoin written ++ ['\x7d'], tail) := by
  induction h generalizing fuel with
  | nil => exact absurd rfl hne
  | @cons m t members written hm hrest ih =>
      rw [List.forall_mem_cons] at hl
      obtain ⟨fuel, rfl⟩ : ∃ k, fuel = k + 1 := ⟨fuel - 1, by omega⟩
      obtain ⟨w, hw, rfl⟩ := hm
      have hlength := length_memberText m
      cases hrest with
      | nil =>
          simp only [List.map_cons, List.map_nil, commaJoin] at hf ⊢
          obtain ⟨rest, hread, hmark⟩ :=
            hw.spaced hl.1.value fuel (by omega) (c := '\x7d') (by decide) (by decide) tail
          rw [compactMembers_label hl.1, hread, compactAfterColon]
          simp only [hmark]
      | @cons n u members written hn hmore =>
          simp only [List.map_cons, commaJoin, List.append_assoc, List.cons_append,
            List.length_append, List.length_cons] at hf ih ⊢
          obtain ⟨rest, hread, hmark⟩ :=
            hw.spaced hl.1.value fuel (by omega) (c := ',') (by decide) (by decide)
              (commaJoin (n.text :: members.map Member.text) ++ '\x7d' :: tail)
          rw [compactMembers_label hl.1, hread, compactAfterColon]
          simp only [hmark, ih (List.cons_ne_nil _ _) hl.2 fuel (by omega), Except.map,
            List.append_assoc, List.cons_append]

end

theorem compactMembers_refused {before after : List Member} {m : Member}
    (hl : ∀ n ∈ before ++ m :: after, n.Labelled)
    (h : ∀ n ∈ before, ∃ w, CompactsTo escape n.value.token w) {number : List Char}
    (hm : RefusedFor escape number m.value.token) (fuel : Nat) (tail : List Char)
    (hf : (commaJoin ((before ++ m :: after).map Member.text)).length + 1 < fuel) :
    compactMembers escape fuel
        (commaJoin ((before ++ m :: after).map Member.text) ++ '\x7d' :: tail) =
      .error (.number (String.ofList number) .outOfRange) := by
  induction before generalizing fuel with
  | nil =>
      rw [List.nil_append, List.map_cons] at hf ⊢
      obtain ⟨fuel, rfl⟩ : ∃ k, fuel = k + 1 := ⟨fuel - 1, by omega⟩
      have hlabelled := hl m List.mem_cons_self
      have hlength := length_memberText m
      have hfirst := length_le_commaJoin_cons m.text (after.map Member.text)
      obtain ⟨c, cs, hc, he⟩ := exists_after_first m.text (after.map Member.text) '\x7d' tail
      have hend : isNumberChar c = false := by rcases hc with rfl | rfl <;> decide
      rw [he, compactMembers_label hlabelled, hm.spaced hlabelled.value fuel (by omega) hend,
        compactAfterColon]
  | cons n before ih =>
      rw [List.cons_append, List.forall_mem_cons] at hl
      obtain ⟨⟨w, hw⟩, hbefore⟩ := List.forall_mem_cons.mp h
      have hlength := length_memberText n
      have hne : (before ++ m :: after).map Member.text ≠ [] := by simp
      rw [List.cons_append, List.map_cons, commaJoin_cons _ hne] at hf ⊢
      rw [List.length_append, List.length_cons] at hf
      obtain ⟨fuel, rfl⟩ : ∃ k, fuel = k + 1 := ⟨fuel - 1, by omega⟩
      obtain ⟨rest, hread, hmark⟩ :=
        hw.spaced hl.1.value fuel (by omega) (c := ',') (by decide) (by decide)
          (commaJoin ((before ++ m :: after).map Member.text) ++ '\x7d' :: tail)
      rw [List.append_assoc, List.cons_append, compactMembers_label hl.1, hread, compactAfterColon]
      simp only [hmark, ih hl.2 hbefore fuel (by omega)]
      rfl

/-! ### Arrays and objects -/

theorem compactItems_skipSpace (fuel : Nat) (cs : List Char) :
    compactItems escape fuel (skipSpace cs) = compactItems escape fuel cs := by
  cases fuel with
  | zero => rfl
  | succ fuel =>
      have hvalue : compactValue escape fuel (skipSpace cs) = compactValue escape fuel cs := by
        cases fuel with
        | zero => rfl
        | succ fuel => rw [compactValue, compactValue, skipSpace_skipSpace]
      rw [compactItems, compactItems, hvalue]

theorem compactValue_array {depth : Nat} {items : List Spaced} (hne : items ≠ [])
    (hb : ∀ i ∈ items, i.Bare) (hv : ∀ i ∈ items, IsValue depth i.token) (fuel : Nat)
    (tail : List Char) :
    compactValue escape (fuel + 1) ('[' :: (commaJoin (items.map Spaced.text) ++ [']']) ++ tail) =
      (compactItems escape fuel (commaJoin (items.map Spaced.text) ++ ']' :: tail)).map
        fun (s, rest) => ('[' :: s, rest) := by
  obtain ⟨c, cs, hskip, hclose⟩ : ∃ c cs,
      skipSpace (commaJoin (items.map Spaced.text) ++ ']' :: tail) = c :: cs ∧ c ≠ ']' := by
    cases items with
    | nil => exact absurd rfl hne
    | cons i items =>
        obtain ⟨c, cs, htoken, hspace, hclose⟩ := (hv i List.mem_cons_self).head
        have htext : i.text = (i.before ++ [c]) ++ (cs ++ i.after) := by
          simp [Spaced.text, htoken]
        refine ⟨c, commaJoin ((cs ++ i.after) :: items.map Spaced.text) ++ ']' :: tail, ?_, hclose⟩
        rw [List.map_cons, htext, commaJoin_append, List.append_assoc, List.append_assoc,
          (hb i List.mem_cons_self).1.skipSpace_append, List.singleton_append,
          skipSpace_cons hspace]
  rw [List.cons_append, List.append_assoc, List.singleton_append, compactValue,
    skipSpace_cons (by decide), ← compactItems_skipSpace fuel (commaJoin _ ++ _)]
  simp only [hskip]
  split
  · rename_i he
    exact absurd (List.cons.inj he).1 hclose
  · rfl

theorem compactMembers_skipSpace (fuel : Nat) (cs : List Char) :
    compactMembers escape fuel (skipSpace cs) = compactMembers escape fuel cs := by
  cases fuel with
  | zero => rfl
  | succ fuel => rw [compactMembers, compactMembers, skipSpace_skipSpace]

theorem compactValue_object {members : List Member} (hne : members ≠ [])
    (hl : ∀ m ∈ members, m.Labelled) (fuel : Nat) (tail : List Char) :
    compactValue escape (fuel + 1)
        ('\x7b' :: (commaJoin (members.map Member.text) ++ ['\x7d']) ++ tail) =
      (compactMembers escape fuel (commaJoin (members.map Member.text) ++ '\x7d' :: tail)).map
        fun (s, rest) => ('\x7b' :: s, rest) := by
  obtain ⟨cs, hskip⟩ : ∃ cs,
      skipSpace (commaJoin (members.map Member.text) ++ '\x7d' :: tail) = '"' :: cs := by
    cases members with
    | nil => exact absurd rfl hne
    | cons m members =>
        have hm := hl m List.mem_cons_self
        obtain ⟨cs, hlabel⟩ := hm.name.head
        have htext : m.text = (m.label.before ++ ['"']) ++
            (cs ++ (m.label.after ++ ':' :: m.value.text)) := by
          simp [Member.text, Spaced.text, hlabel]
        refine ⟨commaJoin ((cs ++ (m.label.after ++ ':' :: m.value.text)) ::
          members.map Member.text) ++ '\x7d' :: tail, ?_⟩
        rw [List.map_cons, htext, commaJoin_append, List.append_assoc, List.append_assoc,
          hm.label.1.skipSpace_append, List.singleton_append, skipSpace_cons (by decide)]
  rw [List.cons_append, List.append_assoc, List.singleton_append, compactValue,
    skipSpace_cons (by decide), ← compactMembers_skipSpace fuel (commaJoin _ ++ _)]
  simp only [hskip]
  rfl

theorem compactsTo_emptyArray {w : List Char} (hw : Blank w) :
    CompactsTo escape ('[' :: (w ++ [']'])) ['[', ']'] := by
  intro fuel tail _ hf
  obtain ⟨fuel, rfl⟩ : ∃ k, fuel = k + 1 := ⟨fuel - 1, by omega⟩
  rw [List.cons_append, List.append_assoc, List.singleton_append, compactValue,
    skipSpace_cons (by decide)]
  simp only [Reader.skipSpace_after hw (show isSpace ']' = false by decide)]

theorem compactsTo_emptyObject {w : List Char} (hw : Blank w) :
    CompactsTo escape ('\x7b' :: (w ++ ['\x7d'])) ['\x7b', '\x7d'] := by
  intro fuel tail _ hf
  obtain ⟨fuel, rfl⟩ : ∃ k, fuel = k + 1 := ⟨fuel - 1, by omega⟩
  rw [List.cons_append, List.append_assoc, List.singleton_append, compactValue,
    skipSpace_cons (by decide)]
  simp only [Reader.skipSpace_after hw (show isSpace '\x7d' = false by decide)]

section
variable {depth : Nat} {items : List Spaced} (hb : ∀ i ∈ items, i.Bare)
  (hv : ∀ i ∈ items, IsValue depth i.token)
include hb hv

theorem compactsTo_array (hne : items ≠ []) {written : List (List Char)}
    (h : List.Forall₂ (fun i w => CompactsTo escape i.token w) items written) :
    CompactsTo escape ('[' :: (commaJoin (items.map Spaced.text) ++ [']']))
      ('[' :: (commaJoin written ++ [']'])) := by
  intro fuel tail _ hf
  obtain ⟨fuel, rfl⟩ : ∃ k, fuel = k + 1 := ⟨fuel - 1, by omega⟩
  rw [List.length_cons, List.length_append, List.length_singleton] at hf
  rw [compactValue_array hne hb hv, compactItems_compacts hne hb h fuel tail (by omega)]
  rfl

end

/-- An array is refused for the number that its first refused item is refused for. -/
theorem refusedFor_array {depth : Nat} {before after : List Spaced} {i : Spaced}
    (hb : ∀ j ∈ before ++ i :: after, j.Bare)
    (hv : ∀ j ∈ before ++ i :: after, IsValue depth j.token)
    (h : ∀ j ∈ before, ∃ w, CompactsTo escape j.token w) {number : List Char}
    (hi : RefusedFor escape number i.token) :
    RefusedFor escape number
      ('[' :: (commaJoin ((before ++ i :: after).map Spaced.text) ++ [']'])) := by
  intro fuel tail _ hf
  obtain ⟨fuel, rfl⟩ : ∃ k, fuel = k + 1 := ⟨fuel - 1, by omega⟩
  rw [List.length_cons, List.length_append, List.length_singleton] at hf
  rw [compactValue_array (by simp) hb hv, compactItems_refused hb h hi fuel tail (by omega)]
  rfl

theorem resists_array {depth : Nat} {items : List Spaced} (hb : ∀ i ∈ items, i.Bare)
    (hv : ∀ i ∈ items, IsValue depth i.token)
    (h : ∀ i ∈ items, (∃ w, CompactsTo escape i.token w) ∨ Resists escape i.token)
    (hex : ∃ i ∈ items, Resists escape i.token) :
    Resists escape ('[' :: (commaJoin (items.map Spaced.text) ++ [']'])) := by
  have hnot : ¬∀ i ∈ items, ∃ w, CompactsTo escape i.token w := by
    intro hall
    obtain ⟨i, hi, hresists⟩ := hex
    obtain ⟨w, hw⟩ := hall i hi
    exact hw.not_resists hresists
  obtain ⟨before, i, after, rfl, hbefore, hi⟩ := exists_first_not hnot
  obtain ⟨number, hrefused⟩ := (h i (by simp)).resolve_left hi
  exact ⟨number, refusedFor_array hb hv hbefore hrefused⟩

section
variable {members : List Member} (hl : ∀ m ∈ members, m.Labelled)
include hl

theorem compactsTo_object (hne : members ≠ []) {written : List (List Char)}
    (h : List.Forall₂ (CompactsMember escape) members written) :
    CompactsTo escape ('\x7b' :: (commaJoin (members.map Member.text) ++ ['\x7d']))
      ('\x7b' :: (commaJoin written ++ ['\x7d'])) := by
  intro fuel tail _ hf
  obtain ⟨fuel, rfl⟩ : ∃ k, fuel = k + 1 := ⟨fuel - 1, by omega⟩
  rw [List.length_cons, List.length_append, List.length_singleton] at hf
  rw [compactValue_object hne hl, compactMembers_compacts hne hl h fuel tail (by omega)]
  rfl

end

theorem refusedFor_object {before after : List Member} {m : Member}
    (hl : ∀ n ∈ before ++ m :: after, n.Labelled)
    (h : ∀ n ∈ before, ∃ w, CompactsTo escape n.value.token w) {number : List Char}
    (hm : RefusedFor escape number m.value.token) :
    RefusedFor escape number
      ('\x7b' :: (commaJoin ((before ++ m :: after).map Member.text) ++ ['\x7d'])) := by
  intro fuel tail _ hf
  obtain ⟨fuel, rfl⟩ : ∃ k, fuel = k + 1 := ⟨fuel - 1, by omega⟩
  rw [List.length_cons, List.length_append, List.length_singleton] at hf
  rw [compactValue_object (by simp) hl, compactMembers_refused hl h hm fuel tail (by omega)]
  rfl

theorem resists_object {members : List Member} (hl : ∀ m ∈ members, m.Labelled)
    (h : ∀ m ∈ members, (∃ w, CompactsTo escape m.value.token w) ∨ Resists escape m.value.token)
    (hex : ∃ m ∈ members, Resists escape m.value.token) :
    Resists escape ('\x7b' :: (commaJoin (members.map Member.text) ++ ['\x7d'])) := by
  have hnot : ¬∀ m ∈ members, ∃ w, CompactsTo escape m.value.token w := by
    intro hall
    obtain ⟨m, hm, hresists⟩ := hex
    obtain ⟨w, hw⟩ := hall m hm
    exact hw.not_resists hresists
  obtain ⟨before, m, after, rfl, hbefore, hm⟩ := exists_first_not hnot
  obtain ⟨number, hrefused⟩ := (h m (by simp)).resolve_left hm
  exact ⟨number, refusedFor_object hl hbefore hrefused⟩

/-! ### Whole texts -/

section
variable {depth : Nat} {text : String} (hv : IsValue depth text.toList)
include hv

theorem compact_of_compactsTo {written : List Char} (h : CompactsTo escape text.toList written) :
    compact escape text = .ok (String.ofList written) := by
  have hread := h (text.toList.length + 2) [] ends_nil (by omega)
  rw [List.append_nil] at hread
  rw [compact, hv.upToNul_eq, hread]
  rfl

theorem compact_of_refusedFor {number : List Char} (h : RefusedFor escape number text.toList) :
    compact escape text = .error (.number (String.ofList number) .outOfRange) := by
  have hread := h (text.toList.length + 2) [] ends_nil (by omega)
  rw [List.append_nil] at hread
  rw [compact, hv.upToNul_eq, hread]

end

end

/-! ## What is rendered is compact -/

mutual

/-- Whether every number of a value has a double. -/
def hasDoubles : Json → Bool
  | number text => (Number.parseFloat? text).isSome
  | array items => itemsHaveDoubles items
  | object members => membersHaveDoubles members
  | _ => true

/-- Whether every number of some items has a double. -/
def itemsHaveDoubles : List Json → Bool
  | [] => true
  | v :: rest => v.hasDoubles && itemsHaveDoubles rest

/-- Whether every number of some members has a double. -/
def membersHaveDoubles : List (String × Json) → Bool
  | [] => true
  | (_, v) :: rest => v.hasDoubles && membersHaveDoubles rest

end

theorem itemsHaveDoubles_iff {items : List Json} :
    itemsHaveDoubles items = true ↔ ∀ v ∈ items, v.hasDoubles = true := by
  induction items with
  | nil => exact iff_of_true rfl nofun
  | cons v items ih => rw [itemsHaveDoubles, Bool.and_eq_true, ih, List.forall_mem_cons]

theorem membersHaveDoubles_iff {members : List (String × Json)} :
    membersHaveDoubles members = true ↔ ∀ m ∈ members, m.2.hasDoubles = true := by
  induction members with
  | nil => exact iff_of_true rfl nofun
  | cons m members ih => rw [membersHaveDoubles, Bool.and_eq_true, ih, List.forall_mem_cons]

/-- What is rendered is left as it is if its numbers have doubles, and else refused. -/
def LeftAsRendered (v : Json) : Prop :=
  (v.hasDoubles = true → CompactsTo false v.render.toList v.render.toList) ∧
    (¬v.hasDoubles = true → Resists false v.render.toList)

theorem LeftAsRendered.compacts_or_resists {v : Json} (h : LeftAsRendered v) :
    (∃ w, CompactsTo false v.render.toList w) ∨ Resists false v.render.toList := by
  by_cases hd : v.hasDoubles = true
  · exact .inl ⟨_, h.1 hd⟩
  · exact .inr (h.2 hd)

theorem leftAsRendered_array {items : List Json} (hw : ∀ v ∈ items, v.Writable)
    (h : ∀ v ∈ items, LeftAsRendered v) : LeftAsRendered (.array items) := by
  obtain ⟨depth, hdepth⟩ := exists_depth fun v hv => (hw v hv).isValue
  have hb : ∀ i ∈ items.map renderedItem, i.Bare :=
    List.forall_mem_map.mpr fun v _ => bare_bare _
  have hv : ∀ i ∈ items.map renderedItem, IsValue depth i.token :=
    List.forall_mem_map.mpr fun v hv => hdepth v hv depth (Nat.le_refl depth)
  rw [LeftAsRendered, hasDoubles, itemsHaveDoubles_iff, render_array_toList,
    ← map_text_renderedItem]
  constructor
  · intro hd
    cases items with
    | nil => exact compactsTo_emptyArray blank_nil
    | cons v items =>
        have hitems : List.Forall₂ (fun (i : Spaced) w => CompactsTo false i.token w)
            ((v :: items).map renderedItem) (((v :: items).map renderedItem).map Spaced.text) := by
          rw [map_text_renderedItem, List.forall₂_map_left_iff, List.forall₂_map_right_iff,
            List.forall₂_same]
          exact fun w hw' => (h w hw').1 (hd w hw')
        exact compactsTo_array hb hv (List.cons_ne_nil _ _) hitems
  · intro hd
    simp only [not_forall, exists_prop] at hd
    obtain ⟨v, hmem, hbad⟩ := hd
    refine resists_array hb hv ?_ ⟨renderedItem v, List.mem_map_of_mem hmem, (h v hmem).2 hbad⟩
    exact List.forall_mem_map.mpr fun w hw' => (h w hw').compacts_or_resists

theorem leftAsRendered_object {members : List (String × Json)}
    (h : ∀ m ∈ members, LeftAsRendered m.2) : LeftAsRendered (.object members) := by
  have hl : ∀ m ∈ members.map rendered, m.Labelled :=
    List.forall_mem_map.mpr fun m _ => rendered_labelled m
  rw [LeftAsRendered, hasDoubles, membersHaveDoubles_iff, render_object_toList,
    ← map_text_rendered]
  constructor
  · intro hd
    cases members with
    | nil => exact compactsTo_emptyObject blank_nil
    | cons m members =>
        have hmembers : List.Forall₂ (CompactsMember false) ((m :: members).map rendered)
            (((m :: members).map rendered).map Member.text) := by
          rw [map_text_rendered, List.forall₂_map_left_iff, List.forall₂_map_right_iff,
            List.forall₂_same]
          intro n hn
          refine ⟨n.2.render.toList, (h n hn).1 (hd n hn), ?_⟩
          rw [writtenString_false, text_rendered, rendered, bare]
        exact compactsTo_object hl (List.cons_ne_nil _ _) hmembers
  · intro hd
    simp only [not_forall, exists_prop] at hd
    obtain ⟨m, hmem, hbad⟩ := hd
    refine resists_object hl ?_ ⟨rendered m, List.mem_map_of_mem hmem, (h m hmem).2 hbad⟩
    exact List.forall_mem_map.mpr fun n hn => (h n hn).compacts_or_resists

theorem Writable.leftAsRendered {v : Json} (h : v.Writable) : LeftAsRendered v := by
  induction h with
  | null => exact ⟨fun _ => compactsTo_word (by decide), fun hd => absurd rfl hd⟩
  | @bool b => cases b <;> exact ⟨fun _ => compactsTo_word (by decide), fun hd => absurd rfl hd⟩
  | @number text hn =>
      rw [LeftAsRendered, hasDoubles, render]
      refine ⟨fun hd => compactsTo_number hn ?_, fun hd => ⟨_, refusedFor_number hn ?_⟩⟩
      · rwa [String.ofList_toList]
      · rwa [String.ofList_toList]
  | string =>
      exact ⟨fun _ => compactsTo_string (isString_quote _), fun hd => absurd rfl hd⟩
  | array hw ih => exact leftAsRendered_array hw ih
  | object _ ih => exact leftAsRendered_object ih

/-- What is rendered is compact. -/
theorem Writable.compact?_render {v : Json} (h : v.Writable) :
    compact? false v.render = if v.hasDoubles then some v.render else none := by
  obtain ⟨depth, hdepth⟩ := h.isValue
  have hv := hdepth depth (Nat.le_refl depth)
  by_cases hd : v.hasDoubles = true
  · rw [if_pos hd, compact?, compact_of_compactsTo hv (h.leftAsRendered.1 hd),
      String.ofList_toList]
    rfl
  · obtain ⟨number, hrefused⟩ := h.leftAsRendered.2 hd
    rw [if_neg hd, compact?, compact_of_refusedFor hv hrefused]
    rfl

end Stepwise.Json
