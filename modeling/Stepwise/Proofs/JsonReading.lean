import Stepwise.Proofs.JsonWriting
import Stepwise.Proofs.SettledReaders

/-!
# Reading what is rendered

The text of a value is read back as that value, with nothing left over.
-/
namespace Stepwise.Json

open Reader (DigitsEnd spanDigits_append digitsEnd_of_ends)

/-! ## Tokens -/

theorem readUnits_append {body : List Char} {us : List StringUnit} (h : StringBody body us)
    (tail : List Char) : readUnits (body ++ '"' :: tail) = .ok (us, tail) := by
  induction h with
  | nil => rfl
  | @char c cs us h0 hq hb _ ih =>
      have hlow : ¬c.toNat < 0x20 := by omega
      rw [List.cons_append, readUnits.eq_def]
      split
      · rename_i he
        cases he
      · rename_i he
        exact absurd (List.cons.inj he).1 hq
      · rename_i he
        exact absurd (List.cons.inj he).1 hb
      · rename_i he
        exact absurd (List.cons.inj he).1 hb
      · rename_i he
        exact absurd (List.cons.inj he).1 hb
      · rename_i he
        obtain ⟨rfl, rfl⟩ := List.cons.inj he
        rw [if_neg hlow, ih]
        rfl
  | @escape e c cs us he _ ih =>
      have hu : e ≠ 'u' := by
        rintro rfl
        cases he
      rw [List.cons_append, List.cons_append, readUnits]
      · rw [he, ih]
        rfl
      · exact hu
  | @code a b c d n cs us hn _ ih =>
      simp only [List.cons_append, readUnits, hn, ih]
      rfl

theorem readString_quote (text : String) (tail : List Char) :
    ∃ body, (quote text).toList = '"' :: (body ++ ['"']) ∧ Enclosed body ∧
      readString (body ++ '"' :: tail) = .ok (text, tail) := by
  have hs := isString_quote text
  generalize hq : (quote text).toList = token at hs
  cases hs with
  | quoted hbody =>
      refine ⟨_, rfl, hbody.enclosed, ?_⟩
      rw [readString, readUnits_append hbody]
      rfl

theorem readDigits_append {ds tail : List Char} (h : IsDigits ds) (ht : DigitsEnd tail)
    (place : Place) : readDigits place (ds ++ tail) = .ok (ds, tail) := by
  rw [readDigits, spanDigits_append h.2 ht]
  cases ds with
  | nil => exact absurd rfl h.1
  | cons d ds => rfl

theorem readWhole_append {whole tail : List Char} (h : IsWhole whole) (ht : DigitsEnd tail)
    (place : Place) : readWhole place (whole ++ tail) = .ok (whole, tail) := by
  cases h with
  | zero => rfl
  | @digits d ds hd hds =>
      rw [readWhole]
      · exact readDigits_append hds ht place
      · intro rest he
        exact hd (List.cons.inj he).1

theorem readFraction_append {fraction tail : List Char} (h : IsFraction fraction)
    (ht : DigitsEnd tail) (hp : ∀ cs, tail ≠ '.' :: cs) :
    readFraction (fraction ++ tail) = .ok (fraction, tail) := by
  cases h with
  | absent =>
      rw [List.nil_append, readFraction]
      intro cs he
      exact hp cs he
  | point hd =>
      rw [List.cons_append, readFraction, readDigits_append hd ht]
      rfl

theorem readExponent_append {exponent tail : List Char} (h : IsExponent exponent)
    (ht : Ends tail) : readExponent (exponent ++ tail) = .ok (exponent, tail) := by
  cases h with
  | absent =>
      cases tail with
      | nil => rfl
      | cons c cs =>
          have hc := ht c cs rfl
          have hne : (c == 'e' || c == 'E') = false := by
            simp only [isNumberChar, Bool.or_eq_false_iff] at hc
            simp only [hc, Bool.or_self]
          rw [List.nil_append, readExponent.eq_def]
          simp only [hne, Bool.false_eq_true, if_false]
  | @power e sign ds he hs hd =>
      have hmark : (e == 'e' || e == 'E') = true := by simpa using he
      have hdigits := readDigits_append hd (digitsEnd_of_ends ht) .exponent
      rw [List.cons_append, readExponent.eq_def]
      simp only [hmark, if_true]
      rcases hs with rfl | rfl | rfl
      · cases ds with
        | nil => exact absurd rfl hd.1
        | cons d ds =>
            have hplus : d ≠ '+' := by
              rintro rfl
              exact absurd (hd.2 _ List.mem_cons_self) (by decide)
            have hminus : d ≠ '-' := by
              rintro rfl
              exact absurd (hd.2 _ List.mem_cons_self) (by decide)
            rw [List.nil_append, List.cons_append]
            simp only [List.cons_append] at hdigits
            split
            · rename_i heq
              exact absurd (List.cons.inj heq).1 hplus
            · rename_i heq
              exact absurd (List.cons.inj heq).1 hminus
            · rename_i heq
              simp only [hdigits]
              rfl
      · simp only [List.cons_append, List.nil_append, hdigits]
        rfl
      · simp only [List.cons_append, List.nil_append, hdigits]
        rfl

theorem readNumber_append {token tail : List Char} (h : IsNumber token) (ht : Ends tail) :
    readNumber (token ++ tail) = .ok (String.ofList token, tail) := by
  cases h with
  | @parts sign whole fraction exponent hsign hwhole hf hx =>
      have hexponent := readExponent_append hx ht
      have hafter : DigitsEnd (exponent ++ tail) ∧ ∀ cs, exponent ++ tail ≠ '.' :: cs := by
        cases hx with
        | absent =>
            refine ⟨digitsEnd_of_ends ht, fun cs he => ?_⟩
            exact absurd (ht '.' cs he) (by decide)
        | power he _ _ =>
            refine ⟨fun c cs heq => ?_, fun cs heq => ?_⟩
            · obtain ⟨rfl, -⟩ := List.cons.inj heq
              rcases he with rfl | rfl <;> decide
            · obtain ⟨rfl, -⟩ := List.cons.inj heq
              rcases he with he | he <;> cases he
      have hfraction := readFraction_append hf hafter.1 hafter.2
      have hend : DigitsEnd (fraction ++ (exponent ++ tail)) := by
        cases hf with
        | absent => exact hafter.1
        | point hd =>
            intro c cs heq
            obtain ⟨rfl, -⟩ := List.cons.inj heq
            decide
      have hread : ∀ place, readWhole place (whole ++ (fraction ++ (exponent ++ tail))) =
          .ok (whole, fraction ++ (exponent ++ tail)) := readWhole_append hwhole hend
      rcases hsign with rfl | rfl
      · obtain ⟨c, cs, rfl, hc⟩ : ∃ c cs, whole = c :: cs ∧ c.isDigit = true := by
          cases whole with
          | nil => cases hwhole
          | cons c cs => exact ⟨c, cs, rfl, Reader.IsWhole.isDigit hwhole c List.mem_cons_self⟩
        have hminus : c ≠ '-' := by
          rintro rfl
          exact absurd hc (by decide)
        simp only [List.nil_append, List.append_assoc, List.cons_append] at hread ⊢
        rw [readNumber]
        · simp only [hread, hfraction, hexponent, bind, Except.bind, pure, Except.pure,
            List.nil_append, List.cons_append, List.append_assoc]
        · intro rest heq
          exact hminus (List.cons.inj heq).1
      · simp only [List.append_assoc, List.cons_append, List.nil_append, readNumber, hread,
          hfraction, hexponent, bind, Except.bind, pure, Except.pure]

/-- A number starts with no mark or letter that another value starts with. -/
theorem IsNumber.other_head {token : List Char} (h : IsNumber token) :
    ∃ c cs, token = c :: cs ∧ ∀ d ∈ ['"', '[', '\x7b', 't', 'f', 'n'], c ≠ d := by
  obtain ⟨c, cs, rfl, hc⟩ := h.head
  refine ⟨c, cs, rfl, ?_⟩
  rintro d hd rfl
  simp only [List.mem_cons, List.not_mem_nil, or_false] at hd
  rcases hd with rfl | rfl | rfl | rfl | rfl | rfl <;> exact absurd hc (by decide)

/-! ## Values -/

theorem Writable.head {v : Json} (h : v.Writable) :
    ∃ c cs, v.render.toList = c :: cs ∧ isSpace c = false ∧ c ≠ ']' := by
  obtain ⟨depth, hdepth⟩ := h.isValue
  exact (hdepth depth (Nat.le_refl depth)).head

theorem Writable.skipSpace_append {v : Json} (h : v.Writable) (tail : List Char) :
    skipSpace (v.render.toList ++ tail) = v.render.toList ++ tail := by
  obtain ⟨depth, hdepth⟩ := h.isValue
  exact (hdepth depth (Nat.le_refl depth)).skipSpace_append tail

/-- A value is read from its text, whatever follows. -/
def ReadsBack (v : Json) : Prop :=
  ∀ fuel tail, Ends tail → v.render.toList.length < fuel →
    readValue fuel (v.render.toList ++ tail) = .ok (v, tail)

theorem readItems_render {items : List Json} (hne : items ≠ []) (hr : ∀ v ∈ items, ReadsBack v)
    (fuel : Nat) (tail : List Char)
    (hf : (commaJoin (items.map fun v => v.render.toList)).length + 1 < fuel) :
    readItems fuel (commaJoin (items.map fun v => v.render.toList) ++ ']' :: tail) =
      .ok (items, tail) := by
  induction items generalizing fuel with
  | nil => exact absurd rfl hne
  | cons v items ih =>
      rw [List.forall_mem_cons] at hr
      obtain ⟨fuel, rfl⟩ : ∃ k, fuel = k + 1 := ⟨fuel - 1, by omega⟩
      cases items with
      | nil =>
          simp only [List.map_cons, List.map_nil, commaJoin] at hf ⊢
          rw [readItems, hr.1 fuel _ (ends_cons (by decide)) (by omega)]
          rfl
      | cons w items =>
          simp only [List.map_cons, commaJoin, List.append_assoc, List.cons_append,
            List.length_append, List.length_cons] at hf ih ⊢
          rw [readItems, hr.1 fuel _ (ends_cons (by decide)) (by omega)]
          simp only [skipSpace_cons (c := ',') rfl]
          rw [ih (List.cons_ne_nil _ _) hr.2 fuel (by omega)]
          rfl

theorem readMembers_render {members : List (String × Json)} (hne : members ≠ [])
    (hr : ∀ m ∈ members, ReadsBack m.2) (fuel : Nat) (tail : List Char)
    (hf : (commaJoin (members.map fun m => (rendered m).text)).length + 1 < fuel) :
    readMembers fuel (commaJoin (members.map fun m => (rendered m).text) ++ '\x7d' :: tail) =
      .ok (members, tail) := by
  induction members generalizing fuel with
  | nil => exact absurd rfl hne
  | cons m members ih =>
      obtain ⟨name, v⟩ := m
      rw [List.forall_mem_cons] at hr
      have hv : ReadsBack v := hr.1
      obtain ⟨fuel, rfl⟩ : ∃ k, fuel = k + 1 := ⟨fuel - 1, by omega⟩
      cases members with
      | nil =>
          simp only [List.map_cons, List.map_nil, commaJoin, text_rendered, List.append_assoc,
            List.cons_append, List.length_append, List.length_cons] at hf ⊢
          obtain ⟨body, hq, -, hread⟩ :=
            readString_quote name (':' :: (v.render.toList ++ '\x7d' :: tail))
          rw [hq] at hf ⊢
          rw [readMembers]
          simp only [List.cons_append, List.append_assoc, List.nil_append,
            skipSpace_cons (c := '"') rfl, hread, skipSpace_cons (c := ':') rfl]
          rw [hv fuel _ (ends_cons (by decide)) (by omega)]
          rfl
      | cons n members =>
          simp only [List.map_cons, commaJoin, List.append_assoc, List.cons_append,
            List.length_append, List.length_cons] at hf ih ⊢
          rw [text_rendered] at hf ⊢
          simp only [List.append_assoc, List.cons_append, List.length_append,
            List.length_cons] at hf ⊢
          obtain ⟨body, hq, -, hread⟩ := readString_quote name (':' :: (v.render.toList ++
            ',' :: (commaJoin ((rendered n).text :: members.map fun m => (rendered m).text) ++
              '\x7d' :: tail)))
          rw [hq] at hf ⊢
          rw [readMembers]
          simp only [List.cons_append, List.append_assoc, List.nil_append,
            skipSpace_cons (c := '"') rfl, hread, skipSpace_cons (c := ':') rfl]
          rw [hv fuel _ (ends_cons (by decide)) (by omega)]
          simp only [skipSpace_cons (c := ',') rfl]
          rw [ih (List.cons_ne_nil _ _) hr.2 fuel (by omega)]
          rfl

theorem head_commaJoin {items : List Json} (hne : items ≠ []) (hw : ∀ v ∈ items, v.Writable) :
    ∃ c cs, commaJoin (items.map fun v => v.render.toList) = c :: cs ∧ isSpace c = false ∧
      c ≠ ']' := by
  cases items with
  | nil => exact absurd rfl hne
  | cons v items =>
      obtain ⟨c, cs, hv, hc⟩ := (hw v List.mem_cons_self).head
      cases items with
      | nil => exact ⟨c, cs, hv, hc⟩
      | cons w items =>
          exact ⟨c, _, by rw [List.map_cons, List.map_cons, commaJoin, hv, List.cons_append], hc⟩

theorem head_commaJoin_members {members : List (String × Json)} (hne : members ≠ []) :
    ∃ cs, commaJoin (members.map fun m => (rendered m).text) = '"' :: cs := by
  cases members with
  | nil => exact absurd rfl hne
  | cons m members =>
      obtain ⟨cs, hq⟩ := (isString_quote m.1).head
      have hm : (rendered m).text = '"' :: (cs ++ ':' :: m.2.render.toList) := by
        rw [text_rendered, hq, List.cons_append]
      cases members with
      | nil => exact ⟨_, hm⟩
      | cons n members =>
          exact ⟨_, by rw [List.map_cons, List.map_cons, commaJoin, hm, List.cons_append]⟩

/-- A value is read back from its text. -/
theorem Writable.readsBack {v : Json} (h : v.Writable) : ReadsBack v := by
  induction h with
  | null =>
      intro fuel tail _ hf
      obtain ⟨fuel, rfl⟩ : ∃ k, fuel = k + 1 := ⟨fuel - 1, by omega⟩
      rfl
  | @bool b =>
      intro fuel tail _ hf
      obtain ⟨fuel, rfl⟩ : ∃ k, fuel = k + 1 := ⟨fuel - 1, by omega⟩
      cases b <;> rfl
  | @number text hn =>
      intro fuel tail ht hf
      obtain ⟨fuel, rfl⟩ : ∃ k, fuel = k + 1 := ⟨fuel - 1, by omega⟩
      have hread := readNumber_append hn ht
      obtain ⟨c, cs, htoken, hother⟩ := hn.other_head
      rw [String.ofList_toList, htoken] at hread
      rw [readValue, Writable.skipSpace_append (.number hn), render, htoken]
      rw [List.cons_append] at hread ⊢
      split
      -- the other six branches begin with a character that no number begins with
      iterate 6 next he => exact absurd (List.cons.inj he).1 (hother _ (by decide))
      · rw [hread]
        rfl
  | @string text =>
      intro fuel tail _ hf
      obtain ⟨fuel, rfl⟩ : ∃ k, fuel = k + 1 := ⟨fuel - 1, by omega⟩
      obtain ⟨body, hq, -, hread⟩ := readString_quote text tail
      rw [readValue, render, hq]
      simp only [List.cons_append, List.append_assoc, List.nil_append,
        skipSpace_cons (c := '"') rfl, hread]
      rfl
  | @array items hw ih =>
      intro fuel tail _ hf
      obtain ⟨fuel, rfl⟩ : ∃ k, fuel = k + 1 := ⟨fuel - 1, by omega⟩
      rw [render_array_toList, List.length_cons, List.length_append, List.length_singleton] at hf
      rw [readValue, render_array_toList]
      simp only [List.cons_append, List.append_assoc, List.nil_append,
        skipSpace_cons (c := '[') rfl]
      cases items with
      | nil => rfl
      | cons v items =>
          have hread := readItems_render (List.cons_ne_nil v items) ih fuel tail (by omega)
          obtain ⟨c, cs, hhead, hspace, hclose⟩ := head_commaJoin (List.cons_ne_nil v items) hw
          rw [hhead, List.cons_append] at hread ⊢
          rw [skipSpace_cons hspace]
          split
          · rename_i he
            exact absurd (List.cons.inj he).1 hclose
          · rw [hread]
            rfl
  | @object members hw ih =>
      intro fuel tail _ hf
      obtain ⟨fuel, rfl⟩ : ∃ k, fuel = k + 1 := ⟨fuel - 1, by omega⟩
      rw [render_object_toList, List.length_cons, List.length_append, List.length_singleton] at hf
      rw [readValue, render_object_toList]
      simp only [List.cons_append, List.append_assoc, List.nil_append,
        skipSpace_cons (c := '\x7b') rfl]
      cases members with
      | nil => rfl
      | cons m members =>
          have hread := readMembers_render (List.cons_ne_nil m members) ih fuel tail (by omega)
          obtain ⟨cs, hhead⟩ := head_commaJoin_members (List.cons_ne_nil m members)
          rw [hhead, List.cons_append] at hread ⊢
          rw [skipSpace_cons rfl]
          exact congrArg (Except.map fun p => (Json.object p.1, p.2)) hread

/-- The value at the start of a text is the one it was made from. -/
theorem Writable.first?_render {v : Json} (h : v.Writable) :
    first? v.render = if fitsDepth maxDepth v then some v else none := by
  have hread := h.readsBack (v.render.length + 2) [] ends_nil (by rw [String.length_toList]; omega)
  rw [List.append_nil] at hread
  rw [first?, hread]

end Stepwise.Json
