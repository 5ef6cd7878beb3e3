import Stepwise.Proofs.JsonCompaction

/-!
# JSON on one line

A value of the grammar is compacted if and only if each number in it has a double, and what is
written then is on one line. A string of the grammar holds no control character, and the other
tokens are made of a few marks, letters and digits, so line ends stand between tokens only,
where they are dropped. The text that a value is rendered to is on one line likewise.
-/
namespace Stepwise.Json

/-! ## Texts without control characters -/

/-- None of the characters is a control character. Line ends are among these. -/
def NoControls (cs : List Char) : Prop :=
  ∀ c ∈ cs, 0x20 ≤ c.toNat

theorem NoControls.not_mem_newline {cs : List Char} (h : NoControls cs) : '\n' ∉ cs :=
  fun hmem => absurd (h '\n' hmem) (by decide)

theorem noControls_nil : NoControls [] := nofun

theorem noControls_cons {c : Char} {cs : List Char} :
    NoControls (c :: cs) ↔ 0x20 ≤ c.toNat ∧ NoControls cs :=
  List.forall_mem_cons

theorem noControls_append {cs ds : List Char} :
    NoControls (cs ++ ds) ↔ NoControls cs ∧ NoControls ds :=
  List.forall_mem_append

theorem noControls_of_all {cs : List Char} (h : cs.all (fun c => 0x20 ≤ c.toNat) = true) :
    NoControls cs :=
  fun c hc => of_decide_eq_true (List.all_eq_true.mp h c hc)

/-- A class of characters that leaves out the control characters. -/
theorem le_toNat_of_class {p : Char → Bool}
    (hp : (List.range 0x20).all (fun n => !p (Char.ofNat n)) = true) {c : Char}
    (h : p c = true) : 0x20 ≤ c.toNat := by
  by_contra hlow
  have hc := List.all_eq_true.mp hp c.toNat (List.mem_range.mpr (by omega))
  rw [Char.ofNat_toNat, h] at hc
  cases hc

theorem StringBody.noControls {body : List Char} {us : List StringUnit}
    (h : StringBody body us) : NoControls body := by
  induction h with
  | nil => exact noControls_nil
  | char h0 _ _ _ ih => exact noControls_cons.mpr ⟨h0, ih⟩
  | @escape e c cs us he _ ih =>
      have h0 : 0x20 ≤ e.toNat :=
        le_toNat_of_class (p := fun e => (simpleEscape? e).isSome) (by decide) (by rw [he]; rfl)
      exact noControls_cons.mpr ⟨by decide, noControls_cons.mpr ⟨h0, ih⟩⟩
  | @code a b c d n cs us hn _ ih =>
      have hx := isSome_of_hexNumber? hn
      have hdigits : NoControls [a, b, c, d] := fun x hmem =>
        le_toNat_of_class (p := fun x => (Text.hexValue? x).isSome) (by decide) (hx x hmem)
      have hcode : NoControls ('\\' :: 'u' :: [a, b, c, d]) :=
        noControls_cons.mpr ⟨by decide, noControls_cons.mpr ⟨by decide, hdigits⟩⟩
      exact noControls_append.mpr ⟨hcode, ih⟩

theorem IsString.noControls {token : List Char} {text : String} (h : IsString token text) :
    NoControls token := by
  cases h with
  | quoted hb =>
      exact noControls_cons.mpr ⟨by decide,
        noControls_append.mpr ⟨hb.noControls, noControls_cons.mpr ⟨by decide, noControls_nil⟩⟩⟩

theorem IsNumber.noControls {token : List Char} (h : IsNumber token) : NoControls token :=
  fun c hc => le_toNat_of_class (by decide) (h.isNumberChar c hc)

theorem noControls_word {word : String} (h : word ∈ ["null", "true", "false"]) :
    NoControls word.toList := by
  simp only [List.mem_cons, List.not_mem_nil, or_false] at h
  rcases h with rfl | rfl | rfl <;> exact noControls_of_all (by decide)

theorem noControls_commaJoin {texts : List (List Char)} (h : ∀ t ∈ texts, NoControls t) :
    NoControls (commaJoin texts) := by
  induction texts with
  | nil => exact noControls_nil
  | cons t texts ih =>
      rw [List.forall_mem_cons] at h
      cases texts with
      | nil => exact h.1
      | cons u texts =>
          rw [commaJoin, noControls_append, noControls_cons]
          exact ⟨h.1, by decide, ih h.2⟩

theorem noControls_brackets {opening closing : Char} {inner : List Char}
    (ho : 0x20 ≤ opening.toNat) (hc : 0x20 ≤ closing.toNat) (h : NoControls inner) :
    NoControls (opening :: (inner ++ [closing])) :=
  noControls_cons.mpr ⟨ho,
    noControls_append.mpr ⟨h, noControls_cons.mpr ⟨hc, noControls_nil⟩⟩⟩

/-- The text of a value has no control characters. -/
theorem Writable.noControls {v : Json} (h : v.Writable) : NoControls v.render.toList := by
  induction h with
  | null => exact noControls_word (by decide)
  | @bool b => cases b <;> exact noControls_word (by decide)
  | number hn => exact hn.noControls
  | string => exact (isString_quote _).noControls
  | array _ ih =>
      rw [render_array_toList]
      refine noControls_brackets (by decide) (by decide) (noControls_commaJoin ?_)
      rwa [List.forall_mem_map]
  | object _ ih =>
      rw [render_object_toList]
      refine noControls_brackets (by decide) (by decide) (noControls_commaJoin ?_)
      rw [List.forall_mem_map]
      intro m hm
      rw [text_rendered, noControls_append, noControls_cons]
      exact ⟨(isString_quote m.1).noControls, by decide, ih m hm⟩

theorem noControls_unicodeEscape {c : Char} (h : isUnsafeInPage c = true) :
    NoControls (unicodeEscape c.toNat) := by
  simp only [isUnsafeInPage, Bool.or_eq_true, beq_iff_eq] at h
  rcases h with (((rfl | rfl) | rfl) | rfl) | rfl <;> exact noControls_of_all (by decide)

theorem NoControls.escapeUnsafe {cs : List Char} (h : NoControls cs) :
    NoControls (Json.escapeUnsafe cs) := by
  induction cs using Json.escapeUnsafe.induct with
  | case1 => exact noControls_nil
  | case2 c rest ih =>
      rw [noControls_cons, noControls_cons] at h
      rw [Json.escapeUnsafe, noControls_cons, noControls_cons]
      exact ⟨h.1, h.2.1, ih h.2.2⟩
  | case3 c rest hpair ih =>
      rw [noControls_cons] at h
      rw [Json.escapeUnsafe, noControls_append]
      · refine ⟨?_, ih h.2⟩
        split
        · rename_i hunsafe
          exact noControls_unicodeEscape hunsafe
        · exact noControls_cons.mpr ⟨h.1, noControls_nil⟩
      · exact hpair

/-! ## Numbers without a double -/

/-- A value that stands somewhere in another one. -/
inductive PartOf (part : List Char) : List Char → Prop
  | whole : PartOf part part
  | item {depth : Nat} {items : List Spaced} {i : Spaced} : (∀ i ∈ items, i.Bare) →
      (∀ i ∈ items, IsValue depth i.token) → i ∈ items → PartOf part i.token →
      PartOf part ('[' :: (commaJoin (items.map Spaced.text) ++ [']']))
  | member {depth : Nat} {members : List Member} {m : Member} : (∀ m ∈ members, m.Labelled) →
      (∀ m ∈ members, IsValue depth m.value.token) → m ∈ members → PartOf part m.value.token →
      PartOf part ('\x7b' :: (commaJoin (members.map Member.text) ++ ['\x7d']))

/-- Every number that stands somewhere in a value has a double. -/
def HasDoubles (token : List Char) : Prop :=
  ∀ part, PartOf part token → IsNumber part →
    (Number.parseFloat? (String.ofList part)).isSome = true

/-- A value is written without white space between its tokens, on one line. -/
def Compacts (token : List Char) : Prop :=
  ∃ written, CompactsTo true token written ∧ NoControls written

theorem Compacts.exists_compactsTo {token : List Char} (h : Compacts token) :
    ∃ written, CompactsTo true token written :=
  h.imp fun _ hw => hw.1

theorem Compacts.not_resists {token : List Char} (h : Compacts token) : ¬Resists true token := by
  obtain ⟨written, hw, -⟩ := h
  exact hw.not_resists

theorem exists_forall₂ {α β : Type} {p : α → β → Prop} {q : β → Prop} {as : List α}
    (h : ∀ a ∈ as, ∃ b, p a b ∧ q b) : ∃ bs, List.Forall₂ p as bs ∧ ∀ b ∈ bs, q b := by
  induction as with
  | nil => exact ⟨[], .nil, nofun⟩
  | cons a as ih =>
      rw [List.forall_mem_cons] at h
      obtain ⟨⟨b, hp, hq⟩, hrest⟩ := h
      obtain ⟨bs, hps, hqs⟩ := ih hrest
      exact ⟨b :: bs, .cons hp hps, List.forall_mem_cons.mpr ⟨hq, hqs⟩⟩

theorem compacts_array {depth : Nat} {items : List Spaced} (hne : items ≠ [])
    (hb : ∀ i ∈ items, i.Bare) (hv : ∀ i ∈ items, IsValue depth i.token)
    (h : ∀ i ∈ items, Compacts i.token) :
    Compacts ('[' :: (commaJoin (items.map Spaced.text) ++ [']'])) := by
  obtain ⟨written, hwritten, hall⟩ := exists_forall₂ h
  exact ⟨_, compactsTo_array hb hv hne hwritten,
    noControls_brackets (by decide) (by decide) (noControls_commaJoin hall)⟩

theorem compacts_object {members : List Member} (hne : members ≠ [])
    (hl : ∀ m ∈ members, m.Labelled) (h : ∀ m ∈ members, Compacts m.value.token) :
    Compacts ('\x7b' :: (commaJoin (members.map Member.text) ++ ['\x7d'])) := by
  have hmembers : ∀ m ∈ members, ∃ text, CompactsMember true m text ∧ NoControls text := by
    intro m hm
    obtain ⟨w, hw, hall⟩ := h m hm
    have hname : NoControls (writtenString true m.label.token) :=
      (hl m hm).name.noControls.escapeUnsafe
    exact ⟨_, ⟨w, hw, rfl⟩,
      noControls_append.mpr ⟨hname, noControls_cons.mpr ⟨by decide, hall⟩⟩⟩
  obtain ⟨written, hwritten, hall⟩ := exists_forall₂ hmembers
  exact ⟨_, compactsTo_object hl hne hwritten,
    noControls_brackets (by decide) (by decide) (noControls_commaJoin hall)⟩

/-- A number that stands in a value and has no double. -/
structure HugePart (part token : List Char) : Prop where
  partOf : PartOf part token
  number : IsNumber part
  noDouble : ¬(Number.parseFloat? (String.ofList part)).isSome = true

theorem HugePart.not_hasDoubles {part token : List Char} (h : HugePart part token) :
    ¬HasDoubles token :=
  fun hd => h.noDouble (hd part h.partOf h.number)

/-- A value is taken, or refused because of a number in it. -/
theorem IsValue.compacts_or_refused {depth : Nat} {token : List Char} (h : IsValue depth token) :
    Compacts token ∨ ∃ part, HugePart part token ∧ RefusedFor true part token := by
  induction h with
  | word hw => exact .inl ⟨_, compactsTo_word hw, noControls_word hw⟩
  | @number depth token hn =>
      by_cases hd : (Number.parseFloat? (String.ofList token)).isSome = true
      · exact .inl ⟨token, compactsTo_number hn hd, hn.noControls⟩
      · exact .inr ⟨token, ⟨.whole, hn, hd⟩, refusedFor_number hn hd⟩
  | string hs => exact .inl ⟨_, compactsTo_string hs, hs.noControls.escapeUnsafe⟩
  | emptyArray hw =>
      exact .inl ⟨_, compactsTo_emptyArray hw, noControls_of_all (by decide)⟩
  | emptyObject hw =>
      exact .inl ⟨_, compactsTo_emptyObject hw, noControls_of_all (by decide)⟩
  | @array depth items hne hb hv ih =>
      by_cases hall : ∀ i ∈ items, Compacts i.token
      · exact .inl (compacts_array hne hb hv hall)
      · obtain ⟨before, i, after, rfl, hbefore, hi⟩ := exists_first_not hall
        have hmem : i ∈ before ++ i :: after := by simp
        obtain ⟨part, hpart, hrefused⟩ := (ih i hmem).resolve_left hi
        exact .inr ⟨part, ⟨.item hb hv hmem hpart.partOf, hpart.number, hpart.noDouble⟩,
          refusedFor_array hb hv (fun j hj => (hbefore j hj).exists_compactsTo) hrefused⟩
  | @object depth members hne hl hv ih =>
      by_cases hall : ∀ m ∈ members, Compacts m.value.token
      · exact .inl (compacts_object hne hl hall)
      · obtain ⟨before, m, after, rfl, hbefore, hm⟩ := exists_first_not hall
        have hmem : m ∈ before ++ m :: after := by simp
        obtain ⟨part, hpart, hrefused⟩ := (ih m hmem).resolve_left hm
        exact .inr ⟨part, ⟨.member hl hv hmem hpart.partOf, hpart.number, hpart.noDouble⟩,
          refusedFor_object hl (fun n hn => (hbefore n hn).exists_compactsTo) hrefused⟩

theorem IsValue.compactsTo_or_resists {depth : Nat} {token : List Char} (h : IsValue depth token) :
    (∃ w, CompactsTo true token w) ∨ Resists true token :=
  h.compacts_or_refused.imp Compacts.exists_compactsTo fun ⟨part, _, hr⟩ => ⟨part, hr⟩

/-- A number without a double makes all values refused that it stands in. -/
theorem PartOf.resists {part token : List Char} (h : PartOf part token) (hn : IsNumber part)
    (hd : ¬(Number.parseFloat? (String.ofList part)).isSome = true) : Resists true token := by
  induction h with
  | whole => exact ⟨part, refusedFor_number hn hd⟩
  | @item depth items i hb hv hi _ ih =>
      exact resists_array hb hv (fun j hj => (hv j hj).compactsTo_or_resists) ⟨i, hi, ih⟩
  | @member depth members m hl hv hm _ ih =>
      exact resists_object hl (fun n hn => (hv n hn).compactsTo_or_resists) ⟨m, hm, ih⟩

theorem IsValue.compacts_iff {depth : Nat} {token : List Char} (h : IsValue depth token) :
    Compacts token ↔ HasDoubles token := by
  constructor
  · intro hc part hpart hn
    by_contra hd
    exact hc.not_resists (hpart.resists hn hd)
  · intro hd
    exact h.compacts_or_refused.resolve_right fun ⟨_, hpart, _⟩ => hpart.not_hasDoubles hd

section
variable {depth : Nat} {text : String} (h : IsValue depth text.toList)
include h

/-- A whole text that is a value of the grammar with doubles for all its numbers is compacted,
and what is written has no control characters. -/
theorem compact_of_hasDoubles (hd : HasDoubles text.toList) :
    ∃ line, compact true text = .ok line ∧ NoControls line.toList := by
  obtain ⟨written, hw, hall⟩ := h.compacts_iff.mpr hd
  exact ⟨_, compact_of_compactsTo h hw, by rwa [String.toList_ofList]⟩

/-- A value of the grammar is refused for a number in it, which is too large. -/
theorem compact_of_not_hasDoubles (hd : ¬HasDoubles text.toList) :
    ∃ part, HugePart part text.toList ∧
      compact true text = .error (.number (String.ofList part) .outOfRange) := by
  obtain ⟨part, hpart, hr⟩ :=
    h.compacts_or_refused.resolve_left fun hc => hd (h.compacts_iff.mp hc)
  exact ⟨part, hpart, compact_of_refusedFor h hr⟩

end

end Stepwise.Json
