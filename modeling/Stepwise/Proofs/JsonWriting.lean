import Mathlib.Data.List.Forall2
import Stepwise.Proofs.JsonGrammar

/-!
# What is rendered is JSON

The text of a value follows the grammar, if its numbers are written as numbers: a
string becomes a string with the same text, whatever has to be escaped, and the
parts of a collection stand between commas.
-/
namespace Stepwise.Json

/-- Induction over values: a collection has the property when its parts have it. -/
theorem induct {motive : Json → Prop} (null : motive .null) (bool : ∀ b, motive (.bool b))
    (number : ∀ text, motive (.number text)) (string : ∀ text, motive (.string text))
    (array : ∀ items, (∀ v ∈ items, motive v) → motive (.array items))
    (object : ∀ members, (∀ m ∈ members, motive m.2) → motive (.object members)) (v : Json) :
    motive v :=
  @Json.rec motive (fun items => ∀ v ∈ items, motive v) (fun members => ∀ m ∈ members, motive m.2)
    (fun m => motive m.2) null bool number string array object nofun
    (fun _ _ hv hrest => List.forall_mem_cons.mpr ⟨hv, hrest⟩) nofun
    (fun _ _ hm hrest => List.forall_mem_cons.mpr ⟨hm, hrest⟩) (fun _ _ hv => hv) v

/-- A value whose numbers are written as numbers. -/
inductive Writable : Json → Prop
  | null : Writable .null
  | bool {b : Bool} : Writable (.bool b)
  | number {text : String} : IsNumber text.toList → Writable (.number text)
  | string {text : String} : Writable (.string text)
  | array {items : List Json} : (∀ v ∈ items, Writable v) → Writable (.array items)
  | object {members : List (String × Json)} : (∀ m ∈ members, Writable m.2) →
      Writable (.object members)

/-! ## Strings -/

/-- A unit stands for a character, as it is or by its number. -/
inductive StringUnit.StandsFor : StringUnit → Char → Prop
  | char {c : Char} : StandsFor (.char c) c
  | code {c : Char} : c.toNat < 0xD800 → StandsFor (.code c.toNat) c

theorem joinUnits_of_standsFor {us : List StringUnit} {cs : List Char}
    (h : List.Forall₂ StringUnit.StandsFor us cs) : joinUnits us = cs := by
  have hcode : ∀ c : Char, c.toNat < 0xD800 →
      (if (decide (0xD800 ≤ c.toNat) && decide (c.toNat < 0xE000)) = true then '\ufffd'
        else Char.ofNat c.toNat) = c := by
    intro c hc
    have hlow : decide (0xD800 ≤ c.toNat) = false := by simpa using hc
    rw [hlow, Bool.false_and, if_neg (by decide), Char.ofNat_toNat]
  induction h with
  | nil => rfl
  | @cons u c us cs hu htail ih =>
      cases htail with
      | nil =>
          cases hu with
          | char => rfl
          | code hc => rw [joinUnits, hcode c hc]
      | @cons w d us cs hw _ =>
          cases hu with
          | char => rw [joinUnits, ih]
          | code hc =>
              cases w with
              | char d => rw [joinUnits, hcode c hc, ih]
              | code n =>
                  have hlow : decide (0xD800 ≤ c.toNat) = false := by simpa using hc
                  rw [joinUnits, hlow]
                  simp only [Bool.false_and, Bool.false_eq_true, if_false, Char.ofNat_toNat, ih]

theorem hexValue?_hexDigit {n : Nat} (h : n < 16) :
    Text.hexValue? (Text.hexDigit n) = some n := by
  have hall : ∀ k < 16, Text.hexValue? (Text.hexDigit k) = some k := by decide
  exact hall n h

theorem hexNumber?_hexDigits {n : Nat} (h : n < 65536) :
    Text.hexNumber? (Text.hexDigits 4 n) = some n := by
  have hdigit : ∀ k, Text.hexValue? (Text.hexDigit (k % 16)) = some (k % 16) :=
    fun k => hexValue?_hexDigit (Nat.mod_lt k (by decide))
  simp only [Text.hexDigits, Text.hexNumber?, List.foldlM_cons, List.foldlM_nil, hdigit,
    Option.map_some, Option.bind_eq_bind, Option.bind_some, Option.pure_def, Option.some.injEq]
  change (((0 * 16 + n / 4096 % 16) * 16 + n / 256 % 16) * 16 + n / 16 % 16) * 16 + n / 1 % 16 = n
  omega

theorem unsafe_lt {c : Char} (h : c.toNat < 0x20 ∨ isUnsafeInPage c = true) :
    c.toNat < 0xD800 := by
  rcases h with h | h
  · omega
  · simp only [isUnsafeInPage, Bool.or_eq_true, beq_iff_eq] at h
    rcases h with (((rfl | rfl) | rfl) | rfl) | rfl <;> decide

inductive Escaped : Char → List Char → Prop
  | pair {c e : Char} :
      (e, c) ∈ [('"', '"'), ('\\', '\\'), ('n', '\n'), ('r', '\r'), ('t', '\t')] →
      Escaped c ['\\', e]
  | code {c : Char} : c.toNat < 0xD800 → Escaped c (unicodeEscape c.toNat)
  | char {c : Char} : 0x20 ≤ c.toNat → c ≠ '"' → c ≠ '\\' → isUnsafeInPage c = false →
      Escaped c [c]

theorem escaped_escapeChar (c : Char) : Escaped c (escapeChar c) := by
  unfold escapeChar
  have hpair : ∀ d e, (c == d) = true →
      (e, d) ∈ [('"', '"'), ('\\', '\\'), ('n', '\n'), ('r', '\r'), ('t', '\t')] →
      Escaped c ['\\', e] := by
    intro d e hc he
    rw [← beq_iff_eq.mp hc] at he
    exact .pair he
  by_cases hq : (c == '"') = true
  · rw [if_pos hq]
    exact hpair _ _ hq (by decide)
  rw [if_neg hq]
  by_cases hb : (c == '\\') = true
  · rw [if_pos hb]
    exact hpair _ _ hb (by decide)
  rw [if_neg hb]
  by_cases hn : (c == '\n') = true
  · rw [if_pos hn]
    exact hpair _ _ hn (by decide)
  rw [if_neg hn]
  by_cases hr : (c == '\r') = true
  · rw [if_pos hr]
    exact hpair _ _ hr (by decide)
  rw [if_neg hr]
  by_cases ht : (c == '\t') = true
  · rw [if_pos ht]
    exact hpair _ _ ht (by decide)
  rw [if_neg ht]
  by_cases hc : (decide (c.toNat < 0x20) || isUnsafeInPage c) = true
  · rw [if_pos hc]
    exact .code (unsafe_lt (by simpa using hc))
  · rw [if_neg hc]
    rw [Bool.or_eq_true, decide_eq_true_eq, not_or, Nat.not_lt] at hc
    exact .char hc.1 (by simpa using hq) (by simpa using hb) (by simpa using hc.2)

/-- A character is written as one unit that stands for it. -/
theorem Escaped.stringBody {c : Char} {written cs : List Char} {us : List StringUnit}
    (hc : Escaped c written) (h : StringBody cs us) :
    ∃ u, StringUnit.StandsFor u c ∧ StringBody (written ++ cs) (u :: us) := by
  cases hc with
  | @pair e he =>
      have hread : ∀ m ∈ [('"', '"'), ('\\', '\\'), ('n', '\n'), ('r', '\r'), ('t', '\t')],
          simpleEscape? m.1 = some m.2 := by decide
      exact ⟨.char c, .char, .escape (hread (e, c) he) h⟩
  | code hlt => exact ⟨.code c.toNat, .code hlt, .code (hexNumber?_hexDigits (by omega)) h⟩
  | char h0 hq hb _ => exact ⟨.char c, .char, .char h0 hq hb h⟩

theorem stringBody_flatMap (cs : List Char) :
    ∃ us, List.Forall₂ StringUnit.StandsFor us cs ∧ StringBody (cs.flatMap escapeChar) us := by
  induction cs with
  | nil => exact ⟨[], .nil, .nil⟩
  | cons c cs ih =>
      obtain ⟨us, hus, hbody⟩ := ih
      obtain ⟨u, hu, hchar⟩ := (escaped_escapeChar c).stringBody hbody
      exact ⟨u :: us, .cons hu hus, by rwa [List.flatMap_cons]⟩

/-- A quoted text is a string with that text. -/
theorem isString_quote (text : String) : IsString (quote text).toList text := by
  obtain ⟨us, hus, hbody⟩ := stringBody_flatMap text.toList
  have h := IsString.quoted hbody
  rw [joinUnits_of_standsFor hus, String.ofList_toList] at h
  rwa [quote, String.toList_ofList]

/-! ## Collections -/

def bare (token : List Char) : Spaced :=
  ⟨[], token, []⟩

theorem bare_bare (token : List Char) : (bare token).Bare :=
  ⟨blank_nil, blank_nil⟩

theorem text_bare (token : List Char) : (bare token).text = token :=
  List.append_nil token

def renderedItem (v : Json) : Spaced :=
  bare v.render.toList

theorem map_text_renderedItem (items : List Json) :
    (items.map renderedItem).map Spaced.text = items.map fun v => v.render.toList := by
  simp only [List.map_map, Function.comp_def, renderedItem, text_bare]

def rendered (m : String × Json) : Member :=
  ⟨m.1, bare (quote m.1).toList, bare m.2.render.toList⟩

theorem rendered_labelled (m : String × Json) : (rendered m).Labelled := by
  have hname := isString_quote m.1
  generalize hq : (quote m.1).toList = name at hname
  rw [rendered, hq]
  exact ⟨bare_bare name, hname, bare_bare _⟩

theorem text_rendered (m : String × Json) :
    (rendered m).text = (quote m.1).toList ++ ':' :: m.2.render.toList := by
  rw [Member.text, rendered, text_bare, text_bare]

theorem map_text_rendered (members : List (String × Json)) :
    (members.map rendered).map Member.text = members.map fun m => (rendered m).text :=
  List.map_map

theorem renderItems_toList (items : List Json) :
    (renderItems items).toList = commaJoin (items.map fun v => v.render.toList) := by
  induction items with
  | nil => rfl
  | cons v items ih =>
      cases items with
      | nil => rfl
      | cons w items =>
          rw [renderItems, String.toList_append, String.toList_append, ih, List.append_assoc]
          rfl

theorem renderMembers_toList (members : List (String × Json)) :
    (renderMembers members).toList = commaJoin (members.map fun m => (rendered m).text) := by
  induction members with
  | nil => rfl
  | cons m members ih =>
      obtain ⟨k, v⟩ := m
      cases members with
      | nil =>
          rw [renderMembers, String.toList_append, String.toList_append, List.append_assoc]
          exact (text_rendered (k, v)).symm
      | cons n members =>
          rw [renderMembers]
          have hjoin : commaJoin (((k, v) :: n :: members).map fun m => (rendered m).text) =
              (rendered (k, v)).text ++
                ',' :: commaJoin ((n :: members).map fun m => (rendered m).text) := rfl
          rw [hjoin, ← ih, text_rendered]
          simp only [String.toList_append, List.append_assoc, List.cons_append]
          rfl

theorem render_array_toList (items : List Json) :
    (Json.array items).render.toList =
      '[' :: (commaJoin (items.map fun v => v.render.toList) ++ [']']) := by
  rw [render, String.toList_append, String.toList_append, renderItems_toList]
  rfl

theorem render_object_toList (members : List (String × Json)) :
    (Json.object members).render.toList =
      '\x7b' :: (commaJoin (members.map fun m => (rendered m).text) ++ ['\x7d']) := by
  rw [render, String.toList_append, String.toList_append, renderMembers_toList]
  rfl

theorem isObject_render {depth : Nat} {members : List (String × Json)}
    (h : ∀ m ∈ members, IsValue depth m.2.render.toList) :
    IsObject depth (members.map rendered) (Json.object members).render.toList := by
  rw [render_object_toList]
  cases members with
  | nil => exact .empty blank_nil
  | cons m members =>
      rw [← map_text_rendered]
      refine .members nofun ?_ ?_
      · simp only [List.forall_mem_map]
        exact fun k _ => rendered_labelled k
      · simp only [List.forall_mem_map]
        exact h

/-- Values that are each deep enough at some depth are all so at one depth. -/
theorem exists_depth {α : Type} {xs : List α} {p : α → Nat → Prop}
    (h : ∀ x ∈ xs, ∃ least, ∀ depth, least ≤ depth → p x depth) :
    ∃ least, ∀ x ∈ xs, ∀ depth, least ≤ depth → p x depth := by
  induction xs with
  | nil => exact ⟨0, nofun⟩
  | cons x xs ih =>
      rw [List.forall_mem_cons] at h
      obtain ⟨a, ha⟩ := h.1
      obtain ⟨b, hb⟩ := ih h.2
      refine ⟨max a b, List.forall_mem_cons.mpr ⟨fun depth hd => ha depth (by omega), ?_⟩⟩
      exact fun y hy depth hd => hb y hy depth (by omega)

theorem isValue_word {v : Json} {depth : Nat} (h : v.render ∈ ["null", "true", "false"]) :
    IsValue depth v.render.toList :=
  .word h

/-- The text of a value is a value of the grammar. -/
theorem Writable.isValue {v : Json} (h : v.Writable) :
    ∃ least, ∀ depth, least ≤ depth → IsValue depth v.render.toList := by
  induction h with
  | null => exact ⟨0, fun _ _ => isValue_word (by decide)⟩
  | @bool b =>
      refine ⟨0, fun _ _ => ?_⟩
      cases b with
      | true => exact isValue_word (by decide)
      | false => exact isValue_word (by decide)
  | number hn => exact ⟨0, fun _ _ => .number hn⟩
  | @string text => exact ⟨0, fun _ _ => .string (isString_quote text)⟩
  | @array items _ ih =>
      obtain ⟨least, hleast⟩ := exists_depth ih
      refine ⟨least + 1, fun depth hd => ?_⟩
      obtain ⟨depth, rfl⟩ : ∃ d, depth = d + 1 := ⟨depth - 1, by omega⟩
      rw [render_array_toList]
      cases items with
      | nil => exact .emptyArray blank_nil
      | cons v items =>
          rw [← map_text_renderedItem]
          refine .array nofun ?_ ?_
          · simp only [List.forall_mem_map]
            exact fun w _ => bare_bare _
          · simp only [List.forall_mem_map]
            exact fun w hw => hleast w hw depth (by omega)
  | @object members _ ih =>
      obtain ⟨least, hleast⟩ := exists_depth ih
      refine ⟨least + 1, fun depth hd => ?_⟩
      obtain ⟨depth, rfl⟩ : ∃ d, depth = d + 1 := ⟨depth - 1, by omega⟩
      exact (isObject_render fun m hm => hleast m hm depth (by omega)).isValue

end Stepwise.Json
