import Mathlib.Data.List.Basic
import Stepwise.Json.Extent

/-!
# The grammar of JSON texts

What a JSON text is, without a reader. A value is described by the way it is
written, because a request keeps some of its values as they are written. The number
beside a value bounds how deep its arrays and objects are nested; it grows with
every bracket, so any text of the grammar has such a number.

The readers of a request look for brackets and quotes alone. For that a coarser
grammar is enough, the balanced texts, and a value is one of them.
-/
namespace Stepwise.Json

/-- White space alone. -/
def Blank (w : List Char) : Prop :=
  ∀ c ∈ w, isSpace c = true

/-- What stands between the quotes of a string, and the units it is read as. -/
inductive StringBody : List Char → List StringUnit → Prop
  | nil : StringBody [] []
  | char {c : Char} {cs : List Char} {us : List StringUnit} : 0x20 ≤ c.toNat → c ≠ '"' →
      c ≠ '\\' → StringBody cs us → StringBody (c :: cs) (.char c :: us)
  | escape {e c : Char} {cs : List Char} {us : List StringUnit} : simpleEscape? e = some c →
      StringBody cs us → StringBody ('\\' :: e :: cs) (.char c :: us)
  | code {a b c d : Char} {n : Nat} {cs : List Char} {us : List StringUnit} :
      hexFour? a b c d = some n → StringBody cs us →
      StringBody ('\\' :: 'u' :: a :: b :: c :: d :: cs) (.code n :: us)

inductive IsString : List Char → String → Prop
  | quoted {body : List Char} {us : List StringUnit} : StringBody body us →
      IsString ('"' :: (body ++ ['"'])) (String.ofList (joinUnits us))

def IsDigits (ds : List Char) : Prop :=
  ds ≠ [] ∧ ∀ c ∈ ds, c.isDigit = true

/-- The digits before the point: a zero alone, or digits that do not start with one. -/
inductive IsWhole : List Char → Prop
  | zero : IsWhole ['0']
  | digits {d : Char} {ds : List Char} : d ≠ '0' → IsDigits (d :: ds) → IsWhole (d :: ds)

inductive IsFraction : List Char → Prop
  | absent : IsFraction []
  | point {ds : List Char} : IsDigits ds → IsFraction ('.' :: ds)

inductive IsExponent : List Char → Prop
  | absent : IsExponent []
  | power {e : Char} {sign ds : List Char} : e = 'e' ∨ e = 'E' →
      sign = [] ∨ sign = ['+'] ∨ sign = ['-'] → IsDigits ds → IsExponent (e :: (sign ++ ds))

inductive IsNumber : List Char → Prop
  | parts {sign whole fraction exponent : List Char} : sign = [] ∨ sign = ['-'] →
      IsWhole whole → IsFraction fraction → IsExponent exponent →
      IsNumber (sign ++ (whole ++ (fraction ++ exponent)))

structure Spaced where
  before : List Char
  token : List Char
  after : List Char

/-- A token and its white space as they are written. -/
def Spaced.text (s : Spaced) : List Char :=
  s.before ++ (s.token ++ s.after)

/-- Nothing but white space stands around the token. -/
def Spaced.Bare (s : Spaced) : Prop :=
  Blank s.before ∧ Blank s.after

/-- A member of an object: the text of its name, its name as written, and its value. -/
structure Member where
  name : String
  label : Spaced
  value : Spaced

def Member.text (m : Member) : List Char :=
  m.label.text ++ ':' :: m.value.text

/-- The parts of a member are in order, its value apart. -/
structure Member.Labelled (m : Member) : Prop where
  label : m.label.Bare
  name : IsString m.label.token m.name
  value : m.value.Bare

/-- Texts with commas between them. -/
def commaJoin : List (List Char) → List Char
  | [] => []
  | [t] => t
  | t :: u :: rest => t ++ ',' :: commaJoin (u :: rest)

inductive IsValue : Nat → List Char → Prop
  | word {depth : Nat} {word : String} : word ∈ ["null", "true", "false"] →
      IsValue depth word.toList
  | number {depth : Nat} {token : List Char} : IsNumber token → IsValue depth token
  | string {depth : Nat} {token : List Char} {text : String} : IsString token text →
      IsValue depth token
  | emptyArray {depth : Nat} {w : List Char} : Blank w → IsValue (depth + 1) ('[' :: (w ++ [']']))
  | array {depth : Nat} {items : List Spaced} : items ≠ [] → (∀ i ∈ items, i.Bare) →
      (∀ i ∈ items, IsValue depth i.token) →
      IsValue (depth + 1) ('[' :: (commaJoin (items.map Spaced.text) ++ [']']))
  | emptyObject {depth : Nat} {w : List Char} : Blank w →
      IsValue (depth + 1) ('\x7b' :: (w ++ ['\x7d']))
  | object {depth : Nat} {members : List Member} : members ≠ [] →
      (∀ m ∈ members, m.Labelled) → (∀ m ∈ members, IsValue depth m.value.token) →
      IsValue (depth + 1) ('\x7b' :: (commaJoin (members.map Member.text) ++ ['\x7d']))

inductive IsObject (depth : Nat) : List Member → List Char → Prop
  | empty {w : List Char} : Blank w → IsObject depth [] ('\x7b' :: (w ++ ['\x7d']))
  | members {ms : List Member} : ms ≠ [] → (∀ m ∈ ms, m.Labelled) →
      (∀ m ∈ ms, IsValue depth m.value.token) →
      IsObject depth ms ('\x7b' :: (commaJoin (ms.map Member.text) ++ ['\x7d']))

/-- A whole text that is one object. -/
inductive IsObjectText (depth : Nat) (ms : List Member) : List Char → Prop
  | spaced {before token after : List Char} : Blank before → IsObject depth ms token →
      Blank after → IsObjectText depth ms (before ++ (token ++ after))

theorem blank_nil : Blank [] :=
  fun _ hc => absurd hc List.not_mem_nil

theorem IsObject.isObjectText {depth : Nat} {ms : List Member} {token : List Char}
    (h : IsObject depth ms token) : IsObjectText depth ms token := by
  have hspaced := IsObjectText.spaced blank_nil h blank_nil
  rwa [List.nil_append, List.append_nil] at hspaced

theorem commaJoin_append (w t : List Char) (texts : List (List Char)) :
    commaJoin ((w ++ t) :: texts) = w ++ commaJoin (t :: texts) := by
  cases texts with
  | nil => rfl
  | cons u texts => rw [commaJoin, commaJoin, List.append_assoc]

theorem length_le_commaJoin (texts : List (List Char)) :
    texts.length ≤ (commaJoin texts).length + 1 := by
  induction texts with
  | nil => exact Nat.zero_le _
  | cons t texts ih =>
      cases texts with
      | nil => exact Nat.succ_le_succ (Nat.zero_le _)
      | cons u texts =>
          simp only [commaJoin, List.length_append, List.length_cons] at ih ⊢
          omega

theorem IsObject.isValue {depth : Nat} {ms : List Member} {token : List Char}
    (h : IsObject depth ms token) : IsValue (depth + 1) token := by
  cases h with
  | empty hw => exact .emptyObject hw
  | members hne hl hv => exact .object hne hl hv

theorem IsObject.isValue_of_mem {depth : Nat} {ms : List Member} {token : List Char}
    (h : IsObject depth ms token) {m : Member} (hm : m ∈ ms) : IsValue depth m.value.token := by
  cases h with
  | empty hw => cases hm
  | members _ _ hv => exact hv m hm

/-! ## Balanced texts -/

/-- A character that neither opens nor closes anything. -/
structure Plain (c : Char) : Prop where
  notNul : c.toNat ≠ 0
  notQuote : c ≠ '"'
  notBracket : c ≠ '[' ∧ c ≠ ']' ∧ c ≠ '\x7b' ∧ c ≠ '\x7d'

/-- What may stand between quotes as far as the closing quote is concerned: a backslash
protects the character after it. -/
inductive Enclosed : List Char → Prop
  | nil : Enclosed []
  | char {c : Char} {cs : List Char} : c.toNat ≠ 0 → c ≠ '"' → c ≠ '\\' → Enclosed cs →
      Enclosed (c :: cs)
  | pair {e : Char} {cs : List Char} : e.toNat ≠ 0 → Enclosed cs → Enclosed ('\\' :: e :: cs)

/-- A text whose strings end and whose brackets match, nested at most to a depth. -/
inductive Balanced : Nat → List Char → Prop
  | nil {depth : Nat} : Balanced depth []
  | plain {depth : Nat} {c : Char} {cs : List Char} : Plain c → Balanced depth cs →
      Balanced depth (c :: cs)
  | string {depth : Nat} {body cs : List Char} : Enclosed body → Balanced depth cs →
      Balanced depth ('"' :: (body ++ '"' :: cs))
  | array {depth : Nat} {inner cs : List Char} : Balanced depth inner →
      Balanced (depth + 1) cs → Balanced (depth + 1) ('[' :: (inner ++ ']' :: cs))
  | object {depth : Nat} {inner cs : List Char} : Balanced depth inner →
      Balanced (depth + 1) cs → Balanced (depth + 1) ('\x7b' :: (inner ++ '\x7d' :: cs))

theorem Balanced.append {depth : Nat} {cs ds : List Char} (hc : Balanced depth cs)
    (hd : Balanced depth ds) : Balanced depth (cs ++ ds) := by
  induction hc with
  | nil => exact hd
  | plain hp _ ih => exact .plain hp (ih hd)
  | string hb _ ih =>
      rw [List.cons_append, List.append_assoc, List.cons_append]
      exact .string hb (ih hd)
  | array hi _ _ ih =>
      rw [List.cons_append, List.append_assoc, List.cons_append]
      exact .array hi (ih hd)
  | object hi _ _ ih =>
      rw [List.cons_append, List.append_assoc, List.cons_append]
      exact .object hi (ih hd)

theorem Balanced.of_plain {depth : Nat} {cs : List Char} (h : ∀ c ∈ cs, Plain c) :
    Balanced depth cs := by
  induction cs with
  | nil => exact .nil
  | cons c cs ih =>
      exact .plain (h c List.mem_cons_self) (ih fun d hd => h d (List.mem_cons_of_mem c hd))

/-- A character that some test tells from NUL is not NUL. -/
theorem toNat_ne_zero {p : Char → Bool} (hp : p '\x00' = false) {c : Char} (h : p c = true) :
    c.toNat ≠ 0 := by
  intro h0
  have hc : c = '\x00' := by rw [← Char.ofNat_toNat c, h0]
  rw [hc, hp] at h
  cases h

/-- A class of characters that leaves out the marks holds plain ones only. -/
theorem Plain.of_class {p : Char → Bool}
    (hp : ['\x00', '"', '[', ']', '\x7b', '\x7d'].all (fun c => !p c) = true) {c : Char}
    (h : p c = true) : Plain c := by
  simp only [List.all_cons, List.all_nil, Bool.and_true, Bool.and_eq_true,
    Bool.not_eq_true'] at hp
  obtain ⟨h0, hq, hs, hsc, hc, hcc⟩ := hp
  have hne : ∀ {mark : Char}, p mark = false → c ≠ mark := by
    rintro mark hm rfl
    rw [hm] at h
    cases h
  exact ⟨toNat_ne_zero h0 h, hne hq, hne hs, hne hsc, hne hc, hne hcc⟩

theorem plain_comma : Plain ',' := ⟨by decide, by decide, by decide⟩

theorem plain_colon : Plain ':' := ⟨by decide, by decide, by decide⟩

theorem Blank.balanced {depth : Nat} {w : List Char} (h : Blank w) : Balanced depth w :=
  .of_plain fun c hc => .of_class (by decide) (h c hc)

/-! ## Numbers -/

theorem isNumberChar_of_isDigit {c : Char} (h : c.isDigit = true) : isNumberChar c = true := by
  simp [isNumberChar, h]

theorem IsNumber.isNumberChar {token : List Char} (h : IsNumber token) :
    ∀ c ∈ token, isNumberChar c = true := by
  cases h with
  | parts hsign hwhole hfraction hexponent =>
      intro c hc
      simp only [List.mem_append] at hc
      rcases hc with hc | hc | hc | hc
      · rcases hsign with rfl | rfl
        · cases hc
        · rw [List.mem_singleton.mp hc]
          decide
      · cases hwhole with
        | zero =>
            rw [List.mem_singleton.mp hc]
            decide
        | digits _ hd => exact isNumberChar_of_isDigit (hd.2 c hc)
      · cases hfraction with
        | absent => cases hc
        | point hd =>
            rcases List.mem_cons.mp hc with rfl | hc
            · decide
            · exact isNumberChar_of_isDigit (hd.2 c hc)
      · cases hexponent with
        | absent => cases hc
        | power he hs hd =>
            rcases List.mem_cons.mp hc with rfl | hc
            · rcases he with rfl | rfl <;> decide
            · rcases List.mem_append.mp hc with hc | hc
              · rcases hs with rfl | rfl | rfl
                · cases hc
                · rw [List.mem_singleton.mp hc]
                  decide
                · rw [List.mem_singleton.mp hc]
                  decide
              · exact isNumberChar_of_isDigit (hd.2 c hc)

theorem IsNumber.head {token : List Char} (h : IsNumber token) :
    ∃ c cs, token = c :: cs ∧ (c == '-' || c.isDigit) = true := by
  cases h with
  | parts hsign hwhole hfraction hexponent =>
      rcases hsign with rfl | rfl
      · cases hwhole with
        | zero => exact ⟨_, _, rfl, by decide⟩
        | digits _ hd =>
            refine ⟨_, _, rfl, ?_⟩
            rw [hd.2 _ List.mem_cons_self, Bool.or_true]
      · exact ⟨_, _, rfl, by decide⟩

/-- A number starts with none of the characters that other values start with. -/
theorem IsNumber.head_ne {token : List Char} (h : IsNumber token) :
    ∃ c cs, token = c :: cs ∧ isSpace c = false ∧ ∀ d ∈ ['n', '"', '[', ']', '\x7b'], c ≠ d := by
  obtain ⟨c, cs, rfl, hc⟩ := h.head
  refine ⟨c, cs, rfl, ?_, ?_⟩
  · cases hs : isSpace c with
    | false => rfl
    | true =>
        simp only [isSpace, Bool.or_eq_true, beq_iff_eq] at hs
        rcases hs with ((rfl | rfl) | rfl) | rfl <;> exact absurd hc (by decide)
  · rintro d hd rfl
    simp only [List.mem_cons, List.not_mem_nil, or_false] at hd
    rcases hd with rfl | rfl | rfl | rfl | rfl <;> exact absurd hc (by decide)

theorem isNumber_digit {c : Char} (hc : c.isDigit = true) (hz : c ≠ '0') : IsNumber [c] := by
  have hdigits : IsDigits [c] := ⟨List.cons_ne_nil c [], fun d hd => by rwa [List.mem_singleton.mp hd]⟩
  exact .parts (.inl rfl) (.digits hz hdigits) .absent .absent

/-! ## Strings -/

theorem enclosed_hex {c : Char} {cs : List Char} (h : (Text.hexValue? c).isSome = true)
    (hcs : Enclosed cs) : Enclosed (c :: cs) := by
  have h0 : c.toNat ≠ 0 := toNat_ne_zero (p := fun c => (Text.hexValue? c).isSome) (by decide) h
  refine .char h0 ?_ ?_ hcs
  all_goals
    rintro rfl
    exact absurd h (by decide)

theorem isSome_of_hexNumber? {ds : List Char} {m n : Nat}
    (h : ds.foldlM (fun n c => (Text.hexValue? c).map (n * 16 + ·)) m = some n) :
    ∀ c ∈ ds, (Text.hexValue? c).isSome = true := by
  induction ds generalizing m with
  | nil => exact nofun
  | cons d ds ih =>
      rw [List.foldlM_cons] at h
      cases hd : Text.hexValue? d with
      | none =>
          rw [hd] at h
          cases h
      | some k =>
          rw [hd] at h
          intro c hc
          rcases List.mem_cons.mp hc with rfl | hc
          · rw [hd]
            rfl
          · exact ih h c hc

theorem StringBody.enclosed {body : List Char} {us : List StringUnit} (h : StringBody body us) :
    Enclosed body := by
  induction h with
  | nil => exact .nil
  | char h0 hq hb _ ih => exact .char (by omega) hq hb ih
  | @escape e c cs us he _ ih =>
      have h0 : e.toNat ≠ 0 :=
        toNat_ne_zero (p := fun e => (simpleEscape? e).isSome) (by decide) (by rw [he]; rfl)
      exact .pair h0 ih
  | code hn _ ih =>
      have hx := isSome_of_hexNumber? hn
      simp only [List.forall_mem_cons, List.not_mem_nil, false_implies, implies_true,
        and_true] at hx
      obtain ⟨ha, hb, hc, hd⟩ := hx
      exact .pair (by decide) (enclosed_hex ha (enclosed_hex hb (enclosed_hex hc
        (enclosed_hex hd ih))))

/-- Whether a character stands for itself in a string. -/
def isLiteral (c : Char) : Bool :=
  0x20 ≤ c.toNat && c != '"' && c != '\\'

theorem StringBody.of_literals {cs : List Char} (h : cs.all isLiteral = true) :
    StringBody cs (cs.map StringUnit.char) := by
  induction cs with
  | nil => exact .nil
  | cons c cs ih =>
      rw [List.all_cons, Bool.and_eq_true] at h
      have hc := h.1
      simp only [isLiteral, Bool.and_eq_true, decide_eq_true_eq, bne_iff_ne] at hc
      exact .char hc.1.1 hc.1.2 hc.2 (ih h.2)

theorem joinUnits_chars (cs : List Char) : joinUnits (cs.map StringUnit.char) = cs := by
  induction cs with
  | nil => rfl
  | cons c cs ih =>
      cases cs with
      | nil => rfl
      | cons d cs => exact congrArg (c :: ·) ih

/-- A text between quotes, written as it is. -/
def quoted (t : String) : List Char :=
  '"' :: (t.toList ++ ['"'])

theorem isString_quoted {t : String} (h : t.toList.all isLiteral = true) :
    IsString (quoted t) t := by
  have hs := IsString.quoted (StringBody.of_literals h)
  rwa [joinUnits_chars, String.ofList_toList] at hs

/-! ## Values -/

theorem IsString.balanced {depth : Nat} {token : List Char} {text : String}
    (h : IsString token text) : Balanced depth token := by
  cases h with
  | quoted hb => exact .string hb.enclosed .nil

theorem balanced_commaJoin {depth : Nat} {texts : List (List Char)}
    (h : ∀ t ∈ texts, Balanced depth t) : Balanced depth (commaJoin texts) := by
  induction texts with
  | nil => exact .nil
  | cons t texts ih =>
      have ht : Balanced depth t := h t List.mem_cons_self
      have hrest := ih fun u hu => h u (List.mem_cons_of_mem t hu)
      cases texts with
      | nil => exact ht
      | cons u texts => exact ht.append (.plain plain_comma hrest)

theorem Spaced.Bare.balanced {depth : Nat} {s : Spaced} (h : s.Bare)
    (ht : Balanced depth s.token) : Balanced depth s.text :=
  h.1.balanced.append (ht.append h.2.balanced)

theorem Member.Labelled.balanced {depth : Nat} {m : Member} (h : m.Labelled)
    (hv : Balanced depth m.value.token) : Balanced depth m.text := by
  exact (h.label.balanced h.name.balanced).append (.plain plain_colon (h.value.balanced hv))

theorem balanced_items {depth : Nat} {items : List Spaced} (hb : ∀ i ∈ items, i.Bare)
    (h : ∀ i ∈ items, Balanced depth i.token) :
    Balanced depth (commaJoin (items.map Spaced.text)) := by
  refine balanced_commaJoin ?_
  simp only [List.forall_mem_map]
  intro i hi
  exact (hb i hi).balanced (h i hi)

theorem balanced_members {depth : Nat} {members : List Member} (hl : ∀ m ∈ members, m.Labelled)
    (h : ∀ m ∈ members, Balanced depth m.value.token) :
    Balanced depth (commaJoin (members.map Member.text)) := by
  refine balanced_commaJoin ?_
  simp only [List.forall_mem_map]
  intro m hm
  exact (hl m hm).balanced (h m hm)

/-- Every value is balanced. -/
theorem IsValue.balanced {depth : Nat} {token : List Char} (h : IsValue depth token) :
    Balanced depth token := by
  induction h with
  | word hw =>
      have hletters : ["null", "true", "false"].all (fun w => w.toList.all Char.isLower) = true := by
        decide
      have hlower := List.all_eq_true.mp (List.all_eq_true.mp hletters _ hw)
      exact .of_plain fun c hc => .of_class (by decide) (hlower c hc)
  | number hn => exact .of_plain fun c hc => .of_class (by decide) (hn.isNumberChar c hc)
  | string hs => exact hs.balanced
  | emptyArray hw => exact .array hw.balanced .nil
  | array _ hbare _ ih => exact .array (balanced_items hbare ih) .nil
  | emptyObject hw => exact .object hw.balanced .nil
  | object _ hlabelled _ ih => exact .object (balanced_members hlabelled ih) .nil

theorem IsString.head {token : List Char} {text : String} (h : IsString token text) :
    ∃ cs, token = '"' :: cs := by
  cases h with
  | quoted hb => exact ⟨_, rfl⟩

/-- A value starts with a character of its own, which closes nothing. -/
theorem IsValue.head {depth : Nat} {token : List Char} (h : IsValue depth token) :
    ∃ c cs, token = c :: cs ∧ isSpace c = false ∧ c ≠ ']' := by
  cases h with
  | word hw =>
      simp only [List.mem_cons, List.not_mem_nil, or_false] at hw
      rcases hw with rfl | rfl | rfl <;> exact ⟨_, _, rfl, by decide⟩
  | number hn =>
      obtain ⟨c, cs, rfl, hs, hne⟩ := hn.head_ne
      exact ⟨c, cs, rfl, hs, hne _ (by decide)⟩
  | string hs =>
      obtain ⟨cs, rfl⟩ := hs.head
      exact ⟨_, _, rfl, by decide⟩
  | _ => exact ⟨_, _, rfl, by decide⟩

/-- A value is `null`, or it starts with another letter. -/
theorem IsValue.null_or_head {depth : Nat} {token : List Char} (h : IsValue depth token) :
    token = "null".toList ∨ ∃ c cs, token = c :: cs ∧ isSpace c = false ∧ c ≠ 'n' := by
  cases h with
  | word hw =>
      simp only [List.mem_cons, List.not_mem_nil, or_false] at hw
      rcases hw with rfl | rfl | rfl
      · exact .inl rfl
      · exact .inr ⟨_, _, rfl, by decide⟩
      · exact .inr ⟨_, _, rfl, by decide⟩
  | number hn =>
      obtain ⟨c, cs, rfl, hs, hne⟩ := hn.head_ne
      exact .inr ⟨c, cs, rfl, hs, hne _ (by decide)⟩
  | string hs =>
      obtain ⟨cs, rfl⟩ := hs.head
      exact .inr ⟨_, _, rfl, by decide⟩
  | _ => exact .inr ⟨_, _, rfl, by decide⟩

end Stepwise.Json
