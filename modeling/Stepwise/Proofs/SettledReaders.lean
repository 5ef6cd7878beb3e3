import Mathlib.Data.List.TakeDrop
import Stepwise.Json.Reader
import Stepwise.Proofs.JsonExtent

/-!
# Readers on values of the grammar

The readers of a request take less care than the grammar, so a reader may stop
before the end of a value. On a value of the grammar there are still only two
cases, and which one it is depends on the reader and the value alone. Either the
reader takes the whole value and nothing else, or it fails. Failing may come late:
a reader of whole numbers stops before a point or an exponent, and what is left
there stops whoever reads on.

A reader for which this holds is called settled. Lists and records of settled
readers are settled.
-/
namespace Stepwise.Json

/-! ## White space -/

theorem skipSpace_cons {c : Char} (h : isSpace c = false) (cs : List Char) :
    skipSpace (c :: cs) = c :: cs :=
  List.dropWhile_cons_of_neg (by simp [h])

theorem Blank.skipSpace_append {w : List Char} (h : Blank w) (cs : List Char) :
    skipSpace (w ++ cs) = skipSpace cs :=
  List.dropWhile_append_of_pos h

theorem skipSpace_skipSpace (cs : List Char) : skipSpace (skipSpace cs) = skipSpace cs := by
  induction cs with
  | nil => rfl
  | cons c cs ih =>
      cases hc : isSpace c with
      | true =>
          have hs : skipSpace (c :: cs) = skipSpace cs := List.dropWhile_cons_of_pos hc
          rw [hs, ih]
      | false => rw [skipSpace_cons hc, skipSpace_cons hc]

theorem IsValue.skipSpace_append {depth : Nat} {token : List Char} (h : IsValue depth token)
    (rest : List Char) : skipSpace (token ++ rest) = token ++ rest := by
  obtain ⟨c, cs, rfl, hc, _⟩ := h.head
  exact skipSpace_cons hc (cs ++ rest)

namespace Reader

section
variable {α : Type}

def valueOf (r : Reader α) (token : List Char) (old : α) : α :=
  ((r old token).map Prod.fst).getD old

/-- A reader takes a token and nothing else, whatever was there before and whatever follows. -/
def Takes (r : Reader α) (token : List Char) : Prop :=
  ∀ old rest, Ends rest → r old (token ++ rest) = some (r.valueOf token old, rest)

/-- A reader fails on a token, or stops in a number before a point or an exponent. -/
def Refuses (r : Reader α) (token : List Char) : Prop :=
  ∀ old rest, Ends rest → r old (token ++ rest) = none ∨
    ∃ a c cs, r old (token ++ rest) = some (a, c :: cs) ∧ (c = '.' ∨ c = 'e' ∨ c = 'E')

/-- A reader that takes or refuses every value, with or without white space in front. -/
structure Settled (r : Reader α) : Prop where
  skips : ∀ old cs, r old (skipSpace cs) = r old cs
  settles : ∀ depth token, IsValue depth token → depth ≤ fieldDepth → r.Takes token ∨ r.Refuses token

variable {r : Reader α} {token : List Char}

theorem takes_of_eq (f : α → α)
    (h : ∀ old rest, Ends rest → r old (token ++ rest) = some (f old, rest)) : r.Takes token := by
  intro old rest hr
  have hnil := h old [] ends_nil
  rw [List.append_nil] at hnil
  rw [h old rest hr, valueOf, hnil]
  rfl

theorem refuses_of_eq_none (h : ∀ old rest, r old (token ++ rest) = none) : r.Refuses token :=
  fun old rest _ => .inl (h old rest)

theorem Refuses.not_takes (h : r.Refuses token) (old : α) : ¬r.Takes token := by
  intro ht
  have htakes := ht old [] ends_nil
  rcases h old [] ends_nil with hn | ⟨a, c, cs, hc, _⟩
  · rw [hn] at htakes
    cases htakes
  · rw [hc] at htakes
    cases htakes

theorem Settled.spaced (h : r.Settled) {w : List Char} (hw : Blank w) (old : α)
    (cs : List Char) : r old (w ++ cs) = r old cs := by
  rw [← h.skips, hw.skipSpace_append, h.skips]

end

/-! ## Words and strings -/

theorem afterNull?_of_ne {c : Char} (hc : c ≠ 'n') (cs : List Char) : afterNull? (c :: cs) = none := by
  have hb : ('n' == c) = false := beq_false_of_ne hc.symm
  simp [afterNull?, afterWord?, List.isPrefixOf?, hb]

theorem stringUnits_append {body : List Char} {us : List StringUnit} (h : StringBody body us)
    (rest : List Char) : stringUnits (body ++ '"' :: rest) = some (us, rest) := by
  induction h with
  | nil => rfl
  | char _ hq hb _ ih =>
      rw [List.cons_append, stringUnits, ih]
      · simp [hb]
      · exact hq
      · intro a b c d rest he
        exact absurd he hb
      · intro e rest he
        exact absurd he hb
  | @escape e c cs us he _ ih =>
      have hu : e ≠ 'u' := by
        rintro rfl
        cases he
      rw [List.cons_append, List.cons_append, stringUnits, ih]
      · simp [hu, he]
      · intro a b c d rest h
        exact absurd h hu
  | code hn _ ih =>
      simp only [List.cons_append, stringUnits, hn, ih, Option.map_some]

theorem restOfText_append {body : List Char} {us : List StringUnit} (h : StringBody body us)
    (rest : List Char) :
    restOfText (body ++ '"' :: rest) = some (String.ofList (joinUnits us), rest) := by
  rw [restOfText, stringUnits_append h]
  rfl

theorem text_of_ne {c : Char} (hs : isSpace c = false) (hq : c ≠ '"') (hn : c ≠ 'n') (old : String)
    (cs : List Char) : text old (c :: cs) = none := by
  rw [text, skipSpace_cons hs]
  split
  · rename_i h
    cases h
    exact absurd rfl hq
  · rw [afterNull?_of_ne hn]
    rfl

theorem text_string {token : List Char} {value : String} (h : IsString token value) (old : String)
    (rest : List Char) : text old (token ++ rest) = some (value, rest) := by
  cases h with
  | quoted hb =>
      rw [List.cons_append, List.append_assoc, List.singleton_append, text,
        skipSpace_cons (by decide)]
      exact restOfText_append hb rest

theorem takes_string {token : List Char} {t : String} (h : IsString token t) : text.Takes token :=
  takes_of_eq (fun _ => t) fun old rest _ => text_string h old rest

theorem valueOf_string {token : List Char} {t : String} (h : IsString token t) (old : String) :
    text.valueOf token old = t := by
  have hread := text_string h old []
  rw [List.append_nil] at hread
  rw [valueOf, hread]
  rfl

theorem settled_text : text.Settled where
  skips old cs := by rw [text, text, skipSpace_skipSpace]
  settles depth token h _ := by
    have hother : ∀ c cs, isSpace c = false → c ≠ '"' → c ≠ 'n' → text.Refuses (c :: cs) :=
      fun c cs hs hq hn => refuses_of_eq_none fun old rest => text_of_ne hs hq hn old (cs ++ rest)
    cases h with
    | word hw =>
        simp only [List.mem_cons, List.not_mem_nil, or_false] at hw
        rcases hw with rfl | rfl | rfl
        · exact .inl (takes_of_eq id fun old rest _ => rfl)
        · exact .inr (hother _ _ (by decide) (by decide) (by decide))
        · exact .inr (hother _ _ (by decide) (by decide) (by decide))
    | number hn =>
        obtain ⟨c, cs, rfl, hs, hne⟩ := hn.head_ne
        exact .inr (hother c cs hs (hne _ (by decide)) (hne _ (by decide)))
    | string hs => exact .inl (takes_string hs)
    | _ => exact .inr (hother _ _ (by decide) (by decide) (by decide))

/-! ## Values of any form -/

theorem raw_append {depth : Nat} {token : List Char} (h : IsValue depth token)
    (hd : depth ≤ fieldDepth) (old : Option String) {rest : List Char} (hr : Ends rest) :
    raw old (token ++ rest) = some (some (String.ofList token), rest) := by
  rw [raw, h.skipSpace_append, h.spanWithin_append hd fun _ => hr]
  rfl

theorem takes_raw {depth : Nat} {token : List Char} (h : IsValue depth token)
    (hd : depth ≤ fieldDepth) : raw.Takes token :=
  takes_of_eq (fun _ => some (String.ofList token)) fun old _ hr => raw_append h hd old hr

theorem takes_ignored {α : Type} {depth : Nat} {token : List Char} (h : IsValue depth token)
    (hd : depth ≤ fieldDepth) : (ignored : Reader α).Takes token := by
  refine takes_of_eq id fun old rest hr => ?_
  rw [ignored, h.skipSpace_append, h.spanWithin_append hd fun _ => hr]
  rfl

/-- A value that is nested too deep is not even passed over. -/
theorem spanWithin_eq_none {depth : Nat} {token : List Char} (h : IsValue depth token)
    {room : Nat} (hn : nestsWithin room false token = false) {rest : List Char} (hr : Ends rest) :
    spanWithin room (token ++ rest) = none := by
  rw [spanWithin, h.spanValue_append fun _ => hr]
  simp only [hn, Bool.false_eq_true, if_false]

theorem refuses_raw {depth : Nat} {token : List Char} (h : IsValue depth token)
    (hn : nestsWithin fieldDepth false token = false) : raw.Refuses token := by
  refine fun old rest hr => .inl ?_
  rw [raw, h.skipSpace_append, spanWithin_eq_none h hn hr]
  rfl

theorem refuses_ignored {α : Type} {depth : Nat} {token : List Char} (h : IsValue depth token)
    (hn : nestsWithin fieldDepth false token = false) : (ignored : Reader α).Refuses token := by
  refine fun old rest hr => .inl ?_
  rw [ignored, h.skipSpace_append, spanWithin_eq_none h hn hr]
  rfl

theorem settled_raw : raw.Settled where
  skips old cs := by rw [raw, raw, skipSpace_skipSpace]
  settles _ _ h hd := .inl (takes_raw h hd)

theorem settled_ignored {α : Type} : (ignored : Reader α).Settled where
  skips old cs := by rw [ignored, ignored, skipSpace_skipSpace]
  settles _ _ h hd := .inl (takes_ignored h hd)

/-! ## Whole numbers -/

def DigitsEnd (rest : List Char) : Prop :=
  ∀ c cs, rest = c :: cs → c.isDigit = false

theorem spanDigits_append {ds rest : List Char} (hd : ∀ c ∈ ds, c.isDigit = true)
    (hr : DigitsEnd rest) : spanDigits (ds ++ rest) = (ds, rest) := by
  rw [spanDigits, List.span_eq_takeWhile_dropWhile, List.takeWhile_append_of_pos hd,
    List.dropWhile_append_of_pos hd]
  cases rest with
  | nil => simp
  | cons c cs =>
      have hc := hr c cs rfl
      simp [hc]

theorem IsWhole.isDigit {whole : List Char} (h : IsWhole whole) :
    ∀ c ∈ whole, c.isDigit = true := by
  cases h with
  | zero =>
      intro c hc
      rw [List.mem_singleton.mp hc]
      decide
  | digits _ hd => exact hd.2

theorem int_minus {ds rest : List Char} (hd : ∀ c ∈ ds, c.isDigit = true) (hr : DigitsEnd rest)
    (old : Int) :
    int old ('-' :: (ds ++ rest)) =
      if ds.length ≤ 19 then some (Number.wrap64 (-(digitsValue ds : Int)), rest) else none := by
  rw [int, skipSpace_cons (by decide)]
  simp only [spanDigits_append hd hr]

theorem int_digits {d : Char} {ds rest : List Char} (hz : d ≠ '0')
    (hd : ∀ c ∈ d :: ds, c.isDigit = true) (hr : DigitsEnd rest) (old : Int) :
    int old (d :: ds ++ rest) =
      if (d :: ds).length ≤ 19 then some (Number.wrap64 (digitsValue (d :: ds)), rest)
      else none := by
  have hdigit : d.isDigit = true := hd d List.mem_cons_self
  have hspace : isSpace d = false := by
    cases hs : isSpace d with
    | false => rfl
    | true =>
        have hn := isNumberChar_of_isSpace hs
        rw [isNumberChar_of_isDigit hdigit] at hn
        cases hn
  have hminus : d ≠ '-' := by
    rintro rfl
    cases hdigit
  have hspan := spanDigits_append hd hr
  rw [List.cons_append] at hspan ⊢
  rw [int, skipSpace_cons hspace]
  split
  · rename_i he
    cases he
    exact absurd rfl hz
  · rename_i he
    cases he
    exact absurd rfl hminus
  · rw [hspan]

/-- The digits before the point are read, unless there are too many. -/
theorem int_whole {sign whole : List Char} (hsign : sign = [] ∨ sign = ['-']) (h : IsWhole whole) :
    (∃ n, ∀ old rest, DigitsEnd rest → int old (sign ++ (whole ++ rest)) = some (n, rest)) ∨
      ∀ old rest, DigitsEnd rest → int old (sign ++ (whole ++ rest)) = none := by
  have hdigits := IsWhole.isDigit h
  by_cases hlen : whole.length ≤ 19
  · refine .inl ?_
    rcases hsign with rfl | rfl
    · cases h with
      | zero => exact ⟨0, fun old rest _ => rfl⟩
      | digits hz hd =>
          exact ⟨_, fun old rest hr => (int_digits hz hdigits hr old).trans (if_pos hlen)⟩
    · exact ⟨_, fun old rest hr => (int_minus hdigits hr old).trans (if_pos hlen)⟩
  · refine .inr fun old rest hr => ?_
    rcases hsign with rfl | rfl
    · cases h with
      | zero => exact absurd (by decide) hlen
      | digits hz hd => exact (int_digits hz hdigits hr old).trans (if_neg hlen)
    · exact (int_minus hdigits hr old).trans (if_neg hlen)

/-- What stands after the whole part starts with a point or an exponent. -/
theorem head_of_fraction_exponent {fraction exponent : List Char} (hf : IsFraction fraction)
    (hx : IsExponent exponent) :
    fraction ++ exponent = [] ∨ ∃ c cs, fraction ++ exponent = c :: cs ∧
      (c = '.' ∨ c = 'e' ∨ c = 'E') := by
  cases hf with
  | point hd => exact .inr ⟨_, _, rfl, .inl rfl⟩
  | absent =>
      cases hx with
      | absent => exact .inl rfl
      | power he _ _ => exact .inr ⟨_, _, rfl, .inr he⟩

theorem digitsEnd_of_ends {rest : List Char} (h : Ends rest) : DigitsEnd rest := by
  intro c cs he
  have hc := h c cs he
  cases hd : c.isDigit with
  | false => rfl
  | true =>
      rw [isNumberChar_of_isDigit hd] at hc
      cases hc

theorem settles_int_number {token : List Char} (h : IsNumber token) :
    int.Takes token ∨ int.Refuses token := by
  cases h with
  | parts hsign hwhole hf hx =>
      rcases int_whole hsign hwhole with ⟨n, hread⟩ | hnone
      · rcases head_of_fraction_exponent hf hx with hnil | ⟨c, cs, hcons, hc⟩
        · left
          rw [hnil]
          refine takes_of_eq (fun _ => n) fun old rest hr => ?_
          rw [List.append_nil, List.append_assoc]
          exact hread old rest (digitsEnd_of_ends hr)
        · right
          rw [hcons]
          refine fun old rest _ => .inr ⟨n, c, cs ++ rest, ?_, hc⟩
          rw [List.append_assoc, List.append_assoc]
          refine hread old _ fun d ds he => ?_
          cases he
          rcases hc with rfl | rfl | rfl <;> decide
      · right
        refine fun old rest hr => .inl ?_
        rw [List.append_assoc, List.append_assoc]
        refine hnone old _ ?_
        rcases head_of_fraction_exponent hf hx with hnil | ⟨c, cs, hcons, hc⟩
        · rw [hnil]
          exact digitsEnd_of_ends hr
        · rw [hcons]
          intro d ds he
          cases he
          rcases hc with rfl | rfl | rfl <;> decide

theorem int_of_ne {c : Char} (hs : isSpace c = false) (hd : c.isDigit = false) (hm : c ≠ '-')
    (hn : c ≠ 'n') (old : Int) (cs : List Char) : int old (c :: cs) = none := by
  rw [int, skipSpace_cons hs]
  split
  · rename_i he
    cases he
    cases hd
  · rename_i he
    cases he
    exact absurd rfl hm
  · have hempty : ∀ d ∈ ([] : List Char), d.isDigit = true := nofun
    have hspan : spanDigits (c :: cs) = ([], c :: cs) :=
      spanDigits_append hempty fun d ds he => by cases he; exact hd
    rw [hspan]
    simp only [afterNull?_of_ne hn, Option.map_none]

theorem settled_int : int.Settled where
  skips old cs := by rw [int, int, skipSpace_skipSpace]
  settles depth token h _ := by
    have hother : ∀ c cs, isSpace c = false → c.isDigit = false → c ≠ '-' → c ≠ 'n' →
        int.Refuses (c :: cs) :=
      fun c cs hs hd hm hn =>
        refuses_of_eq_none fun old rest => int_of_ne hs hd hm hn old (cs ++ rest)
    cases h with
    | word hw =>
        simp only [List.mem_cons, List.not_mem_nil, or_false] at hw
        rcases hw with rfl | rfl | rfl
        · exact .inl (takes_of_eq id fun old rest _ => rfl)
        · exact .inr (hother _ _ (by decide) (by decide) (by decide) (by decide))
        · exact .inr (hother _ _ (by decide) (by decide) (by decide) (by decide))
    | number hn => exact settles_int_number hn
    | string hs =>
        obtain ⟨cs, rfl⟩ := hs.head
        exact .inr (hother _ _ (by decide) (by decide) (by decide) (by decide))
    | _ => exact .inr (hother _ _ (by decide) (by decide) (by decide) (by decide))

/-! ## Lists -/

section
variable {α : Type} {r : Reader α}

theorem skipSpace_after {w tail : List Char} {c : Char} (hw : Blank w) (hc : isSpace c = false) :
    skipSpace (w ++ c :: tail) = c :: tail := by
  rw [hw.skipSpace_append, skipSpace_cons hc]

theorem Settled.text_append (hs : r.Settled) {s : Spaced} (hb : s.Bare) (old : α)
    (tail : List Char) : r old (s.text ++ tail) = r old (s.token ++ (s.after ++ tail)) := by
  rw [Spaced.text, List.append_assoc, List.append_assoc, hs.spaced hb.1]

/-- What a reader of items makes of a list of tokens. -/
def itemsValue (item : Reader α) (fresh : α) : List Spaced → List α → List α
  | [], _ => []
  | i :: more, old => item.valueOf i.token (old.headD fresh) :: itemsValue item fresh more old.tail

variable {item : Reader α} {i : Spaced}

theorem Takes.items_close (h : item.Takes i.token) (hs : item.Settled) (hb : i.Bare) (fresh : α)
    (fuel : Nat) (old : List α) (rest : List Char) :
    items fresh item (fuel + 1) old (i.text ++ ']' :: rest) =
      some ([item.valueOf i.token (old.headD fresh)], rest) := by
  have hend : Ends (i.after ++ ']' :: rest) := hb.2.ends_append (ends_cons (by decide))
  rw [items, hs.text_append hb, h _ _ hend]
  simp only [skipSpace_after hb.2 (show isSpace ']' = false by decide)]

theorem Takes.items_comma (h : item.Takes i.token) (hs : item.Settled) (hb : i.Bare) (fresh : α)
    (fuel : Nat) (old : List α) (cs : List Char) :
    items fresh item (fuel + 1) old (i.text ++ ',' :: cs) =
      (items fresh item fuel old.tail cs).map fun (as, rest) =>
        (item.valueOf i.token (old.headD fresh) :: as, rest) := by
  have hend : Ends (i.after ++ ',' :: cs) := hb.2.ends_append (ends_cons (by decide))
  rw [items, hs.text_append hb, h _ _ hend]
  simp only [skipSpace_after hb.2 (show isSpace ',' = false by decide)]

/-- A reader that stopped inside an item cannot go on. -/
theorem Refuses.items_eq_none (h : item.Refuses i.token) (hs : item.Settled) (hb : i.Bare)
    (fresh : α) (fuel : Nat) (old : List α) {tail : List Char} (ht : Ends tail) :
    items fresh item fuel old (i.text ++ tail) = none := by
  cases fuel with
  | zero => rfl
  | succ fuel =>
      rw [items, hs.text_append hb]
      rcases h (old.headD fresh) (i.after ++ tail) (hb.2.ends_append ht) with
        hn | ⟨a, c, cs, hc, hmark⟩
      · rw [hn]
      · rw [hc]
        rcases hmark with rfl | rfl | rfl <;> rfl

variable (hs : item.Settled) (fresh : α)
include hs

theorem items_takes {is : List Spaced} (hne : is ≠ []) (hb : ∀ i ∈ is, i.Bare)
    (h : ∀ i ∈ is, item.Takes i.token) {fuel : Nat} (hf : is.length ≤ fuel) (old : List α)
    (rest : List Char) :
    items fresh item fuel old (commaJoin (is.map Spaced.text) ++ ']' :: rest) =
      some (itemsValue item fresh is old, rest) := by
  induction is generalizing fuel old with
  | nil => exact absurd rfl hne
  | cons i more ih =>
      obtain ⟨hbi, hbmore⟩ := List.forall_mem_cons.mp hb
      obtain ⟨hti, htmore⟩ := List.forall_mem_cons.mp h
      cases fuel with
      | zero => exact absurd hf (by simp)
      | succ fuel =>
          cases more with
          | nil => exact hti.items_close hs hbi fresh fuel old rest
          | cons j more =>
              have hrest := ih (List.cons_ne_nil j more) hbmore htmore
                (Nat.le_of_succ_le_succ hf) old.tail
              rw [List.map_cons, List.map_cons, commaJoin, List.append_assoc, List.cons_append,
                hti.items_comma hs hbi, ← List.map_cons, hrest]
              rfl

theorem items_refuses {is : List Spaced} (hb : ∀ i ∈ is, i.Bare)
    (h : ∀ i ∈ is, item.Takes i.token ∨ item.Refuses i.token)
    (hex : ∃ i ∈ is, ¬item.Takes i.token) (fuel : Nat) (old : List α) (rest : List Char) :
    items fresh item fuel old (commaJoin (is.map Spaced.text) ++ ']' :: rest) = none := by
  induction is generalizing fuel old with
  | nil =>
      obtain ⟨i, hi, _⟩ := hex
      cases hi
  | cons i more ih =>
      obtain ⟨hbi, hbmore⟩ := List.forall_mem_cons.mp hb
      obtain ⟨hsi, hsmore⟩ := List.forall_mem_cons.mp h
      cases more with
      | nil =>
          obtain ⟨j, hj, hn⟩ := hex
          rw [List.mem_singleton.mp hj] at hn
          exact (hsi.resolve_left hn).items_eq_none hs hbi fresh fuel old (ends_cons (by decide))
      | cons j more =>
          rw [List.map_cons, List.map_cons, commaJoin, List.append_assoc, List.cons_append,
            ← List.map_cons]
          rcases hsi with hti | hri
          · cases fuel with
            | zero => rfl
            | succ fuel =>
                have hmore : ∃ k ∈ j :: more, ¬item.Takes k.token := by
                  obtain ⟨k, hk, hn⟩ := hex
                  rcases List.mem_cons.mp hk with rfl | hk
                  · exact absurd hti hn
                  · exact ⟨k, hk, hn⟩
                rw [hti.items_comma hs hbi, ih hbmore hsmore hmore]
                rfl
          · exact hri.items_eq_none hs hbi fresh fuel old (ends_cons (by decide))

omit hs in
/-- The items of an array are read from the first one on, with fuel enough for all. -/
theorem list_items {depth : Nat} {i : Spaced} (hb : i.Bare) (hv : IsValue depth i.token)
    (more : List Spaced) (old : List α) (rest : List Char) :
    ∃ fuel, more.length + 1 ≤ fuel ∧
      list fresh item old ('[' :: (commaJoin ((i :: more).map Spaced.text) ++ [']']) ++ rest) =
        items fresh item fuel old
          (commaJoin ((⟨[], i.token, i.after⟩ :: more : List Spaced).map Spaced.text) ++
            ']' :: rest) := by
  have hfirst : commaJoin ((i :: more).map Spaced.text) = i.before ++
      commaJoin ((⟨[], i.token, i.after⟩ :: more : List Spaced).map Spaced.text) :=
    commaJoin_append i.before (i.token ++ i.after) (more.map Spaced.text)
  have hlength := length_le_commaJoin
    ((⟨[], i.token, i.after⟩ :: more : List Spaced).map Spaced.text)
  obtain ⟨c, cs, hc, hspace, hclose⟩ := hv.head
  obtain ⟨ds, hd⟩ : ∃ ds, commaJoin ((⟨[], i.token, i.after⟩ :: more : List Spaced).map
      Spaced.text) = c :: ds := by
    rw [hc]
    exact ⟨_, commaJoin_append [c] (cs ++ i.after) (more.map Spaced.text)⟩
  rw [hd] at hfirst hlength ⊢
  rw [List.length_map] at hlength
  refine ⟨(c :: ds ++ ']' :: rest).length + 1, ?_, ?_⟩
  · simp only [List.length_cons, List.length_append] at hlength ⊢
    omega
  · rw [List.cons_append, List.append_assoc, List.singleton_append, list,
      skipSpace_cons (by decide), hfirst, List.append_assoc]
    simp only [hb.1.skipSpace_append, List.cons_append, skipSpace_cons hspace]
    split
    · rename_i he
      cases he
      exact absurd rfl hclose
    · rfl

end

theorem list_of_ne {α : Type} (fresh : α) (item : Reader α) {c : Char} (hs : isSpace c = false)
    (ho : c ≠ '[') (hn : c ≠ 'n') (old : List α) (cs : List Char) :
    list fresh item old (c :: cs) = none := by
  rw [list, skipSpace_cons hs]
  split
  · rename_i he
    cases he
    exact absurd rfl ho
  · rw [afterNull?_of_ne hn]
    rfl

theorem settles_list_items {α : Type} {item : Reader α} (hs : item.Settled) (fresh : α)
    {depth : Nat} (hd : depth ≤ fieldDepth) {is : List Spaced} (hne : is ≠ [])
    (hb : ∀ i ∈ is, i.Bare) (hv : ∀ i ∈ is, IsValue depth i.token) :
    (list fresh item).Takes ('[' :: (commaJoin (is.map Spaced.text) ++ [']'])) ∨
      (list fresh item).Refuses ('[' :: (commaJoin (is.map Spaced.text) ++ [']'])) := by
  cases is with
  | nil => exact absurd rfl hne
  | cons i more =>
      obtain ⟨hbi, hbmore⟩ := List.forall_mem_cons.mp hb
      have hsettles : ∀ j ∈ i :: more, item.Takes j.token ∨ item.Refuses j.token :=
        fun j hj => hs.settles depth j.token (hv j hj) hd
      have hbare : ∀ j ∈ (⟨[], i.token, i.after⟩ :: more : List Spaced), j.Bare :=
        List.forall_mem_cons.mpr ⟨⟨blank_nil, hbi.2⟩, hbmore⟩
      by_cases htakes : ∀ j ∈ i :: more, item.Takes j.token
      · refine .inl (takes_of_eq (itemsValue item fresh (i :: more)) fun old rest _ => ?_)
        obtain ⟨fuel, hfuel, hread⟩ :=
          list_items fresh hbi (hv i List.mem_cons_self) more old rest
        rw [hread]
        exact items_takes hs fresh (List.cons_ne_nil _ _) hbare
          (List.forall_mem_cons.mpr (List.forall_mem_cons.mp htakes)) hfuel old rest
      · refine .inr (refuses_of_eq_none fun old rest => ?_)
        obtain ⟨fuel, _, hread⟩ := list_items fresh hbi (hv i List.mem_cons_self) more old rest
        rw [hread]
        refine items_refuses hs fresh hbare
          (List.forall_mem_cons.mpr (List.forall_mem_cons.mp hsettles)) ?_ fuel old rest
        simp only [not_forall, exists_prop] at htakes
        obtain ⟨j, hj, hn⟩ := htakes
        rcases List.mem_cons.mp hj with rfl | hj
        · exact ⟨_, List.mem_cons_self, hn⟩
        · exact ⟨j, List.mem_cons_of_mem _ hj, hn⟩

theorem settled_list {α : Type} {item : Reader α} (hs : item.Settled) (fresh : α) :
    (list fresh item).Settled where
  skips old cs := by rw [list, list, skipSpace_skipSpace]
  settles depth token h hd := by
    have hother : ∀ c cs, isSpace c = false → c ≠ '[' → c ≠ 'n' →
        (list fresh item).Refuses (c :: cs) :=
      fun c cs hsp ho hn =>
        refuses_of_eq_none fun old rest => list_of_ne fresh item hsp ho hn old (cs ++ rest)
    cases h with
    | word hw =>
        simp only [List.mem_cons, List.not_mem_nil, or_false] at hw
        rcases hw with rfl | rfl | rfl
        · exact .inl (takes_of_eq (fun _ => []) fun old rest _ => rfl)
        · exact .inr (hother _ _ (by decide) (by decide) (by decide))
        · exact .inr (hother _ _ (by decide) (by decide) (by decide))
    | number hn =>
        obtain ⟨c, cs, rfl, hsp, hne⟩ := hn.head_ne
        exact .inr (hother c cs hsp (hne _ (by decide)) (hne _ (by decide)))
    | string hstr =>
        obtain ⟨cs, rfl⟩ := hstr.head
        exact .inr (hother _ _ (by decide) (by decide) (by decide))
    | emptyArray hw =>
        refine .inl (takes_of_eq (fun _ => []) fun old rest _ => ?_)
        rw [List.cons_append, List.append_assoc, List.singleton_append, list,
          skipSpace_cons (by decide)]
        simp only [skipSpace_after hw (show isSpace ']' = false by decide)]
    | array hne hb hv => exact settles_list_items hs fresh (Nat.le_of_succ_le hd) hne hb hv
    | _ => exact .inr (hother _ _ (by decide) (by decide) (by decide))

/-! ## Readers of parts -/

section
variable {α β : Type} {item : Reader α} {r : Reader β} {token : List Char} (get : β → α)
  (set : β → α → β)

/-- A reader that leaves the reading to another one takes what that one takes. -/
theorem Takes.through (h : item.Takes token)
    (hread : ∀ old rest, r old (token ++ rest) =
      (item (get old) (token ++ rest)).map fun (a, rest) => (set old a, rest)) :
    r.Takes token := by
  refine takes_of_eq (fun old => set old (item.valueOf token (get old))) fun old rest he => ?_
  rw [hread, h _ rest he]
  rfl

theorem Refuses.through (h : item.Refuses token)
    (hread : ∀ old rest, r old (token ++ rest) =
      (item (get old) (token ++ rest)).map fun (a, rest) => (set old a, rest)) :
    r.Refuses token := by
  intro old rest he
  rcases h (get old) rest he with hnone | ⟨a, d, ds, hsome, hmark⟩
  · exact .inl (by rw [hread, hnone]; rfl)
  · exact .inr ⟨set old a, d, ds, by rw [hread, hsome]; rfl, hmark⟩

end

theorem settled_optional {α : Type} {item : Reader α} (hs : item.Settled) (fresh : α) :
    (optional fresh item).Settled where
  skips old cs := by
    rw [optional, optional, skipSpace_skipSpace, hs.skips]
  settles depth token h hd := by
    rcases h.null_or_head with rfl | ⟨c, cs, hc, _, hn⟩
    · exact .inl (takes_of_eq (fun _ => none) fun old rest _ => rfl)
    · have hread : ∀ old rest, optional fresh item old (token ++ rest) =
          (item (old.getD fresh) (token ++ rest)).map fun (a, rest) => (some a, rest) := by
        intro old rest
        rw [optional, h.skipSpace_append, hc, List.cons_append, afterNull?_of_ne hn]
      exact (hs.settles depth token h hd).imp (fun ht => ht.through _ (fun _ a => some a) hread)
        (fun hr => hr.through _ (fun _ a => some a) hread)

theorem field_read {σ α : Type} (name : String) (get : σ → α) (set : σ → α → σ) (item : Reader α)
    (old : σ) (cs : List Char) :
    (field name get set item).read old cs =
      (item (get old) cs).map fun (a, rest) => (set old a, rest) := rfl

section
variable {σ α : Type} (name : String) (get : σ → α) (set : σ → α → σ) {item : Reader α}

theorem takes_field {token : List Char} (h : item.Takes token) :
    (field name get set item).read.Takes token :=
  h.through get set fun _ _ => rfl

theorem refuses_field {token : List Char} (h : item.Refuses token) :
    (field name get set item).read.Refuses token :=
  h.through get set fun _ _ => rfl

theorem settled_field (hs : item.Settled) : (field name get set item).read.Settled where
  skips old cs := by rw [field_read, field_read, hs.skips]
  settles depth token h hd :=
    (hs.settles depth token h hd).imp (takes_field name get set) (refuses_field name get set)

end

end Reader
end Stepwise.Json
