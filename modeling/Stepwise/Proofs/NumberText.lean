import Mathlib.Data.List.DropRight
import Mathlib.Data.List.TakeDrop
import Mathlib.Data.List.TakeWhile
import Stepwise.Number.Decimal
import Stepwise.Number.Literal
import Stepwise.Proofs.JsonGrammar

/-!
# Numbers as JSON writes them

A whole number is written in digits. A double is written from the digits of its
shortest decimal, which are put around a point or in front of an exponent; the first
of them is no zero, so in either notation the result follows the grammar.

In the other direction a number of the grammar is a literal. It denotes no double only if
it is too large for one.
-/
namespace Stepwise

open Json (IsDigits IsWhole IsFraction IsExponent IsNumber)

namespace Number

/-- Digits that start with another one than zero. -/
def IsSignificant (ds : List Char) : Prop :=
  IsDigits ds ∧ ∀ d rest, ds = d :: rest → d ≠ '0'

theorem IsSignificant.isWhole {ds : List Char} (h : IsSignificant ds) : IsWhole ds := by
  cases ds with
  | nil => exact absurd rfl h.1.1
  | cons d rest => exact .digits (h.2 d rest rfl) h.1

theorem isDigits_append {ds es : List Char} (h : IsDigits ds)
    (he : ∀ c ∈ es, c.isDigit = true) : IsDigits (ds ++ es) := by
  refine ⟨by simp [h.1], ?_⟩
  intro c hc
  rcases List.mem_append.mp hc with hc | hc
  · exact h.2 c hc
  · exact he c hc

theorem isDigits_cons {d : Char} {ds : List Char} (hd : d.isDigit = true)
    (h : ∀ c ∈ ds, c.isDigit = true) : IsDigits (d :: ds) :=
  ⟨nofun, List.forall_mem_cons.mpr ⟨hd, h⟩⟩

theorem IsSignificant.of_prefix {ds es : List Char} (h : IsSignificant ds)
    (hp : es <+: ds) (hne : es ≠ []) : IsSignificant es := by
  refine ⟨⟨hne, fun c hc => h.1.2 c (hp.subset hc)⟩, ?_⟩
  rintro d rest rfl
  obtain ⟨more, rfl⟩ := hp
  exact h.2 d (rest ++ more) rfl

theorem IsSignificant.append {ds es : List Char} (h : IsSignificant ds)
    (he : ∀ c ∈ es, c.isDigit = true) : IsSignificant (ds ++ es) := by
  refine ⟨isDigits_append h.1 he, ?_⟩
  intro d rest hd
  cases ds with
  | nil => exact absurd rfl h.1.1
  | cons c cs =>
      rw [List.cons_append, List.cons.injEq] at hd
      exact h.2 d cs (by rw [hd.1])

/-! ## Whole numbers -/

theorem toList_toString (n : Nat) : (toString n).toList = Nat.toDigits 10 n := by
  rw [Nat.toString_eq_repr, Nat.toList_repr]

theorem isDigits_toDigits (n : Nat) : IsDigits (Nat.toDigits 10 n) :=
  ⟨Nat.toDigits_ne_nil, fun _ hc => Nat.isDigit_of_mem_toDigits (by decide) (by decide) hc⟩

theorem isSignificant_toDigits {n : Nat} (hn : 0 < n) : IsSignificant (Nat.toDigits 10 n) := by
  induction n using Nat.strong_induction_on with
  | _ n ih =>
      by_cases hlt : n < 10
      · refine ⟨isDigits_toDigits n, ?_⟩
        intro d rest hd
        rw [Nat.toDigits_of_lt_base hlt, List.cons.injEq] at hd
        have hsmall : ∀ k < 10, 0 < k → k.digitChar ≠ '0' := by decide
        rw [← hd.1]
        exact hsmall n hlt hn
      · rw [Nat.toDigits_of_base_le (by decide) (by omega)]
        refine (ih (n / 10) (by omega) (by omega)).append ?_
        have hlast := (isDigits_toDigits (n % 10)).2
        rwa [Nat.toDigits_of_lt_base (by omega)] at hlast

theorem isWhole_toDigits (n : Nat) : IsWhole (Nat.toDigits 10 n) := by
  cases n with
  | zero => exact .zero
  | succ n => exact (isSignificant_toDigits n.succ_pos).isWhole

/-- Digits with an optional minus are a number. -/
theorem isNumber_of_isWhole {sign whole : List Char} (hs : sign = [] ∨ sign = ['-'])
    (hw : IsWhole whole) : IsNumber (sign ++ whole) := by
  have h := IsNumber.parts hs hw .absent .absent
  rwa [List.append_nil, List.append_nil] at h

theorem isNumber_int (n : Int) : IsNumber (toString n).toList := by
  cases n with
  | ofNat m =>
      have h := isNumber_of_isWhole (.inl rfl) (isWhole_toDigits m)
      rwa [List.nil_append, ← toList_toString] at h
  | negSucc m =>
      have h := isNumber_of_isWhole (.inr rfl) (isWhole_toDigits (m + 1))
      rw [← toList_toString] at h
      have htext : (toString (Int.negSucc m)).toList = '-' :: (toString (m + 1)).toList := by
        change ("-" ++ (m + 1).repr).toList = _
        rw [String.toList_append]
        rfl
      rwa [htext]

/-! ## Doubles -/

theorem powerOfTen_den_pos (e : Int) : 0 < (powerOfTen e).2 := by
  unfold powerOfTen
  split
  · exact Nat.one_pos
  · exact powTen_pos _

theorem Binary64.interval_low_pos {x : Binary64} (hx : x.mantissa ≠ 0) : 0 < x.interval.low := by
  have hlow : ∀ narrow : Bool, 0 <
      (if narrow then 4 * x.mantissa - 1 else 4 * x.mantissa - 2) := by
    intro narrow
    cases narrow <;> simp <;> omega
  unfold interval
  dsimp only
  split
  · exact Nat.mul_pos (hlow _) (powTwo_pos _)
  · exact hlow _

theorem digits_ne_zero_of_onGrid? {i : Interval} (hi : 0 < i.low) {unit : Int} {d : Decimal}
    (h : onGrid? i unit = some d) : d.digits ≠ 0 := by
  have hinside : i.contains (d.digits * (powerOfTen unit).1) (powerOfTen unit).2 = true := by
    simp only [onGrid?] at h
    split at h
    · rename_i hc
      rwa [← Option.some.inj h]
    · split at h
      · rename_i hc
        rwa [← Option.some.inj h]
      · split at h
        · rename_i hc
          rwa [← Option.some.inj h]
        · cases h
  intro h0
  have hpos : 0 < i.low * (powerOfTen unit).2 := Nat.mul_pos hi (powerOfTen_den_pos unit)
  rw [h0, Nat.zero_mul, Interval.contains] at hinside
  split at hinside
  · simp only [Nat.zero_mul, Bool.and_eq_true, decide_eq_true_eq] at hinside
    omega
  · simp only [Nat.zero_mul, Bool.and_eq_true, decide_eq_true_eq] at hinside
    omega

theorem firstGrid_cases {i : Interval} (hi : 0 < i.low) (fuel : Nat) (unit : Int) :
    firstGrid i fuel unit = ⟨0, 0⟩ ∨ (firstGrid i fuel unit).digits ≠ 0 := by
  induction fuel generalizing unit with
  | zero =>
      rw [firstGrid]
      cases h : onGrid? i unit with
      | none => exact .inl rfl
      | some d => exact .inr (digits_ne_zero_of_onGrid? hi h)
  | succ fuel ih =>
      rw [firstGrid]
      cases h : onGrid? i unit with
      | none => exact ih (unit - 1)
      | some d => exact .inr (digits_ne_zero_of_onGrid? hi h)

theorem isSignificant_rdropWhile {n : Nat} (hn : 0 < n) :
    IsSignificant ((Nat.toDigits 10 n).rdropWhile (· == '0')) := by
  have hs := isSignificant_toDigits hn
  refine hs.of_prefix (List.rdropWhile_prefix _ _) ?_
  intro hnil
  cases hd : Nat.toDigits 10 n with
  | nil => exact Nat.toDigits_ne_nil hd
  | cons d rest =>
      have hzero := List.rdropWhile_eq_nil_iff.mp hnil d (by simp [hd])
      exact hs.2 d rest hd (by simpa using hzero)

/-- The digits of a shortest decimal start with another one than zero, or they are those
of zero. -/
theorem Binary64.shortest_cases (x : Binary64) :
    IsSignificant x.shortest.1 ∨ (x.shortest.1 = ['0'] ∨ x.shortest.1 = []) ∧ x.shortest.2 = 1 := by
  unfold shortest
  by_cases hx : x.mantissa = 0
  · rw [hx]
    exact .inr ⟨.inl rfl, rfl⟩
  · have hne : (x.mantissa == 0) = false := by simpa using hx
    rw [hne]
    simp only [Bool.false_eq_true, if_false]
    generalize hd : firstGrid x.interval 17 _ = d
    have hcases : d = ⟨0, 0⟩ ∨ d.digits ≠ 0 := by
      rw [← hd]
      exact firstGrid_cases (interval_low_pos hx) _ _
    rcases hcases with rfl | hd
    · exact .inr ⟨.inr rfl, rfl⟩
    · left
      rw [toList_toString]
      exact isSignificant_rdropWhile (Nat.pos_of_ne_zero hd)

theorem isDigit_of_mem_replicate {n : Nat} : ∀ c ∈ List.replicate n '0', c.isDigit = true := by
  intro c hc
  rw [List.eq_of_mem_replicate hc]
  decide

theorem positional_of_significant {digits : List Char} (h : IsSignificant digits) (place : Int) :
    ∃ whole fraction, positional digits place = whole ++ fraction ∧ IsWhole whole ∧
      IsFraction fraction := by
  unfold positional
  split
  · refine ⟨['0'], _, rfl, .zero, .point ⟨by simp [h.1.1], ?_⟩⟩
    intro c hc
    rcases List.mem_append.mp hc with hc | hc
    · exact isDigit_of_mem_replicate c hc
    · exact h.1.2 c hc
  · dsimp only
    split
    · exact ⟨_, [], (List.append_nil _).symm, (h.append isDigit_of_mem_replicate).isWhole, .absent⟩
    · rename_i hplace hlength
      refine ⟨_, _, rfl, (h.of_prefix (List.take_prefix _ _) ?_).isWhole, .point ⟨?_, ?_⟩⟩
      · rw [ne_eq, List.take_eq_nil_iff, not_or]
        exact ⟨by omega, h.1.1⟩
      · rw [ne_eq, List.drop_eq_nil_iff]
        omega
      · exact fun c hc => h.1.2 c (List.mem_of_mem_drop hc)

theorem withExponent_of_significant {digits : List Char} (h : IsSignificant digits)
    (place : Int) :
    ∃ whole fraction exponent, withExponent digits place = whole ++ (fraction ++ exponent) ∧
      IsWhole whole ∧ IsFraction fraction ∧ IsExponent exponent := by
  have hexponent : ∀ e : Int, IsExponent ('e' :: (if e < 0 then '-' else '+') ::
      (if (toString e.natAbs).toList.length < 2 then '0' :: (toString e.natAbs).toList
        else (toString e.natAbs).toList)) := by
    intro e
    have hdigits := isDigits_toDigits e.natAbs
    rw [← toList_toString] at hdigits
    have hmagnitude : IsDigits (if (toString e.natAbs).toList.length < 2
        then '0' :: (toString e.natAbs).toList else (toString e.natAbs).toList) := by
      split
      · exact isDigits_cons (by decide) hdigits.2
      · exact hdigits
    have hsign : ([if e < 0 then '-' else '+'] = [] ∨ [if e < 0 then '-' else '+'] = ['+'] ∨
        [if e < 0 then '-' else '+'] = ['-']) := by
      split <;> simp
    exact .power (.inl rfl) hsign hmagnitude
  unfold withExponent
  cases digits with
  | nil => exact absurd rfl h.1.1
  | cons d rest =>
      have hfirst : [d] <+: d :: rest := ⟨rest, rfl⟩
      have hd := (h.of_prefix hfirst nofun).isWhole
      cases rest with
      | nil => exact ⟨[d], [], _, rfl, hd, .absent, hexponent _⟩
      | cons e rest =>
          have htail : IsDigits (e :: rest) :=
            ⟨nofun, fun c hc => h.1.2 c (List.mem_cons_of_mem d hc)⟩
          exact ⟨[d], '.' :: e :: rest, _, rfl, hd, .point htail, hexponent _⟩

/-- The text of a double is a number. -/
theorem Binary64.isNumber_text (x : Binary64) : IsNumber x.text.toList := by
  have hsign : (if x.negative then ['-'] else []) = ([] : List Char) ∨
      (if x.negative then ['-'] else []) = ['-'] := by
    cases x.negative <;> simp
  unfold text
  rw [String.toList_ofList]
  generalize (if x.negative then ['-'] else []) = sign at hsign ⊢
  rcases x.shortest_cases with h | ⟨h, hplace⟩
  · split
    · obtain ⟨whole, fraction, he, hw, hf⟩ := positional_of_significant h x.shortest.2
      rw [he, ← List.append_nil fraction]
      exact .parts hsign hw hf .absent
    · obtain ⟨whole, fraction, exponent, he, hw, hf, hx⟩ :=
        withExponent_of_significant h x.shortest.2
      rw [he]
      exact .parts hsign hw hf hx
  · have hzero : positional x.shortest.1 1 = ['0'] := by
      rcases h with h | h <;> rw [h] <;> rfl
    simp only [hplace, Int.reduceNeg, Int.reduceLT, Int.reduceLE, decide_true, Bool.and_self,
      Bool.or_true, if_true, hzero]
    exact isNumber_of_isWhole hsign .zero

/-! ## Numbers of the grammar as literals -/

theorem lowerLetter_of_isDigit {c : Char} (h : c.isDigit = true) : lowerLetter c = c := by
  simp only [Char.isDigit, Bool.and_eq_true, decide_eq_true_eq, ge_iff_le] at h
  unfold lowerLetter
  split
  · rename_i hc
    simp only [Bool.and_eq_true, decide_eq_true_eq] at hc
    have hA : (65 : UInt32) ≤ c.val := hc.1
    exact absurd (UInt32.le_trans hA h.2) (by decide)
  · rfl

theorem digitValue?_ten {c : Char} (h : c.isDigit = true) : (digitValue? 10 c).isSome = true := by
  have hlower := lowerLetter_of_isDigit h
  simp only [Char.isDigit, Bool.and_eq_true, decide_eq_true_eq, ge_iff_le] at h
  obtain ⟨hlow, hhigh⟩ := h
  have hrange : ('0' ≤ c && c ≤ '9') = true := by
    simp only [Bool.and_eq_true, decide_eq_true_eq]
    exact ⟨hlow, hhigh⟩
  have hval : c.toNat - 48 < 10 := by
    have h57 : c.toNat ≤ 57 := hhigh
    omega
  simp [digitValue?, hlower, hrange, Option.filter, hval]

section
variable {whole fraction exponent : List Char}

/-- No digit or underscore begins the text. -/
def EndsDigits (rest : List Char) : Prop :=
  ∀ c cs, rest = c :: cs → ((digitValue? 10 c).isSome || c == '_') = false

theorem span_digits {ds rest : List Char} (h : ∀ c ∈ ds, c.isDigit = true)
    (hrest : EndsDigits rest) :
    (ds ++ rest).span (fun c => (digitValue? 10 c).isSome || c == '_') = (ds, rest) := by
  have hparts : ∀ c ∈ ds, ((digitValue? 10 c).isSome || c == '_') = true := fun c hc => by
    rw [digitValue?_ten (h c hc), Bool.true_or]
  rw [List.span_eq_takeWhile_dropWhile, List.takeWhile_append_of_pos hparts,
    List.dropWhile_append_of_pos hparts]
  cases rest with
  | nil => simp
  | cons c cs => simp [hrest c cs rfl]

theorem filter_digits {ds : List Char} (h : ∀ c ∈ ds, c.isDigit = true) :
    ds.filter (· != '_') = ds := by
  rw [List.filter_eq_self]
  intro c hc
  rw [bne_iff_ne]
  rintro rfl
  exact absurd (h '_' hc) (by decide)

theorem isSome_readExponent {sign ds : List Char} (hs : sign = [] ∨ sign = ['+'] ∨ sign = ['-'])
    (hd : IsDigits ds) : (readExponent (sign ++ ds)).isSome = true := by
  obtain ⟨hne, hdigits⟩ := hd
  cases ds with
  | nil => exact absurd rfl hne
  | cons d ds =>
      have hd := hdigits d List.mem_cons_self
      have hall : (d :: ds).all (fun c => c.isDigit || c == '_') = true := by
        rw [List.all_eq_true]
        exact fun c hc => by rw [hdigits c hc, Bool.true_or]
      have hplus : d ≠ '+' := by
        rintro rfl
        exact absurd hd (by decide)
      have hminus : d ≠ '-' := by
        rintro rfl
        exact absurd hd (by decide)
      rcases hs with rfl | rfl | rfl <;> simp [readExponent, hd, hall, hplus, hminus]

theorem endsDigits_exponent (h : IsExponent exponent) : EndsDigits exponent := by
  cases h with
  | absent => exact nofun
  | power he hs hd =>
      rintro c cs hc
      obtain ⟨rfl, -⟩ := List.cons.inj hc
      rcases he with rfl | rfl <;> decide

theorem endsDigits_fraction (hf : IsFraction fraction) (he : IsExponent exponent) :
    EndsDigits (fraction ++ exponent) := by
  cases hf with
  | absent => exact endsDigits_exponent he
  | point hd =>
      rintro c cs hc
      obtain ⟨rfl, -⟩ := List.cons.inj hc
      decide

/-- What the mark of an exponent begins is read to the end. -/
theorem isSome_power {e : Char} {sign ds : List Char} (hmark : e = 'e' ∨ e = 'E')
    (hs : sign = [] ∨ sign = ['+'] ∨ sign = ['-']) (hd : IsDigits ds) (p : Int → Parts) :
    (if lowerLetter e == 'e' then (readExponent (sign ++ ds)).map p else none).isSome = true := by
  have hlower : (lowerLetter e == 'e') = true := by
    rcases hmark with rfl | rfl <;> decide
  rw [if_pos hlower, Option.isSome_map, isSome_readExponent hs hd]

theorem isSome_readParts (hw : IsDigits whole) (hf : IsFraction fraction)
    (he : IsExponent exponent) :
    (readParts 10 'e' (whole ++ (fraction ++ exponent))).isSome = true := by
  have hwhole := span_digits hw.2 (endsDigits_fraction hf he)
  have hne : whole.isEmpty = false := by simpa using hw.1
  unfold readParts
  simp only [hwhole, filter_digits hw.2, hne, Bool.false_and]
  cases hf with
  | absent =>
      cases he with
      | absent => rfl
      | power hmark hs hd =>
          have hend := isSome_power hmark hs hd
          rcases hmark with rfl | rfl <;> exact hend _
  | point hdigits =>
      have hfraction := span_digits hdigits.2 (endsDigits_exponent he)
      simp only [List.cons_append, hfraction]
      cases he with
      | absent => rfl
      | power hmark hs hd => exact isSome_power hmark hs hd _

theorem isDigit_of_isWhole {whole : List Char} (h : IsWhole whole) :
    ∃ d ds, whole = d :: ds ∧ d.isDigit = true ∧ ∀ c ∈ ds, c.isDigit = true := by
  cases h with
  | zero => exact ⟨'0', [], rfl, by decide, nofun⟩
  | @digits d ds _ hd =>
      exact ⟨d, ds, rfl, hd.2 d List.mem_cons_self, fun c hc => hd.2 c (List.mem_cons_of_mem d hc)⟩

theorem isDigits_of_isWhole (h : IsWhole whole) : IsDigits whole := by
  obtain ⟨d, ds, rfl, hd, hds⟩ := isDigit_of_isWhole h
  exact isDigits_cons hd hds

/-- No character of a number is the mark of another base. -/
theorem lowerLetter_ne_x {c : Char} (h : Json.isNumberChar c = true) : lowerLetter c ≠ 'x' := by
  simp only [Json.isNumberChar, Bool.or_eq_true, beq_iff_eq] at h
  rcases h with ((((hdigit | rfl) | rfl) | rfl) | rfl) | rfl
  · rw [lowerLetter_of_isDigit hdigit]
    rintro rfl
    exact absurd hdigit (by decide)
  all_goals decide

/-- A number of the grammar is a literal, its sign apart. -/
theorem isSome_parts? {token : List Char} (h : IsNumber token) :
    (parts? (splitSign token).2).isSome = true := by
  obtain ⟨hs, hw, hf, he⟩ := h
  rename_i sign whole fraction exponent
  have hread := isSome_readParts (isDigits_of_isWhole hw) hf he
  have hunsigned : IsNumber (whole ++ (fraction ++ exponent)) := .parts (.inl rfl) hw hf he
  have hsplit : (splitSign (sign ++ (whole ++ (fraction ++ exponent)))).2 =
      whole ++ (fraction ++ exponent) := by
    obtain ⟨d, ds, rfl, hd, -⟩ := isDigit_of_isWhole hw
    rcases hs with rfl | rfl
    · unfold splitSign
      split
      · rename_i h
        exact absurd hd ((List.cons.inj h).1 ▸ by decide)
      · rename_i h
        exact absurd hd ((List.cons.inj h).1 ▸ by decide)
      · rfl
    · rfl
  rw [hsplit]
  generalize whole ++ (fraction ++ exponent) = cs at hread hunsigned
  have hplain : cs.contains '_' = false := by
    rw [List.contains_eq_mem, decide_eq_false_iff_not]
    exact fun hmem => absurd (hunsigned.isNumberChar '_' hmem) (by decide)
  unfold parts?
  rw [hplain, Bool.false_and, if_neg Bool.false_ne_true]
  split
  · rename_i x c rest
    have hx : lowerLetter x ≠ 'x' := lowerLetter_ne_x (hunsigned.isNumberChar x (by simp))
    rw [beq_false_of_ne hx]
    exact hread
  · exact hread

/-- A number of the grammar that denotes no double is too large. -/
theorem literalFault_of_isNumber {token : List Char} (h : IsNumber token) :
    literalFault (String.ofList token) = .outOfRange := by
  rw [literalFault, String.toList_ofList, if_pos (isSome_parts? h)]

end

end Number
end Stepwise
