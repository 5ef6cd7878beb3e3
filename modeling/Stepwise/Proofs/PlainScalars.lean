import Stepwise.Proofs.NumberText
import Stepwise.Proofs.SettledReaders
import Stepwise.Yaml.Value

/-!
# What plain scalars mean

A plain scalar fits the tag that its own writing gives it, so it is never refused.

A whole number of JSON is written as digits after an optional minus. Read as a plain
scalar it is that number and nothing else: it is no word with a meaning, no date, and
no number in another base, because a zero in front of other digits is not allowed.
-/
namespace Stepwise

namespace Number

theorem splitBase_of_isWhole {whole : List Char} (h : Json.IsWhole whole) :
    splitBase whole = (10, whole) := by
  cases h with
  | zero => rfl
  | @digits d ds hd hdigits =>
      unfold splitBase
      split
      · rename_i he
        cases he
        exact absurd rfl hd
      · rename_i he
        cases he
        exact absurd rfl hd
      · rfl

theorem parseMarked?_of_isWhole {whole : List Char} (h : Json.IsWhole whole) :
    parseMarked? whole = some (digitsValue 10 whole) := by
  have hdigits : whole ≠ [] ∧ ∀ c ∈ whole, c.isDigit = true := by
    cases h with
    | zero => exact ⟨List.cons_ne_nil _ _, List.all_eq_true.mp rfl⟩
    | digits _ hd => exact hd
  have hall : (whole.all fun c => (digitValue? 10 c).isSome) = true :=
    List.all_eq_true.mpr fun c hc => digitValue?_ten (hdigits.2 c hc)
  rw [parseMarked?, splitBase_of_isWhole h]
  simp [digitsValue?, hdigits.1, hall]

end Number

namespace Json

def signedValue (sign whole : List Char) : Int :=
  if sign = [] then (Number.digitsValue 10 whole : Int) else -(Number.digitsValue 10 whole : Int)

/-- A whole number written in plain decimal, in the range of 64 bits with a sign. -/
inductive PlainInteger : String → Int → Prop
  | written {sign whole : List Char} : sign = [] ∨ sign = ['-'] → IsWhole whole →
      Number.fits64 (signedValue sign whole) = true →
      PlainInteger (String.ofList (sign ++ whole)) (signedValue sign whole)

end Json

namespace Yaml.Scalar
open Json (IsNumber IsWhole PlainInteger signedValue)

/-! ## The tag of a plain scalar -/

/-- A writing that is no timestamp means the same whether or not timestamps are looked for. -/
theorem ofWriting_false {text : String} (h : ∀ t, ofWriting true text ≠ .time t) :
    ofWriting false text = ofWriting true text := by
  unfold ofWriting at h ⊢
  cases hc : text.toList.head? with
  | none => rfl
  | some c =>
      simp only [hc, if_true, Bool.false_eq_true, if_false] at h ⊢
      split
      · rename_i hd
        simp only [hd, if_true] at h
        cases hw : words.lookup text with
        | some s => rfl
        | none =>
            cases ht : Timestamp.parse? text with
            | none => rfl
            | some t =>
                simp only [hw, ht] at h
                exact absurd rfl (h t)
      · rfl

theorem plainTag_eq {text : String} (h : text ≠ "<<") :
    plainTag text = (ofWriting true text).tag := by
  have hm : (text == "<<") = false := by simpa using h
  rw [plainTag, hm]
  rfl

/-- A scalar that is written like its tag means what it is written like. -/
theorem scalarValue?_of_ofWriting {t : Tag} {text : String} {s : Scalar} (ht : s.tag = t)
    (hstr : t ≠ .str) (hs : ofWriting (t == .timestamp) text = s) :
    scalarValue? t text = some s := by
  have hresolve : resolve? t text = some s := by
    unfold resolve?
    split
    · exact absurd rfl hstr
    · cases s <;> cases ht
    · cases s <;> cases ht
    · simp [hs, ht]
  have hbinary : (t == .binary) = false := by
    cases s <;> subst ht <;> rfl
  rw [scalarValue?, hbinary]
  exact hresolve

/-- A plain scalar fits the tag that its writing gives it. -/
theorem scalarValue?_plainTag (text : String) :
    scalarValue? (plainTag text) text = some (.text text) ∨
      scalarValue? (plainTag text) text = some (ofWriting true text) := by
  by_cases hm : text = "<<"
  · subst hm
    exact .inl rfl
  · rw [plainTag_eq hm]
    cases hs : ofWriting true text with
    | text s => exact .inl rfl
    | time t => exact .inr (scalarValue?_of_ofWriting rfl nofun hs)
    | null | bool | int | float | infinity | notANumber =>
        refine .inr (scalarValue?_of_ofWriting rfl nofun ((ofWriting_false fun t ht => ?_).trans hs))
        rw [hs] at ht
        cases ht
/-! ## Whole numbers -/

/-- Every word with a meaning holds a character that is neither a digit nor a minus. -/
theorem words_lookup_eq_none {text : String} (hne : text.toList ≠ [])
    (h : ∀ c ∈ text.toList, (c.isDigit || c == '-') = true) : words.lookup text = none := by
  rw [List.lookup_eq_none_iff]
  intro w hw
  have hwords : words.all (fun w => w.1.toList.isEmpty ||
      w.1.toList.any fun c => !(c.isDigit || c == '-')) = true := by decide
  have hword := List.all_eq_true.mp hwords w hw
  rw [bne_iff_ne]
  rintro rfl
  rw [Bool.or_eq_true] at hword
  rcases hword with hempty | hany
  · exact hne (by simpa using hempty)
  · obtain ⟨c, hc, hnot⟩ := List.any_eq_true.mp hany
    rw [h c hc] at hnot
    cases hnot

/-- A date has a minus after its year, where a number has a point or an exponent. -/
theorem parse?_of_isNumber {token : List Char} (h : IsNumber token) :
    Timestamp.parse? (String.ofList token) = none := by
  have hdate : Timestamp.readDate token = none := by
    cases h with
    | @parts sign whole fraction exponent hsign hwhole hf hx =>
        unfold Timestamp.readDate
        rcases hsign with rfl | rfl
        · obtain ⟨d, ds, rfl, hd, hds⟩ := Number.isDigit_of_isWhole hwhole
          have hdigits : ∀ c ∈ d :: ds, c.isDigit = true := by
            simpa using And.intro hd hds
          have hend : Json.Reader.DigitsEnd (fraction ++ exponent) := by
            rcases Json.Reader.head_of_fraction_exponent hf hx with hnil | ⟨c, cs, hcons, hc⟩
            · rw [hnil]
              exact nofun
            · rw [hcons]
              rintro _ _ ⟨⟩
              rcases hc with rfl | rfl | rfl <;> decide
          have hspan := Json.Reader.spanDigits_append hdigits hend
          rw [Json.spanDigits, List.span_eq_takeWhile_dropWhile, Prod.mk.injEq] at hspan
          rw [List.nil_append, hspan.1]
          by_cases hlen : (d :: ds).length = 4
          · have hdrop : (d :: ds ++ (fraction ++ exponent)).drop 4 = fraction ++ exponent := by
              rw [← hlen, List.drop_left]
            have hexpect : Timestamp.expect '-' (fraction ++ exponent) = none := by
              rcases Json.Reader.head_of_fraction_exponent hf hx with hnil | ⟨c, cs, hcons, hc⟩
              · rw [hnil]
                rfl
              · rw [hcons]
                rcases hc with rfl | rfl | rfl <;> rfl
            rw [hdrop, hexpect]
            exact ite_self _
          · have hbne : ((d :: ds).length != 4) = true := by simpa using hlen
            simp only [hbne, if_true]
        · rfl
  simp [Timestamp.parse?, hdate]

section
variable {sign whole : List Char} (hsign : sign = [] ∨ sign = ['-']) (hwhole : IsWhole whole)
include hsign hwhole

theorem signed_chars : ∀ c ∈ sign ++ whole, (c.isDigit || c == '-') = true := by
  obtain ⟨d, ds, rfl, hd, hds⟩ := Number.isDigit_of_isWhole hwhole
  intro c hc
  rcases List.mem_append.mp hc with hc | hc
  · rcases hsign with rfl | rfl
    · cases hc
    · rw [List.mem_singleton.mp hc]
      decide
  · rcases List.mem_cons.mp hc with rfl | hc
    · simp [hd]
    · simp [hds c hc]

theorem isNumber_signed : IsNumber (sign ++ whole) := by
  simpa using IsNumber.parts hsign hwhole .absent .absent

theorem markedInt?_signed (hfits : Number.fits64 (signedValue sign whole) = true) :
    markedInt? (sign ++ whole) = some (signedValue sign whole) := by
  have hmarked := Number.parseMarked?_of_isWhole hwhole
  rcases hsign with rfl | rfl
  · obtain ⟨d, ds, rfl, hd, -⟩ := Number.isDigit_of_isWhole hwhole
    have hsplit : Number.splitSign (d :: ds) = (false, d :: ds) := by
      unfold Number.splitSign
      split
      · rename_i he
        cases he
        cases hd
      · rename_i he
        cases he
        cases hd
      · rfl
    rw [List.nil_append, markedInt?, hsplit]
    simp only [hmarked]
    simp only [signedValue, if_true] at hfits ⊢
    simp [inSigned, hfits]
  · rw [List.singleton_append, markedInt?, Number.splitSign]
    simp only [hmarked, if_true]
    simp only [signedValue, List.cons_ne_nil, if_false] at hfits ⊢
    simp [inSigned, hfits]

theorem ofWriting_signed (hfits : Number.fits64 (signedValue sign whole) = true) (times : Bool) :
    ofWriting times (String.ofList (sign ++ whole)) = .int (signedValue sign whole) := by
  have hchars := signed_chars hsign hwhole
  have hne : sign ++ whole ≠ [] := by
    obtain ⟨d, ds, rfl, -, -⟩ := Number.isDigit_of_isWhole hwhole
    simp
  have hwords : words.lookup (String.ofList (sign ++ whole)) = none :=
    words_lookup_eq_none (by simpa using hne) (by simpa using hchars)
  have hplain : (sign ++ whole).filter (· != '_') = sign ++ whole := by
    rw [List.filter_eq_self]
    intro c hc
    have hd := hchars c hc
    rw [bne_iff_ne]
    rintro rfl
    exact absurd hd (by decide)
  have hnumber : number? (String.ofList (sign ++ whole)) = some (.int (signedValue sign whole)) := by
    rw [number?, String.toList_ofList, hplain, markedInt?_signed hsign hwhole hfits]
  have htime : (if times then Timestamp.parse? (String.ofList (sign ++ whole)) else none) = none := by
    rw [parse?_of_isNumber (isNumber_signed hsign hwhole), ite_self]
  obtain ⟨c, cs, hcons⟩ := List.exists_cons_of_ne_nil hne
  have hc : (c.isDigit || c == '+' || c == '-') = true := by
    have hd := hchars c (by rw [hcons]; exact List.mem_cons_self)
    rw [Bool.or_eq_true] at hd
    rcases hd with hd | hd <;> simp [hd]
  rw [ofWriting]
  simp only [String.toList_ofList, hcons, List.head?_cons]
  rw [← hcons]
  simp only [hc, if_true, hwords, htime, hnumber, Option.getD_some]

end

theorem plainTag_of_plainInteger {text : String} {n : Int} (h : PlainInteger text n) :
    plainTag text = .int := by
  cases h with
  | @written sign whole hsign hwhole hfits =>
      have hmerge : (String.ofList (sign ++ whole) == "<<") = false := by
        rw [beq_eq_false_iff_ne]
        intro he
        have hchars := signed_chars hsign hwhole
        have hlist := congrArg String.toList he
        rw [String.toList_ofList] at hlist
        rw [hlist] at hchars
        exact absurd (hchars '<' (by decide)) (by decide)
      rw [plainTag, hmerge, ofWriting_signed hsign hwhole hfits]
      rfl

theorem scalarValue?_of_plainInteger {text : String} {n : Int} (h : PlainInteger text n) :
    scalarValue? .int text = some (.int n) := by
  cases h with
  | written hsign hwhole hfits =>
      exact scalarValue?_of_ofWriting rfl nofun (ofWriting_signed hsign hwhole hfits false)

end Yaml.Scalar
end Stepwise
