import Stepwise.Json.Stream
import Stepwise.Proofs.SettledReaders

/-!
# Values in a stream

A stream is cut into its values by brackets and quotes. As long as it is made of values of
the grammar, each of them is cut off as it is written, with the white space before it left
out, and the one after it is looked for where it ends.

After the last of these values there are two ways to end a stream. White space alone ends it
in order. A stream is broken where something stands that is no white space and no value ends
in it: there is no character that can begin a value, or the value that begins there is cut
off.
-/
namespace Stepwise.Json

/-- A stream of values with white space before each of them, and what comes after the last
one. A number is ended by what follows it. -/
inductive StreamOf (tail : List Char) : List (List Char) → List Char → Prop
  | nil : StreamOf tail [] tail
  | cons {depth : Nat} {w token rest : List Char} {tokens : List (List Char)} : Blank w →
      IsValue depth token → depth ≤ maxDepth → (IsNumber token → Ends rest) →
      StreamOf tail tokens rest → StreamOf tail (token :: tokens) (w ++ (token ++ rest))

/-- The end of a broken stream: it is not white space alone, and from the first character
that can begin a value on no value ends. -/
structure Unfinished (cs : List Char) : Prop where
  notNul : ∀ c ∈ cs, c.toNat ≠ 0
  notBlank : ¬Blank cs
  noValue : spanWithin maxDepth (cs.dropWhile fun c => !startsValue c) = none

/-! ## The next value -/

theorem startsValue_eq_false_of_isSpace {c : Char} (h : isSpace c = true) :
    startsValue c = false := by
  simp only [isSpace, Bool.or_eq_true, beq_iff_eq] at h
  rcases h with ((rfl | rfl) | rfl) | rfl <;> decide

theorem IsValue.startsValue {depth : Nat} {token : List Char} (h : IsValue depth token) :
    ∃ c cs, token = c :: cs ∧ Json.startsValue c = true := by
  cases h with
  | word hw =>
      simp only [List.mem_cons, List.not_mem_nil, or_false] at hw
      rcases hw with rfl | rfl | rfl <;> exact ⟨_, _, rfl, by decide⟩
  | number hn =>
      obtain ⟨c, cs, rfl, hc⟩ := hn.head
      rw [Bool.or_eq_true] at hc
      refine ⟨c, cs, rfl, ?_⟩
      rcases hc with hc | hc <;> simp [Json.startsValue, hc]
  | string hs =>
      obtain ⟨cs, rfl⟩ := hs.head
      exact ⟨_, _, rfl, by decide⟩
  | _ => exact ⟨_, _, rfl, by decide⟩

theorem nextItem_blank {cs : List Char} (h : Blank cs) : nextItem cs = .done .finished := by
  have hskip : skipSpace cs = [] := List.dropWhile_eq_nil_iff.mpr h
  rw [nextItem, hskip]

/-- A value of the grammar stands next. -/
theorem nextItem_value {depth : Nat} {w token rest : List Char} (hw : Blank w)
    (hv : IsValue depth token) (hd : depth ≤ maxDepth) (hr : IsNumber token → Ends rest) :
    nextItem (w ++ (token ++ rest)) = .value token rest := by
  have hspan := hv.spanWithin_append hd hr
  have hskip := hv.skipSpace_append rest
  obtain ⟨c, cs, rfl, hc⟩ := hv.startsValue
  have hmark : (c == ',' || c == ':') = false := by
    rw [Bool.or_eq_false_iff, beq_eq_false_iff_ne, beq_eq_false_iff_ne]
    constructor <;> rintro rfl <;> exact absurd hc (by decide)
  rw [nextItem, hw.skipSpace_append, hskip]
  simp only [List.cons_append, hmark, Bool.false_eq_true, if_false]
  rw [List.cons_append] at hspan
  rw [nextValue, List.takeWhile_cons_of_neg (by simp [hc]), List.dropWhile_cons_of_neg (by simp [hc]),
    hspan]
  rfl

theorem dropWhile_startsValue {c : Char} (h : startsValue c = false) (cs : List Char) :
    ((c :: cs).dropWhile fun c => !startsValue c) = cs.dropWhile fun c => !startsValue c :=
  List.dropWhile_cons_of_pos (by simp [h])

theorem dropWhile_skipSpace (cs : List Char) :
    ((skipSpace cs).dropWhile fun c => !startsValue c) =
      cs.dropWhile fun c => !startsValue c := by
  induction cs with
  | nil => rfl
  | cons c cs ih =>
      cases hc : isSpace c with
      | true =>
          have hskip : skipSpace (c :: cs) = skipSpace cs := List.dropWhile_cons_of_pos hc
          rw [hskip, ih, dropWhile_startsValue (startsValue_eq_false_of_isSpace hc)]
      | false => rw [skipSpace_cons hc]

theorem Unfinished.nextItem {cs : List Char} (h : Unfinished cs) :
    Json.nextItem cs = .done .broken := by
  have hvalue := h.noValue
  rw [← dropWhile_skipSpace] at hvalue
  have hbroken : ∀ ds, spanWithin maxDepth (ds.dropWhile fun c => !startsValue c) = none →
      nextValue ds = .done .broken := by
    intro ds hds
    rw [nextValue, hds]
  rw [Json.nextItem]
  cases hskip : skipSpace cs with
  | nil => exact absurd (List.dropWhile_eq_nil_iff.mp hskip) h.notBlank
  | cons c rest =>
      rw [hskip] at hvalue
      dsimp only
      split
      · rename_i hmark
        refine hbroken rest ?_
        rw [Bool.or_eq_true, beq_iff_eq, beq_iff_eq] at hmark
        have hc : startsValue c = false := by
          rcases hmark with rfl | rfl <;> decide
        rwa [dropWhile_startsValue hc] at hvalue
      · exact hbroken _ hvalue

/-! ## The whole stream -/

namespace StreamOf
variable {tail input : List Char} {tokens : List (List Char)}

theorem notNul (h : StreamOf tail tokens input) (ht : ∀ c ∈ tail, c.toNat ≠ 0) :
    ∀ c ∈ input, c.toNat ≠ 0 := by
  induction h with
  | nil => exact ht
  | cons hw hv _ _ _ ih =>
      simp only [List.forall_mem_append]
      exact ⟨(hw.balanced : Balanced 0 _).notNul, hv.balanced.notNul, ih⟩

theorem isValue_texts (h : StreamOf tail tokens input) :
    ∀ t ∈ tokens.map String.ofList, ∃ depth, IsValue depth t.toList ∧ depth ≤ maxDepth := by
  rw [List.forall_mem_map]
  induction h with
  | nil => exact nofun
  | cons _ hv hd _ _ ih =>
      refine List.forall_mem_cons.mpr ⟨⟨_, ?_, hd⟩, ih⟩
      rwa [String.toList_ofList]

theorem streamFrom_eq (h : StreamOf tail tokens input) {how : StreamEnd}
    (hend : nextItem tail = .done how) {fuel : Nat} (hf : input.length < fuel) :
    streamFrom fuel input = (tokens.map String.ofList, how) := by
  induction h generalizing fuel with
  | nil =>
      obtain ⟨fuel, rfl⟩ : ∃ k, fuel = k + 1 := ⟨fuel - 1, by omega⟩
      rw [streamFrom, hend]
      rfl
  | @cons depth w token rest tokens hw hv hd hr _ ih =>
      obtain ⟨fuel, rfl⟩ : ∃ k, fuel = k + 1 := ⟨fuel - 1, by omega⟩
      obtain ⟨c, cs, hcons, -⟩ := hv.startsValue
      have hlength : rest.length < fuel := by
        simp only [hcons, List.length_append, List.length_cons] at hf
        omega
      rw [streamFrom, nextItem_value hw hv hd hr]
      simp only [ih hlength, List.map_cons]

theorem stream_eq {text : String} (h : StreamOf tail tokens text.toList) {how : StreamEnd}
    (ht : ∀ c ∈ tail, c.toNat ≠ 0) (hend : nextItem tail = .done how) :
    stream text = (tokens.map String.ofList, how) := by
  rw [stream, upToNul_of_notNul (h.notNul ht)]
  exact h.streamFrom_eq hend (Nat.lt_succ_self _)

end StreamOf

/-! ## Values that are cut off -/

/-- An extent that starts with more characters than another grows with it. -/
theorem extent_map_more {f : List Char → List Char} {x y : Option Extent} {s rest more : List Char}
    (h : x.map (fun (t, r) => (f t, r)) = some (s, rest))
    (hxy : ∀ {t}, x = some (t, rest) → y = some (t, rest ++ more)) :
    y.map (fun (t, r) => (f t, r)) = some (s, rest ++ more) := by
  obtain ⟨⟨t, r⟩, hx, he⟩ := Option.map_eq_some_iff.mp h
  obtain ⟨rfl, rfl⟩ := Prod.mk.inj he
  rw [hxy hx]
  rfl

theorem restOfString_more {cs s rest : List Char} (h : restOfString cs = some (s, rest))
    (more : List Char) : restOfString (cs ++ more) = some (s, rest ++ more) := by
  induction cs using restOfString.induct generalizing s with
  | case1 => cases h
  | case2 cs =>
      cases h
      rfl
  | case3 c cs ih =>
      rw [restOfString] at h
      exact extent_map_more (f := fun t => '\\' :: c :: t) h ih
  | case4 c cs hq hb hc =>
      rw [restOfString.eq_4 _ _ hq hb, if_pos hc] at h
      cases h
  | case5 c cs hq hb hc ih =>
      rw [beq_iff_eq] at hc
      have hstep : ∀ ds, restOfString (c :: ds) =
          (restOfString ds).map fun (s, rest) => (c :: s, rest) := by
        intro ds
        rw [restOfString, if_neg (by simpa using hc)]
        · exact hq
        · exact fun _ _ he => absurd he hc
      rw [hstep] at h
      rw [List.cons_append, hstep]
      exact extent_map_more (f := fun t => c :: t) h ih

theorem restOfNested_more {opening closing : Char} {depth : Nat} {inString : Bool}
    {cs s rest : List Char} (h : restOfNested opening closing depth inString cs = some (s, rest))
    (more : List Char) :
    restOfNested opening closing depth inString (cs ++ more) = some (s, rest ++ more) := by
  induction depth, inString, cs using
      restOfNested.induct opening closing generalizing s with
  | case1 => cases h
  | case2 depth c cs ih =>
      rw [restOfNested_pair] at h
      rw [List.cons_append, List.cons_append, restOfNested_pair]
      exact extent_map_more (f := fun t => '\\' :: c :: t) h ih
  | case3 => cases h
  | case4 depth c cs hpair hlone ih =>
      have hb : c ≠ '\\' := by
        rintro rfl
        cases cs with
        | nil => exact hlone rfl rfl
        | cons d cs => exact hpair d cs rfl rfl
      rw [restOfNested_inString hb] at h
      rw [List.cons_append, restOfNested_inString hb]
      exact extent_map_more (f := fun t => c :: t) h ih
  | case5 inString c cs hin hc =>
      rw [Bool.not_eq_true] at hin
      subst hin
      rw [beq_iff_eq] at hc
      subst hc
      rw [restOfNested_end] at h
      rw [List.cons_append, restOfNested_end]
      cases h
      rfl
  | case6 inString c cs hin hc depth ih =>
      rw [Bool.not_eq_true] at hin
      subst hin
      rw [beq_iff_eq] at hc
      subst hc
      rw [restOfNested_close] at h
      rw [List.cons_append, restOfNested_close]
      exact extent_map_more (f := fun t => c :: t) h ih
  | case7 depth inString c cs hin hc deeper =>
      rename_i ih
      rw [Bool.not_eq_true] at hin
      subst hin
      rw [beq_iff_eq] at hc
      rw [restOfNested_outside hc] at h
      rw [List.cons_append, restOfNested_outside hc]
      exact extent_map_more (f := fun t => c :: t) h ih

/-- A value in brackets or quotes that ends in a text ends there in every longer text. -/
theorem spanValue_more {c : Char} (hc : c ∈ ['\x7b', '[', '"']) {cs s rest : List Char}
    (h : spanValue (c :: cs) = some (s, rest)) (more : List Char) :
    spanValue (c :: (cs ++ more)) = some (s, rest ++ more) := by
  simp only [List.mem_cons, List.not_mem_nil, or_false] at hc
  rcases hc with rfl | rfl | rfl
  · exact extent_map_more (f := fun t => '\x7b' :: t) h fun ht => restOfNested_more ht more
  · exact extent_map_more (f := fun t => '[' :: t) h fun ht => restOfNested_more ht more
  · exact extent_map_more (f := fun t => '"' :: t) h fun ht => restOfString_more ht more

theorem unfinished_of_start {w cs : List Char} {c : Char} (hw : Blank w)
    (hc : startsValue c = true) (hnul : ∀ d ∈ c :: cs, d.toNat ≠ 0)
    (h : spanWithin maxDepth (c :: cs) = none) : Unfinished (w ++ c :: cs) := by
  refine ⟨?_, ?_, ?_⟩
  · exact List.forall_mem_append.mpr ⟨(hw.balanced : Balanced 0 w).notNul, hnul⟩
  · intro hblank
    have hspace := startsValue_eq_false_of_isSpace (hblank c (by simp))
    rw [hc] at hspace
    cases hspace
  · have hdrop : (w ++ c :: cs).dropWhile (fun c => !startsValue c) = c :: cs := by
      rw [List.dropWhile_append_of_pos fun d hd => by
        rw [startsValue_eq_false_of_isSpace (hw d hd)]; rfl]
      exact List.dropWhile_cons_of_neg (by simp [hc])
    rw [hdrop, h]

/-- A value that is nested too deep breaks a stream. -/
theorem unfinished_of_deep {depth : Nat} {w token rest : List Char} (hw : Blank w)
    (hv : IsValue depth token) (hn : nestsWithin maxDepth false token = false) (hr : Ends rest)
    (hnul : ∀ c ∈ rest, c.toNat ≠ 0) : Unfinished (w ++ (token ++ rest)) := by
  have hspan := Reader.spanWithin_eq_none hv hn hr
  have hall : ∀ d ∈ token ++ rest, d.toNat ≠ 0 :=
    List.forall_mem_append.mpr ⟨hv.balanced.notNul, hnul⟩
  obtain ⟨c, cs, rfl, hc⟩ := hv.startsValue
  exact unfinished_of_start hw hc hall hspan

/-- A value in brackets or quotes that is cut off before its end breaks a stream. -/
theorem unfinished_of_cut {depth : Nat} {w cs more : List Char} {c : Char}
    (hc : c ∈ ['\x7b', '[', '"']) (hw : Blank w) (hv : IsValue depth (c :: (cs ++ more)))
    (hmore : more ≠ []) : Unfinished (w ++ c :: cs) := by
  have hstart : startsValue c = true := by
    simp only [List.mem_cons, List.not_mem_nil, or_false] at hc
    rcases hc with rfl | rfl | rfl <;> decide
  have hspan : spanValue (c :: cs) = none := by
    cases hspan : spanValue (c :: cs) with
    | none => rfl
    | some p =>
        obtain ⟨s, rest⟩ := p
        have hlonger := spanValue_more hc hspan more
        have hwhole := hv.spanValue_append fun _ => ends_nil
        rw [List.append_nil, hlonger, Option.some.injEq, Prod.mk.injEq] at hwhole
        exact absurd (List.append_eq_nil_iff.mp hwhole.2).2 hmore
  have hall := hv.balanced.notNul
  rw [← List.cons_append, List.forall_mem_append] at hall
  exact unfinished_of_start hw hstart hall.1 (by rw [spanWithin, hspan])

end Stepwise.Json
