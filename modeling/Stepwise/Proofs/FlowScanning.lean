import Stepwise.Proofs.FlowScalars
import Stepwise.Yaml.Scanner

/-!
# The scanner on one line

A text on one line without blocks keeps the scanner in a small part of its states: it
stands at a column of the first line, the possible keys need not be keys, and every
step adds the token at that column. What a step adds in front of earlier tokens is a
key mark: the colon after a name puts it before the name, if the name began at most
1024 characters before.
-/
namespace Stepwise.Yaml

open Json (quote)

namespace Scanner

/-- The scanner on the first line of a text that has no blocks. -/
def onLine (rest : List Char) (column : Nat) (kinds : List TokenKind) (flow : Nat)
    (keyAllowed : Bool) (keys : List (Option PossibleKey)) : Scanner :=
  ⟨⟨rest, place column⟩, (kinds.map fun kind => Token.mk kind 0).toArray, flow, -1, [],
    keyAllowed, keys⟩

/-- A token starts right here, or the text ends. -/
def StartsToken (rest : List Char) : Prop :=
  ∀ c cs, rest = c :: cs → isBlank c = false ∧ isBreak c = false ∧ c ≠ '#'

/-- The possible key of a level need not be a key. -/
def Optional (key : Option PossibleKey) : Prop :=
  ∀ k, key = some k → k.required = false

/-- The possible key of a level once a token starts there. -/
def keyFrom (keyAllowed : Bool) (column : Nat) (kinds : List TokenKind)
    (key : Option PossibleKey) : Option PossibleKey :=
  if keyAllowed then some ⟨false, kinds.length, place column⟩ else key

theorem optional_none : Optional none := nofun

theorem optional_keyFrom {keyAllowed : Bool} {column : Nat} {kinds : List TokenKind}
    {key : Option PossibleKey} (h : Optional key) :
    Optional (keyFrom keyAllowed column kinds key) := by
  intro k hk
  unfold keyFrom at hk
  split at hk
  · obtain rfl := Option.some.inj hk
    rfl
  · exact h k hk

section
variable {rest : List Char} {k : Nat} {kinds : List TokenKind} {flow : Nat} {keyAllowed : Bool}
  {key : Option PossibleKey} {keys : List (Option PossibleKey)}

theorem push_onLine (kind : TokenKind) (m : Nat) :
    (onLine rest k kinds flow keyAllowed keys).push kind (place m) =
      onLine rest k (kinds ++ [kind]) flow keyAllowed keys := by
  simp [push, onLine, place]

theorem skipWhile_startsToken {p : Char → Bool} (hp : ∀ c, isBlank c = false → p c = false)
    (h : StartsToken rest) (mark : Mark) :
    (Input.mk rest mark).skipWhile p = ⟨rest, mark⟩ := by
  cases rest with
  | nil => rfl
  | cons c cs => simp [Input.skipWhile, hp c (h c cs rfl).1, Input.skipMany]

theorem isAt_hash (h : StartsToken rest) (mark : Mark) :
    (Input.mk rest mark).isAt '#' = false := by
  cases rest with
  | nil => rfl
  | cons c cs => simp [Input.isAt, (h c cs rfl).2.2]

theorem skipLineComment_onLine (h : StartsToken rest) :
    (onLine rest k kinds flow keyAllowed keys).skipLineComment =
      onLine rest k kinds flow keyAllowed keys := by
  have hskip : (Input.mk rest (place k)).skipWhile isBlank = ⟨rest, place k⟩ :=
    skipWhile_startsToken (fun _ hc => hc) h (place k)
  rw [skipLineComment]
  simp only [onLine, hskip, isAt_hash h, Bool.false_eq_true, if_false]

theorem unroll_onLine (column : Int) (mark : Mark) :
    (onLine rest k kinds flow keyAllowed keys).unroll column mark =
      onLine rest k kinds flow keyAllowed keys := by
  rw [unroll]
  split
  · rfl
  · rfl

theorem skipToToken_onLine (h : StartsToken rest) (fuel : Nat) :
    skipToToken fuel (onLine rest k kinds flow keyAllowed keys) =
      onLine rest k kinds flow keyAllowed keys := by
  cases fuel with
  | zero => rfl
  | succ fuel =>
      have hskip : ∀ tabs : Bool, (Input.mk rest (place k)).skipWhile
          (fun c => c == ' ' || (tabs && c == '\t')) = ⟨rest, place k⟩ := by
        intro tabs
        refine skipWhile_startsToken (fun c hc => ?_) h (place k)
        simp only [isBlank, Bool.or_eq_false_iff] at hc
        simp [hc]
      rw [skipToToken]
      simp only [onLine, hskip, isAt_hash h, Bool.false_eq_true, if_false]
      cases rest with
      | nil => rfl
      | cons c cs =>
          simp only [Input.next?, List.head?_cons, (h c cs rfl).2.1, Bool.false_eq_true, if_false]

/-- In front of a token nothing is passed over. -/
theorem fetch_onLine {c : Char} (h : StartsToken (c :: rest)) :
    (onLine (c :: rest) k kinds flow keyAllowed keys).fetch =
      (onLine (c :: rest) k kinds flow keyAllowed keys).fetchAt c := by
  rw [fetch]
  simp only [skipToToken_onLine h, unroll_onLine]
  rfl

theorem dropKey_onLine (h : Optional key) :
    (onLine rest k kinds flow keyAllowed (key :: keys)).dropKey =
      .ok (onLine rest k kinds flow keyAllowed (none :: keys)) := by
  cases key with
  | none => rfl
  | some p =>
      rw [dropKey]
      simp only [onLine, currentKey, h p rfl, Bool.false_eq_true, if_false]
      rfl

theorem saveKey_onLine (h : Optional key) :
    (onLine rest k kinds flow keyAllowed (key :: keys)).saveKey =
      .ok (onLine rest k kinds flow keyAllowed (keyFrom keyAllowed k kinds key :: keys)) := by
  unfold keyFrom
  cases keyAllowed with
  | false => rfl
  | true =>
      have hindent : ((-1 : Int) == (k : Int)) = false := by
        rw [beq_eq_false_iff_ne]
        omega
      rw [saveKey]
      simp only [onLine, if_true]
      rw [← onLine, dropKey_onLine h]
      simp [onLine, setKey, bind, Except.bind, pure, Except.pure, place, hindent]

theorem fetchFlowStart_onLine {c : Char} (kind : TokenKind) (hf : flow < maxDepth)
    (ho : Optional key) :
    (onLine (c :: rest) k kinds flow keyAllowed (key :: keys)).fetchFlowStart kind =
      .ok (onLine rest (k + 1) (kinds ++ [kind]) (flow + 1) true
        (none :: keyFrom keyAllowed k kinds key :: keys)) := by
  have hdeep : ¬maxDepth ≤ flow := Nat.not_le.mpr hf
  rw [fetchFlowStart, saveKey_onLine ho]
  simp only [bind, Except.bind, pure, Except.pure]
  rw [← push_onLine kind k]
  simp only [onLine, hdeep, if_false, skip_cons]

theorem fetchFlowEnd_onLine {c : Char} (kind : TokenKind) (ho : Optional key) :
    (onLine (c :: rest) k kinds (flow + 1) keyAllowed (key :: keys)).fetchFlowEnd kind =
      .ok (onLine rest (k + 1) (kinds ++ [kind]) flow false keys) := by
  rw [fetchFlowEnd, dropKey_onLine ho]
  simp only [bind, Except.bind, pure, Except.pure]
  rw [← push_onLine kind k]
  simp only [onLine, Nat.succ_pos, if_true, skip_cons, Nat.add_sub_cancel, List.drop_succ_cons,
    List.drop_zero]

theorem fetch_open {c : Char} {kind : TokenKind}
    (hc : (c, kind) ∈ [('[', .flowSequenceStart), ('\x7b', .flowMappingStart)])
    (hf : flow < maxDepth) (hr : StartsToken rest) (ho : Optional key) :
    (onLine (c :: rest) k kinds flow keyAllowed (key :: keys)).fetch =
      .ok (onLine rest (k + 1) (kinds ++ [kind]) (flow + 1) true
        (none :: keyFrom keyAllowed k kinds key :: keys)) := by
  simp only [List.mem_cons, List.not_mem_nil, or_false, Prod.mk.injEq] at hc
  rcases hc with ⟨rfl, rfl⟩ | ⟨rfl, rfl⟩
  · rw [fetch_onLine (by rintro d ds he; cases he; decide)]
    have hat : (onLine ('[' :: rest) k kinds flow keyAllowed (key :: keys)).fetchAt '[' =
        ((onLine ('[' :: rest) k kinds flow keyAllowed (key :: keys)).fetchFlowStart
          .flowSequenceStart).map skipLineComment := by
      simp [fetchAt, onLine, Input.isAtMarker, Input.ahead?]
    rw [hat, fetchFlowStart_onLine _ hf ho, Except.map, skipLineComment_onLine hr]
  · rw [fetch_onLine (by rintro d ds he; cases he; decide)]
    have hat : (onLine ('\x7b' :: rest) k kinds flow keyAllowed (key :: keys)).fetchAt '\x7b' =
        ((onLine ('\x7b' :: rest) k kinds flow keyAllowed (key :: keys)).fetchFlowStart
          .flowMappingStart).map skipLineComment := by
      simp [fetchAt, onLine, Input.isAtMarker, Input.ahead?]
    rw [hat, fetchFlowStart_onLine _ hf ho, Except.map, skipLineComment_onLine hr]

theorem fetch_close {c : Char} {kind : TokenKind}
    (hc : (c, kind) ∈ [(']', .flowSequenceEnd), ('\x7d', .flowMappingEnd)])
    (hr : StartsToken rest) (ho : Optional key) :
    (onLine (c :: rest) k kinds (flow + 1) keyAllowed (key :: keys)).fetch =
      .ok (onLine rest (k + 1) (kinds ++ [kind]) flow false keys) := by
  simp only [List.mem_cons, List.not_mem_nil, or_false, Prod.mk.injEq] at hc
  rcases hc with ⟨rfl, rfl⟩ | ⟨rfl, rfl⟩
  · rw [fetch_onLine (by rintro d ds he; cases he; decide)]
    have hat : (onLine (']' :: rest) k kinds (flow + 1) keyAllowed (key :: keys)).fetchAt ']' =
        ((onLine (']' :: rest) k kinds (flow + 1) keyAllowed (key :: keys)).fetchFlowEnd
          .flowSequenceEnd).map skipLineComment := by
      simp [fetchAt, onLine, Input.isAtMarker, Input.ahead?]
    rw [hat, fetchFlowEnd_onLine _ ho, Except.map, skipLineComment_onLine hr]
  · rw [fetch_onLine (by rintro d ds he; cases he; decide)]
    have hat : (onLine ('\x7d' :: rest) k kinds (flow + 1) keyAllowed (key :: keys)).fetchAt
        '\x7d' = ((onLine ('\x7d' :: rest) k kinds (flow + 1) keyAllowed (key :: keys)).fetchFlowEnd
          .flowMappingEnd).map skipLineComment := by
      simp [fetchAt, onLine, Input.isAtMarker, Input.ahead?]
    rw [hat, fetchFlowEnd_onLine _ ho, Except.map, skipLineComment_onLine hr]

theorem fetch_comma (hr : StartsToken rest) (ho : Optional key) :
    (onLine (',' :: rest) k kinds flow keyAllowed (key :: keys)).fetch =
      .ok (onLine rest (k + 1) (kinds ++ [.flowEntry]) flow true (none :: keys)) := by
  rw [fetch_onLine (by rintro d ds he; cases he; decide)]
  have hat : (onLine (',' :: rest) k kinds flow keyAllowed (key :: keys)).fetchAt ',' =
      (onLine (',' :: rest) k kinds flow keyAllowed (key :: keys)).fetchFlowEntry.map
        skipLineComment := by
    simp [fetchAt, onLine, Input.isAtMarker, Input.ahead?]
  rw [hat, fetchFlowEntry, dropKey_onLine ho]
  simp only [bind, Except.bind, pure, Except.pure, Except.map]
  rw [← skipLineComment_onLine hr, ← push_onLine .flowEntry k]
  rfl

theorem fetch_string {text : String} (hn : '\u0085' ∉ text.toList) (hr : StartsToken rest)
    (ho : Optional key) :
    (onLine ((quote text).toList ++ rest) k kinds flow keyAllowed (key :: keys)).fetch =
      .ok (onLine rest (k + (quote text).toList.length) (kinds ++ [.scalar .doubleQuoted text])
        flow false (keyFrom keyAllowed k kinds key :: keys)) := by
  have hread := readQuoted_quote hn rest k
  rw [quote_toList, List.cons_append] at hread ⊢
  rw [fetch_onLine (by rintro d ds he; cases he; decide)]
  generalize text.toList.flatMap Json.escapeChar ++ ['"'] ++ rest = body at hread ⊢
  have hat : (onLine ('"' :: body) k kinds flow keyAllowed (key :: keys)).fetchAt '"' =
      ((onLine ('"' :: body) k kinds flow keyAllowed (key :: keys)).fetchQuoted false).map
        skipLineComment := by
    simp [fetchAt, onLine, Input.isAtMarker, Input.ahead?]
  rw [hat, fetchQuoted, saveKey_onLine ho]
  simp only [bind, Except.bind, pure, Except.pure, Except.map]
  rw [← skipLineComment_onLine hr, ← push_onLine (.scalar .doubleQuoted text) k]
  simp only [onLine, hread]
  rfl

/-- A plain scalar that starts with a letter, a digit, or a minus before a digit. -/
inductive IsPlainWord : List Char → Prop
  | letter {c : Char} {cs : List Char} : c.isAlphanum = true →
      (∀ d ∈ c :: cs, isPlainChar d = true) → IsPlainWord (c :: cs)
  | negative {d : Char} {cs : List Char} : d.isDigit = true →
      (∀ e ∈ '-' :: d :: cs, isPlainChar e = true) → IsPlainWord ('-' :: d :: cs)

theorem IsPlainWord.isPlainChar {word : List Char} (h : IsPlainWord word) :
    ∀ c ∈ word, isPlainChar c = true := by
  cases h with
  | letter _ hw => exact hw
  | negative _ hw => exact hw

theorem IsPlainWord.ne_nil {word : List Char} (h : IsPlainWord word) : word ≠ [] := by
  cases h <;> exact nofun

theorem startsToken_of_plain {c : Char} (h : Yaml.isPlainChar c = true) :
    StartsToken (c :: rest) := by
  intro d ds he
  obtain ⟨rfl, -⟩ := List.cons.inj he
  simp only [Yaml.isPlainChar, Bool.not_eq_true', Bool.or_eq_false_iff, beq_eq_false_iff_ne] at h
  exact ⟨h.1.1.1.1, h.1.1.1.2, h.2⟩

theorem fetchAt_plain {word : List Char} (h : IsPlainWord word) (hk : 0 < k) {c : Char}
    {cs : List Char} (hword : word = c :: cs) :
    (onLine (word ++ rest) k kinds flow keyAllowed keys).fetchAt c =
      (onLine (word ++ rest) k kinds flow keyAllowed keys).fetchPlain := by
  have hmarker : ∀ cs d, (Input.mk cs (place k)).isAtMarker d = false :=
    isAtMarker_of_column hk
  cases h with
  | @letter e es hc _ =>
      obtain ⟨rfl, rfl⟩ := List.cons.inj hword
      have hne : ∀ d : Char, d.isAlphanum = false → e ≠ d := by
        rintro d hd rfl
        rw [hd] at hc
        cases hc
      have hblank : isBlank e = false := by
        simp [isBlank, hne ' ' rfl, hne '\t' rfl]
      have hgrave : e.toNat ≠ 0x60 := by
        intro he
        exact hne (Char.ofNat 0x60) rfl (by rw [← he, Char.ofNat_toNat])
      simp [fetchAt, onLine, hmarker, hne '%' rfl, hne '[' rfl, hne '\x7b' rfl, hne ']' rfl,
        hne '\x7d' rfl, hne ',' rfl, hne '-' rfl, hne '?' rfl, hne ':' rfl, hne '*' rfl,
        hne '&' rfl, hne '!' rfl, hne '|' rfl, hne '>' rfl, hne '\'' rfl, hne '"' rfl,
        startsPlain, hne '#' rfl, hne '@' rfl, hblank, hgrave]
  | @negative d es hd _ =>
      obtain ⟨rfl, rfl⟩ := List.cons.inj hword
      have hne : ∀ x : Char, x.isDigit = false → d ≠ x := by
        rintro x hx rfl
        rw [hx] at hd
        cases hd
      have hblank : isBlank d = false := by
        simp [isBlank, hne ' ' rfl, hne '\t' rfl]
      have hbreak : isBreak d = false := by
        simp [isBreak, hne '\n' rfl, hne '\r' rfl, hne '\u0085' rfl, hne '\u2028' rfl,
          hne '\u2029' rfl]
      simp [fetchAt, onLine, hmarker, Input.ahead?, isBlankOrEnd, hblank, hbreak, startsPlain]

theorem fetch_plain {word : List Char} (h : IsPlainWord word) (hr : Closes rest) (hk : 0 < k)
    (hf : 0 < flow) (ho : Optional key) :
    (onLine (word ++ rest) k kinds flow keyAllowed (key :: keys)).fetch =
      .ok (onLine rest (k + word.length) (kinds ++ [.scalar .plain (String.ofList word)]) flow
        false (keyFrom keyAllowed k kinds key :: keys)) := by
  have hread := readPlain_append h.ne_nil h.isPlainChar hr 0 hk
  have hrest : StartsToken rest := by
    intro c cs he
    rcases hr c cs he with rfl | rfl | rfl <;> decide
  obtain ⟨c, cs, hword⟩ := List.exists_cons_of_ne_nil h.ne_nil
  have hfetch : (onLine (word ++ rest) k kinds flow keyAllowed (key :: keys)).fetch =
      (onLine (word ++ rest) k kinds flow keyAllowed (key :: keys)).fetchPlain := by
    rw [← fetchAt_plain h hk hword, hword]
    exact fetch_onLine (startsToken_of_plain (h.isPlainChar c (hword ▸ List.mem_cons_self)))
  rw [hfetch, fetchPlain, saveKey_onLine ho]
  simp only [bind, Except.bind, pure, Except.pure]
  rw [← skipLineComment_onLine hrest, ← push_onLine (.scalar .plain (String.ofList word)) k]
  have hindent : ((-1 : Int) + 1).toNat = 0 := rfl
  simp only [onLine, hf, decide_true, hindent, hread, Bool.false_eq_true, if_false]

theorem insertIdx_length (front : List Token) (x y : Token) :
    (front ++ [x]).insertIdx front.length y = front ++ [y, x] := by
  induction front with
  | nil => rfl
  | cons t front ih => simp [List.insertIdx_succ_cons, ih]

theorem roll_onLine (hf : 0 < flow) (column : Nat) (position : Option Nat) (kind : TokenKind)
    (mark : Mark) : (onLine rest k kinds flow keyAllowed keys).roll column position kind mark =
      .ok (onLine rest k kinds flow keyAllowed keys) := by
  have hflow : (flow == 0) = false := by
    rw [beq_eq_false_iff_ne]
    omega
  simp [roll, onLine, hflow]

theorem fetchValueOf_onLine {name : TokenKind} {m : Nat} (hf : 0 < flow) :
    (onLine (':' :: rest) k (kinds ++ [name]) flow keyAllowed (key :: keys)).fetchValueOf
        ⟨false, kinds.length, place m⟩ =
      .ok (onLine rest (k + 1) (kinds ++ [.key, name, .value]) flow false (none :: keys)) := by
  have hinsert : (onLine (':' :: rest) k (kinds ++ [name]) flow keyAllowed (key :: keys)).insert
      kinds.length .key (place m) =
      onLine (':' :: rest) k (kinds ++ [.key, name]) flow keyAllowed (key :: keys) := by
    have hlength : kinds.length = (kinds.map fun kind => Token.mk kind 0).length :=
      (List.length_map _).symm
    simp only [Scanner.insert, onLine, List.insertIdxIfInBounds_toArray, List.map_append,
      List.map_cons, List.map_nil, place]
    rw [hlength, insertIdx_length]
  rw [fetchValueOf]
  simp only [hinsert, roll_onLine hf, bind, Except.bind, pure, Except.pure]
  have happend : kinds ++ [.key, name, .value] = kinds ++ [.key, name] ++ [.value] := by simp
  rw [happend, ← push_onLine .value k]
  rfl

theorem fetchLoneValue_onLine (hf : 0 < flow) :
    (onLine (':' :: rest) k kinds flow keyAllowed keys).fetchLoneValue =
      .ok (onLine rest (k + 1) (kinds ++ [.value]) flow false keys) := by
  have hflow : (flow == 0) = false := by
    rw [beq_eq_false_iff_ne]
    omega
  have hallowed : ((onLine (':' :: rest) k kinds flow keyAllowed keys).flow == 0 &&
      !(onLine (':' :: rest) k kinds flow keyAllowed keys).keyAllowed) = false := by
    simp [onLine, hflow]
  rw [fetchLoneValue]
  simp only [hallowed, Bool.false_eq_true, if_false, roll_onLine hf, bind, Except.bind, pure,
    Except.pure]
  rw [← push_onLine .value k]
  simp only [onLine, hflow, skip_cons]

/-- The colon after a name puts the key mark in front of the name, if it is near enough. -/
theorem fetch_colon {name : TokenKind} {m : Nat} (hr : StartsToken rest) (hf : 0 < flow) :
    (onLine (':' :: rest) k (kinds ++ [name]) flow keyAllowed
        (some ⟨false, kinds.length, place m⟩ :: keys)).fetch =
      .ok (onLine rest (k + 1) (kinds ++ ((if k ≤ m + maxKeyLength then [.key] else []) ++
        [name, .value])) flow false (none :: keys)) := by
  rw [fetch_onLine (by rintro d ds he; cases he; decide)]
  have hat : (onLine (':' :: rest) k (kinds ++ [name]) flow keyAllowed
      (some ⟨false, kinds.length, place m⟩ :: keys)).fetchAt ':' =
      (onLine (':' :: rest) k (kinds ++ [name]) flow keyAllowed
        (some ⟨false, kinds.length, place m⟩ :: keys)).fetchValue.map skipLineComment := by
    simp [fetchAt, onLine, Input.isAtMarker, Input.ahead?, hf]
  have hcurrent : (onLine (':' :: rest) k (kinds ++ [name]) flow keyAllowed
      (some ⟨false, kinds.length, place m⟩ :: keys)).currentKey =
      some ⟨false, kinds.length, place m⟩ := rfl
  have hstale : (onLine (':' :: rest) k (kinds ++ [name]) flow keyAllowed
      (some ⟨false, kinds.length, place m⟩ :: keys)).isStale ⟨false, kinds.length, place m⟩ =
      decide (m + maxKeyLength < k) := by
    simp [isStale, onLine, place]
  rw [hat, fetchValue, hcurrent]
  simp only [hstale]
  by_cases hnear : k ≤ m + maxKeyLength
  · have hlt : decide (m + maxKeyLength < k) = false := by simpa using hnear
    rw [hlt, if_pos hnear]
    simp only [Bool.false_eq_true, if_false]
    rw [fetchValueOf_onLine hf, Except.map, skipLineComment_onLine hr]
    rfl
  · have hlt : decide (m + maxKeyLength < k) = true := by simpa using hnear
    rw [hlt, if_neg hnear]
    simp only [if_true, Bool.false_eq_true, if_false]
    have hset : (onLine (':' :: rest) k (kinds ++ [name]) flow keyAllowed
        (some ⟨false, kinds.length, place m⟩ :: keys)).setKey none =
        onLine (':' :: rest) k (kinds ++ [name]) flow keyAllowed (none :: keys) := rfl
    rw [hset, fetchLoneValue_onLine hf, Except.map, skipLineComment_onLine hr, List.append_assoc]
    rfl

/-- The end of the text is the start of the next line. -/
theorem fetch_end (hk : 0 < k) (ho : Optional key) :
    ∃ s, (onLine [] k kinds flow keyAllowed (key :: keys)).fetch = .ok s ∧
      s.tokens.toList = kinds.map (Token.mk · 0) ++ [⟨.streamEnd, 1⟩] := by
  have hnil : StartsToken [] := nofun
  have hcolumn : (k == 0) = false := by
    rw [beq_eq_false_iff_ne]
    omega
  have hfetch : (onLine [] k kinds flow keyAllowed (key :: keys)).fetch =
      (onLine [] k kinds flow keyAllowed (key :: keys)).fetchEnd := by
    rw [fetch]
    simp only [skipToToken_onLine hnil, unroll_onLine]
    rfl
  have hend : (onLine [] k kinds flow keyAllowed (key :: keys)).atEnd.unrollAll =
      { onLine [] k kinds flow keyAllowed (key :: keys) with input := ⟨[], ⟨k, 1, 0⟩⟩ } := by
    have hat : (onLine [] k kinds flow keyAllowed (key :: keys)).atEnd =
        { onLine [] k kinds flow keyAllowed (key :: keys) with input := ⟨[], ⟨k, 1, 0⟩⟩ } := by
      simp only [atEnd, onLine, place, hcolumn, Bool.false_eq_true, if_false, Nat.zero_add]
    rw [hat, unrollAll, unroll]
    split
    · rfl
    · rfl
  rw [hfetch, fetchEnd, hend]
  cases key with
  | none => exact ⟨_, rfl, by simp [push, onLine]⟩
  | some p =>
      simp only [dropKey, currentKey, onLine, ho p rfl, Bool.false_eq_true, if_false]
      exact ⟨_, rfl, by simp [push, setKey]⟩

end

/-! ## Runs -/

/-- A number of tokens is read, none of which is the end. -/
inductive Fetches : Nat → Scanner → Scanner → Prop
  | refl {s : Scanner} : Fetches 0 s s
  | step {n : Nat} {s s' s'' : Scanner} : s.isDone = false → s.fetch = .ok s' →
      Fetches n s' s'' → Fetches (n + 1) s s''

theorem Fetches.trans {m n : Nat} {s s' s'' : Scanner} (h : Fetches m s s')
    (h' : Fetches n s' s'') : Fetches (m + n) s s'' := by
  induction h with
  | refl => rwa [Nat.zero_add]
  | step hd hf _ ih =>
      rw [Nat.add_right_comm]
      exact .step hd hf (ih h')

theorem Fetches.one {s s' : Scanner} (hd : s.isDone = false) (hf : s.fetch = .ok s') :
    Fetches 1 s s' :=
  .step hd hf .refl

theorem Fetches.run {n : Nat} {s s' : Scanner} (h : Fetches n s s') (fuel : Nat) :
    Scanner.run (n + fuel) s = Scanner.run fuel s' := by
  induction h with
  | refl => rw [Nat.zero_add]
  | step hd hf _ ih =>
      rw [Nat.add_right_comm, Scanner.run, hd, hf]
      exact ih

theorem isDone_onLine {rest : List Char} {k : Nat} {kinds : List TokenKind} {flow : Nat}
    {keyAllowed : Bool} {keys : List (Option PossibleKey)} (h : TokenKind.streamEnd ∉ kinds) :
    (onLine rest k kinds flow keyAllowed keys).isDone = false := by
  rw [isDone]
  rcases List.eq_nil_or_concat kinds with rfl | ⟨front, last, rfl⟩
  · rfl
  · have hne : last ≠ .streamEnd := by
      rintro rfl
      exact h (by simp)
    simp [onLine, hne]

/-- A run that reaches the end of the text keeps all tokens. -/
theorem Fetches.run_end {m n : Nat} {s : Scanner} {k : Nat} {kinds : List TokenKind} {flow : Nat}
    {keyAllowed : Bool} {key : Option PossibleKey} {keys : List (Option PossibleKey)}
    (h : Fetches n s (onLine [] k kinds flow keyAllowed (key :: keys))) (hn : n ≤ m) (hk : 0 < k)
    (hend : TokenKind.streamEnd ∉ kinds) (ho : Optional key) :
    ∃ s', Scanner.run (m + 2) s = (s', none) ∧
      s'.usable = kinds.map (Token.mk · 0) ++ [⟨.streamEnd, 1⟩] := by
  obtain ⟨s', hfetch, htokens⟩ := fetch_end hk ho
  have hdone : s'.isDone = true := by
    rw [isDone, ← Array.getLast?_toList, htokens]
    simp
  have hfuel : m + 2 = n + 1 + (m - n + 1) := by omega
  refine ⟨s', ?_, ?_⟩
  · rw [hfuel, (h.trans (.one (isDone_onLine hend) hfetch)).run, Scanner.run, hdone]
    rfl
  · rw [usable, hdone, if_pos rfl, htokens]

end Scanner

end Stepwise.Yaml
