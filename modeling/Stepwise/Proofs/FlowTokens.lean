import Stepwise.Proofs.FlowScanning
import Stepwise.Proofs.JsonTree

/-!
# Tokens of a rendered value

The scanner reads the text of a value token by token. What it adds to the brackets and
commas of the text are the key marks: a name that is quoted within 1024 characters
gets one in front of it, a longer name gets none.
-/
namespace Stepwise.Json
open Yaml (TokenKind Style maxKeyLength)

/-- The tokens of the name of a member. A name that is too long has no key mark. -/
def nameTokens (name : String) : List TokenKind :=
  (if (quote name).toList.length ≤ maxKeyLength then [.key] else []) ++
    [.scalar .doubleQuoted name, .value]

mutual

def tokens : Json → List TokenKind
  | null => [.scalar .plain "null"]
  | bool true => [.scalar .plain "true"]
  | bool false => [.scalar .plain "false"]
  | number text => [.scalar .plain text]
  | string text => [.scalar .doubleQuoted text]
  | array items => .flowSequenceStart :: (itemTokens items ++ [.flowSequenceEnd])
  | object members => .flowMappingStart :: (memberTokens members ++ [.flowMappingEnd])

/-- The tokens of items with commas between them. -/
def itemTokens : List Json → List TokenKind
  | [] => []
  | [v] => v.tokens
  | v :: w :: rest => v.tokens ++ .flowEntry :: itemTokens (w :: rest)

/-- The tokens of members with commas between them. -/
def memberTokens : List (String × Json) → List TokenKind
  | [] => []
  | [(k, v)] => nameTokens k ++ v.tokens
  | (k, v) :: m :: rest => nameTokens k ++ v.tokens ++ .flowEntry :: memberTokens (m :: rest)

end

def commaTokens : List (List TokenKind) → List TokenKind
  | [] => []
  | [ts] => ts
  | ts :: us :: rest => ts ++ .flowEntry :: commaTokens (us :: rest)

theorem itemTokens_eq_commaTokens (items : List Json) :
    itemTokens items = commaTokens (items.map tokens) := by
  induction items with
  | nil => rfl
  | cons v items ih =>
      cases items with
      | nil => rfl
      | cons w items =>
          rw [itemTokens, ih]
          rfl

theorem memberTokens_eq_commaTokens (members : List (String × Json)) :
    memberTokens members = commaTokens (members.map fun m => nameTokens m.1 ++ m.2.tokens) := by
  induction members with
  | nil => rfl
  | cons m members ih =>
      cases members with
      | nil => rfl
      | cons n members =>
          rw [memberTokens, ih]
          rfl

theorem streamEnd_not_mem_commaTokens {parts : List (List TokenKind)}
    (h : ∀ ts ∈ parts, TokenKind.streamEnd ∉ ts) : TokenKind.streamEnd ∉ commaTokens parts := by
  induction parts with
  | nil => exact List.not_mem_nil
  | cons ts parts ih =>
      rw [List.forall_mem_cons] at h
      cases parts with
      | nil => exact h.1
      | cons us parts => simp [commaTokens, h.1, ih h.2]

theorem streamEnd_not_mem_nameTokens (name : String) :
    TokenKind.streamEnd ∉ nameTokens name := by
  unfold nameTokens
  split <;> simp

theorem streamEnd_not_mem_tokens (v : Json) : TokenKind.streamEnd ∉ v.tokens := by
  induction v using Json.induct with
  | null => simp [tokens]
  | bool b => cases b <;> simp [tokens]
  | number text => simp [tokens]
  | string text => simp [tokens]
  | array items ih =>
      have hitems : TokenKind.streamEnd ∉ itemTokens items := by
        rw [itemTokens_eq_commaTokens]
        refine streamEnd_not_mem_commaTokens fun ts hts => ?_
        obtain ⟨v, hv, rfl⟩ := List.mem_map.mp hts
        exact ih v hv
      simp [tokens, hitems]
  | object members ih =>
      have hmembers : TokenKind.streamEnd ∉ memberTokens members := by
        rw [memberTokens_eq_commaTokens]
        refine streamEnd_not_mem_commaTokens fun ts hts => ?_
        obtain ⟨m, hm, rfl⟩ := List.mem_map.mp hts
        rw [List.mem_append, not_or]
        exact ⟨streamEnd_not_mem_nameTokens m.1, ih m hm⟩
      simp [tokens, hmembers]

open Yaml (place isPlainChar Closes)
open Yaml.Scanner

theorem isPlainChar_of_isNumberChar {c : Char} (h : isNumberChar c = true) :
    isPlainChar c = true := by
  have hne : ∀ d : Char, isNumberChar d = false → c ≠ d := by
    rintro d hd rfl
    rw [hd] at h
    cases h
  simp [isPlainChar, Yaml.isBlank, Yaml.isBreak, Yaml.endsFlowPlain, hne ' ' rfl, hne '\t' rfl,
    hne '\n' rfl, hne '\r' rfl, hne '\u0085' rfl, hne '\u2028' rfl, hne '\u2029' rfl, hne ':' rfl,
    hne ',' rfl, hne '?' rfl, hne '[' rfl, hne ']' rfl, hne '\x7b' rfl, hne '\x7d' rfl, hne '#' rfl]

theorem IsNumber.isPlainWord {token : List Char} (h : IsNumber token) : IsPlainWord token := by
  have hchars : ∀ c ∈ token, isPlainChar c = true := fun c hc =>
    isPlainChar_of_isNumberChar (h.isNumberChar c hc)
  cases h with
  | @parts sign whole fraction exponent hsign hwhole _ _ =>
      obtain ⟨d, ds, rfl⟩ : ∃ d ds, whole = d :: ds := by
        cases hwhole <;> exact ⟨_, _, rfl⟩
      have hd : d.isDigit = true := Reader.IsWhole.isDigit hwhole d List.mem_cons_self
      rcases hsign with rfl | rfl
      · exact .letter (by simp [Char.isAlphanum, hd]) hchars
      · exact .negative hd hchars

theorem Writable.startsToken {v : Json} (h : v.Writable) (tail : List Char) :
    StartsToken (v.render.toList ++ tail) := by
  have hmark : ∀ {c : Char} {cs : List Char}, isPlainChar c = true ∨ c ∈ ['[', '\x7b', '"'] →
      StartsToken (c :: cs) := by
    rintro c cs (hc | hc)
    · exact startsToken_of_plain hc
    · rintro d ds he
      obtain ⟨rfl, -⟩ := List.cons.inj he
      simp only [List.mem_cons, List.not_mem_nil, or_false] at hc
      rcases hc with rfl | rfl | rfl <;> decide
  cases h with
  | null => exact hmark (.inl rfl)
  | @bool b => cases b <;> exact hmark (.inl rfl)
  | @number text hn =>
      obtain ⟨c, cs, htoken, -⟩ := hn.head
      rw [render, htoken, List.cons_append]
      refine hmark (.inl ?_)
      exact hn.isPlainWord.isPlainChar c (by rw [htoken]; exact List.mem_cons_self)
  | @string text =>
      rw [render, Yaml.quote_toList, List.cons_append]
      exact hmark (.inr (by decide))
  | array _ =>
      rw [render_array_toList, List.cons_append]
      exact hmark (.inr (by decide))
  | object _ =>
      rw [render_object_toList, List.cons_append]
      exact hmark (.inr (by decide))

/-! ## Texts on one line -/

theorem mem_commaJoin {texts : List (List Char)} {t : List Char} (ht : t ∈ texts) {c : Char}
    (hc : c ∈ t) : c ∈ commaJoin texts := by
  induction texts with
  | nil => cases ht
  | cons u texts ih =>
      cases texts with
      | nil =>
          rw [← List.mem_singleton.mp ht]
          exact hc
      | cons w texts =>
          rw [commaJoin]
          rcases List.mem_cons.mp ht with rfl | ht
          · exact List.mem_append_left _ hc
          · exact List.mem_append_right _ (List.mem_cons_of_mem _ (ih ht))

/-- The text of a value has no next-line character, which would break the line. -/
def OnOneLine (v : Json) : Prop :=
  '\u0085' ∉ v.render.toList

instance (v : Json) : Decidable v.OnOneLine :=
  inferInstanceAs (Decidable ('\u0085' ∉ v.render.toList))

theorem OnOneLine.item {items : List Json} (h : (Json.array items).OnOneLine) {v : Json}
    (hv : v ∈ items) : v.OnOneLine := by
  intro hmem
  refine h ?_
  rw [render_array_toList]
  exact List.mem_cons_of_mem _ (List.mem_append_left _
    (mem_commaJoin (List.mem_map_of_mem (f := fun v => v.render.toList) hv) hmem))

theorem OnOneLine.member {members : List (String × Json)} (h : (Json.object members).OnOneLine)
    {m : String × Json} (hm : m ∈ members) : '\u0085' ∉ (quote m.1).toList ∧ m.2.OnOneLine := by
  have htext : '\u0085' ∉ (rendered m).text := by
    intro hmem
    refine h ?_
    rw [render_object_toList]
    exact List.mem_cons_of_mem _ (List.mem_append_left _
      (mem_commaJoin (List.mem_map_of_mem (f := fun m => (rendered m).text) hm) hmem))
  rw [text_rendered, List.mem_append, List.mem_cons, not_or, not_or] at htext
  exact ⟨htext.1, htext.2.2⟩

theorem not_mem_of_quote {text : String} (h : '\u0085' ∉ (quote text).toList) :
    '\u0085' ∉ text.toList := by
  intro hmem
  refine h ?_
  rw [Yaml.quote_toList]
  refine List.mem_cons_of_mem _ (List.mem_append_left _ ?_)
  exact List.mem_flatMap.mpr ⟨_, hmem, by decide⟩

/-! ## Values -/

/-- The scanner reads the text of a value as the tokens of the value. -/
def Scans (v : Json) : Prop :=
  ∀ (rest : List Char) (k : Nat) (kinds : List TokenKind) (flow : Nat) (keyAllowed : Bool)
    (key : Option Yaml.PossibleKey) (keys : List (Option Yaml.PossibleKey)),
    Closes rest → (v.IsScalar → 0 < k ∧ 0 < flow) → fitsDepth (maxDepth - flow) v = true →
    TokenKind.streamEnd ∉ kinds → Optional key → v.OnOneLine →
    ∃ n, n ≤ v.render.toList.length ∧
      Fetches n (onLine (v.render.toList ++ rest) k kinds flow keyAllowed (key :: keys))
        (onLine rest (k + v.render.toList.length) (kinds ++ v.tokens) flow false
          (keyFrom keyAllowed k kinds key :: keys))

theorem scans_plain {v : Json} {text : String} (hword : IsPlainWord text.toList)
    (hrender : v.render = text) (htokens : v.tokens = [.scalar .plain text])
    (hscalar : v.IsScalar) : Scans v := by
  intro rest k kinds flow keyAllowed key keys hrest hflow _ hend hkey _
  obtain ⟨hk, hf⟩ := hflow hscalar
  have hlength := List.length_pos_of_ne_nil hword.ne_nil
  have hfetch : (onLine (text.toList ++ rest) k kinds flow keyAllowed (key :: keys)).fetch = _ :=
    fetch_plain hword hrest hk hf hkey
  rw [String.ofList_toList] at hfetch
  rw [hrender, htokens]
  exact ⟨1, hlength, .one (isDone_onLine hend) hfetch⟩

theorem closes_cons {c : Char} (h : c ∈ [',', ']', '\x7d']) (cs : List Char) :
    Closes (c :: cs) := by
  intro d ds he
  obtain ⟨rfl, -⟩ := List.cons.inj he
  simpa using h

theorem closes_startsToken {rest : List Char} (h : Closes rest) : StartsToken rest := by
  intro c cs he
  rcases h c cs he with rfl | rfl | rfl <;> decide

/-! ## Collections -/

/-- The scanner reads a part of a collection, a text that stands for some tokens. -/
structure ScansPart (flow : Nat) (text : List Char) (ts : List TokenKind) : Prop where
  starts : ∀ tail, StartsToken (text ++ tail)
  noEnd : TokenKind.streamEnd ∉ ts
  fetches : ∀ (rest : List Char) (k : Nat) (kinds : List TokenKind)
    (keys : List (Option Yaml.PossibleKey)), Closes rest → 0 < k → TokenKind.streamEnd ∉ kinds →
    ∃ n key, n ≤ text.length ∧ Optional key ∧
      Fetches n (onLine (text ++ rest) k kinds flow true (none :: keys))
        (onLine rest (k + text.length) (kinds ++ ts) flow false (key :: keys))

section
variable {flow : Nat} {parts : List (List Char × List TokenKind)}
  (hp : ∀ p ∈ parts, ScansPart flow p.1 p.2)
include hp

theorem startsToken_parts {tail : List Char} (htail : StartsToken tail) :
    StartsToken (commaJoin (parts.map Prod.fst) ++ tail) := by
  cases parts with
  | nil => exact htail
  | cons p parts =>
      have hstarts := (hp p List.mem_cons_self).starts
      cases parts with
      | nil => exact hstarts tail
      | cons q parts =>
          rw [List.map_cons, List.map_cons, commaJoin, List.append_assoc]
          exact hstarts _

/-- Parts with commas between them are read up to what closes the collection. -/
theorem fetches_parts {close : List Char} (hclose : Closes close) {k : Nat} (hk : 0 < k)
    {kinds : List TokenKind} (hend : TokenKind.streamEnd ∉ kinds)
    (keys : List (Option Yaml.PossibleKey)) :
    ∃ n keyAllowed key, n ≤ (commaJoin (parts.map Prod.fst)).length ∧ Optional key ∧
      Fetches n
        (onLine (commaJoin (parts.map Prod.fst) ++ close) k kinds flow true (none :: keys))
        (onLine close (k + (commaJoin (parts.map Prod.fst)).length)
          (kinds ++ commaTokens (parts.map Prod.snd)) flow keyAllowed (key :: keys)) := by
  -- a comma allows a new key and clears the old one, so each part starts like the first
  induction parts generalizing k kinds with
  | nil =>
      refine ⟨0, true, none, Nat.le_refl 0, optional_none, ?_⟩
      rw [List.map_nil, List.map_nil, commaTokens, List.append_nil]
      exact .refl
  | cons p parts ih =>
      obtain ⟨text, ts⟩ := p
      have hpart : ScansPart flow text ts := hp _ List.mem_cons_self
      have hrest := (List.forall_mem_cons.mp hp).2
      cases parts with
      | nil =>
          obtain ⟨n, key, hn, hkey, hfetch⟩ := hpart.fetches close k kinds keys hclose hk hend
          exact ⟨n, false, key, hn, hkey, hfetch⟩
      | cons q parts =>
          have hjoin : commaJoin (((text, ts) :: q :: parts).map Prod.fst) =
              text ++ ',' :: commaJoin ((q :: parts).map Prod.fst) := rfl
          have htokens : commaTokens (((text, ts) :: q :: parts).map Prod.snd) =
              ts ++ .flowEntry :: commaTokens ((q :: parts).map Prod.snd) := rfl
          obtain ⟨n, key, hn, hkey, hfetch⟩ := hpart.fetches
            (',' :: (commaJoin ((q :: parts).map Prod.fst) ++ close)) k kinds keys
            (closes_cons (by decide) _) hk hend
          have hend' : TokenKind.streamEnd ∉ kinds ++ ts := by
            rw [List.mem_append, not_or]
            exact ⟨hend, hpart.noEnd⟩
          have hend'' : TokenKind.streamEnd ∉ kinds ++ ts ++ [.flowEntry] := by
            simpa using hend'
          have hk' : 0 < k + text.length + 1 := Nat.succ_pos _
          obtain ⟨m, keyAllowed, last, hm, hlast, htail⟩ := ih hrest hk' hend''
          refine ⟨n + 1 + m, keyAllowed, last, ?_, hlast, ?_⟩
          · rw [hjoin, List.length_append, List.length_cons]
            omega
          · have hstart := startsToken_parts hrest (closes_startsToken hclose)
            have hall := (hfetch.trans (.one (isDone_onLine hend')
              (fetch_comma hstart hkey))).trans htail
            rw [hjoin, htokens, List.length_append, List.length_cons]
            simpa only [List.append_assoc, List.cons_append, List.nil_append, Nat.add_assoc,
              Nat.add_comm 1] using hall

end

theorem Scans.part {v : Json} (hs : Scans v) (hw : v.Writable) (hline : v.OnOneLine) {flow : Nat}
    (hf : 0 < flow) (hd : fitsDepth (maxDepth - flow) v = true) :
    ScansPart flow v.render.toList v.tokens := by
  refine ⟨hw.startsToken, v.streamEnd_not_mem_tokens, ?_⟩
  intro rest k kinds keys hrest hk hend
  obtain ⟨n, hn, hfetch⟩ := hs rest k kinds flow true none keys hrest (fun _ => ⟨hk, hf⟩) hd hend
    optional_none hline
  exact ⟨n, _, hn, optional_keyFrom optional_none, hfetch⟩

/-- The name of a member and its colon are read up to the value. -/
theorem fetches_name {name : String} (hline : '\u0085' ∉ (quote name).toList) {value : List Char}
    (hstart : StartsToken value) {flow : Nat} (hf : 0 < flow) (k : Nat) {kinds : List TokenKind}
    (hend : TokenKind.streamEnd ∉ kinds) (keys : List (Option Yaml.PossibleKey)) :
    Fetches 2
      (onLine ((quote name).toList ++ ':' :: value) k kinds flow true (none :: keys))
      (onLine value (k + (quote name).toList.length + 1) (kinds ++ nameTokens name) flow false
        (none :: keys)) := by
  have hcolon : StartsToken (':' :: value) := by
    intro c cs he
    obtain ⟨rfl, -⟩ := List.cons.inj he
    decide
  have hend' : TokenKind.streamEnd ∉ kinds ++ [.scalar .doubleQuoted name] := by
    simp [hend]
  have hnear : k + (quote name).toList.length ≤ k + maxKeyLength ↔
      (quote name).toList.length ≤ maxKeyLength := Nat.add_le_add_iff_left
  refine .step (isDone_onLine hend)
    (fetch_string (not_mem_of_quote hline) hcolon optional_none) (.one (isDone_onLine hend') ?_)
  have hfetch : (onLine (':' :: value) (k + (quote name).toList.length)
      (kinds ++ [.scalar .doubleQuoted name]) flow false
      (some ⟨false, kinds.length, place k⟩ :: keys)).fetch = _ := fetch_colon hstart hf
  simp only [hnear] at hfetch
  exact hfetch

theorem Scans.member {m : String × Json} (hs : Scans m.2) (hw : m.2.Writable)
    (hline : '\u0085' ∉ (quote m.1).toList ∧ m.2.OnOneLine) {flow : Nat} (hf : 0 < flow)
    (hd : fitsDepth (maxDepth - flow) m.2 = true) :
    ScansPart flow (rendered m).text (nameTokens m.1 ++ m.2.tokens) := by
  obtain ⟨name, v⟩ := m
  have hquote : (quote name).toList = '"' :: ((quote name).toList.tail) ∧
      2 ≤ (quote name).toList.length := by
    rw [Yaml.quote_toList]
    simp
  refine ⟨fun tail => ?_, ?_, ?_⟩
  · rw [text_rendered, List.append_assoc, hquote.1]
    intro c cs he
    obtain ⟨rfl, -⟩ := List.cons.inj he
    decide
  · rw [List.mem_append, not_or]
    exact ⟨streamEnd_not_mem_nameTokens name, v.streamEnd_not_mem_tokens⟩
  · intro rest k kinds keys hrest _ hend
    have hend' : TokenKind.streamEnd ∉ kinds ++ nameTokens name := by
      rw [List.mem_append, not_or]
      exact ⟨hend, streamEnd_not_mem_nameTokens name⟩
    have hname := fetches_name hline.1 (hw.startsToken rest) hf k hend keys
    obtain ⟨n, hn, hfetch⟩ := hs rest (k + (quote name).toList.length + 1)
      (kinds ++ nameTokens name) flow false none keys hrest (fun _ => ⟨Nat.succ_pos _, hf⟩) hd
      hend' optional_none hline.2
    refine ⟨2 + n, none, ?_, optional_none, ?_⟩
    · rw [text_rendered, List.length_append, List.length_cons]
      have hlength := hquote.2
      have hbound : n ≤ v.render.toList.length := hn
      simp only
      omega
    · rw [text_rendered, List.length_append, List.length_cons]
      simpa only [List.append_assoc, List.cons_append, Nat.add_assoc, Nat.add_comm 1, keyFrom,
        Bool.false_eq_true, if_false] using hname.trans hfetch

theorem fitsDepth_array {depth : Nat} {items : List Json} :
    fitsDepth depth (.array items) = true ↔
      0 < depth ∧ ∀ v ∈ items, fitsDepth (depth - 1) v = true := by
  cases depth with
  | zero => simp [fitsDepth]
  | succ depth =>
      have hitems : itemsFitDepth depth items = true ↔ ∀ v ∈ items, fitsDepth depth v = true := by
        induction items with
        | nil => simp [itemsFitDepth]
        | cons v items ih => simp [itemsFitDepth, ih]
      simp [fitsDepth, hitems]

theorem fitsDepth_object {depth : Nat} {members : List (String × Json)} :
    fitsDepth depth (.object members) = true ↔
      0 < depth ∧ ∀ m ∈ members, fitsDepth (depth - 1) m.2 = true := by
  cases depth with
  | zero => simp [fitsDepth]
  | succ depth =>
      have hmembers : membersFitDepth depth members = true ↔
          ∀ m ∈ members, fitsDepth depth m.2 = true := by
        induction members with
        | nil => simp [membersFitDepth]
        | cons m members ih =>
            obtain ⟨name, v⟩ := m
            rw [membersFitDepth, Bool.and_eq_true, ih, List.forall_mem_cons]
      simp only [fitsDepth, hmembers, Nat.succ_pos, true_and, Nat.add_sub_cancel]

/-- What stands between brackets is read a level deeper. -/
theorem fetches_between {c d : Char} {opening closing : TokenKind} {rest : List Char}
    {kinds : List TokenKind} {flow : Nat} {key : Option Yaml.PossibleKey}
    (hc : (c, opening) ∈ [('[', .flowSequenceStart), ('\x7b', .flowMappingStart)])
    (hd : (d, closing) ∈ [(']', .flowSequenceEnd), ('\x7d', .flowMappingEnd)])
    (hf : flow < maxDepth) (hrest : Closes rest) (hkey : Optional key)
    (hend : TokenKind.streamEnd ∉ kinds) (k : Nat) (keyAllowed : Bool)
    (keys : List (Option Yaml.PossibleKey)) (parts : List (List Char × List TokenKind))
    (hp : ∀ p ∈ parts, ScansPart (flow + 1) p.1 p.2) :
    ∃ n, n ≤ (c :: (commaJoin (parts.map Prod.fst) ++ [d])).length ∧
      Fetches n
        (onLine (c :: (commaJoin (parts.map Prod.fst) ++ [d]) ++ rest) k kinds flow keyAllowed
          (key :: keys))
        (onLine rest (k + (c :: (commaJoin (parts.map Prod.fst) ++ [d])).length)
          (kinds ++ opening :: (commaTokens (parts.map Prod.snd) ++ [closing])) flow false
          (keyFrom keyAllowed k kinds key :: keys)) := by
  have hclose : Closes (d :: rest) := by
    refine closes_cons ?_ rest
    simp only [List.mem_cons, List.not_mem_nil, or_false, Prod.mk.injEq] at hd
    rcases hd with ⟨rfl, -⟩ | ⟨rfl, -⟩ <;> decide
  have hopening : opening ≠ .streamEnd := by
    simp only [List.mem_cons, List.not_mem_nil, or_false, Prod.mk.injEq] at hc
    rcases hc with ⟨-, rfl⟩ | ⟨-, rfl⟩ <;> decide
  have hend' : TokenKind.streamEnd ∉ kinds ++ [opening] := by
    simp [hend, hopening.symm]
  obtain ⟨n, allowed, last, hn, hlast, hbody⟩ := fetches_parts hp hclose (Nat.succ_pos k) hend'
    (keyFrom keyAllowed k kinds key :: keys)
  have hend'' : TokenKind.streamEnd ∉ kinds ++ [opening] ++ commaTokens (parts.map Prod.snd) := by
    rw [List.mem_append, not_or]
    refine ⟨hend', streamEnd_not_mem_commaTokens fun ts hts => ?_⟩
    obtain ⟨p, hmem, rfl⟩ := List.mem_map.mp hts
    exact (hp p hmem).noEnd
  have hstart := startsToken_parts hp (closes_startsToken hclose)
  have hall := ((Fetches.one (isDone_onLine hend) (fetch_open hc hf hstart hkey)).trans hbody).trans
    (.one (isDone_onLine hend'') (fetch_close hd (closes_startsToken hrest) hlast))
  refine ⟨1 + n + 1, ?_, ?_⟩
  · rw [List.length_cons, List.length_append, List.length_singleton]
    omega
  · have hcolumn : k + (c :: (commaJoin (parts.map Prod.fst) ++ [d])).length =
        k + 1 + (commaJoin (parts.map Prod.fst)).length + 1 := by
      rw [List.length_cons, List.length_append, List.length_singleton]
      omega
    rw [hcolumn]
    simpa only [List.append_assoc, List.cons_append, List.nil_append] using hall

/-- The scanner reads the text of every value that can be written. -/
theorem Writable.scans {v : Json} (h : v.Writable) : Scans v := by
  induction v using Json.induct with
  | null =>
      have hword : IsPlainWord "null".toList := .letter rfl (List.all_eq_true.mp rfl)
      exact scans_plain hword rfl rfl trivial
  | bool b =>
      cases b with
      | false =>
          have hword : IsPlainWord "false".toList := .letter rfl (List.all_eq_true.mp rfl)
          exact scans_plain hword rfl rfl trivial
      | true =>
          have hword : IsPlainWord "true".toList := .letter rfl (List.all_eq_true.mp rfl)
          exact scans_plain hword rfl rfl trivial
  | number text =>
      cases h with
      | number hn => exact scans_plain hn.isPlainWord rfl rfl trivial
  | string text =>
      intro rest k kinds flow keyAllowed key keys hrest _ _ hend hkey hline
      have hlength : 1 ≤ (quote text).toList.length := by
        rw [Yaml.quote_toList]
        simp
      exact ⟨1, hlength, .one (isDone_onLine hend)
        (fetch_string (not_mem_of_quote hline) (closes_startsToken hrest) hkey)⟩
  | array items ih =>
      intro rest k kinds flow keyAllowed key keys hrest _ hd hend hkey hline
      obtain ⟨hf, hd⟩ := fitsDepth_array.mp hd
      cases h with
      | array hw =>
          have hbetween := fetches_between List.mem_cons_self List.mem_cons_self
            (Nat.lt_of_sub_pos hf) hrest hkey hend k keyAllowed keys
            (items.map fun v => (v.render.toList, v.tokens)) ?_
          · rw [render_array_toList, tokens, itemTokens_eq_commaTokens]
            simpa only [List.map_map, Function.comp_def] using hbetween
          · intro p hp
            obtain ⟨v, hv, rfl⟩ := List.mem_map.mp hp
            exact (ih v hv (hw v hv)).part (hw v hv) (hline.item hv) (Nat.succ_pos flow) (hd v hv)
  | object members ih =>
      intro rest k kinds flow keyAllowed key keys hrest _ hd hend hkey hline
      obtain ⟨hf, hd⟩ := fitsDepth_object.mp hd
      cases h with
      | object hw =>
          have hbetween := fetches_between (List.mem_cons_of_mem _ List.mem_cons_self)
            (List.mem_cons_of_mem _ List.mem_cons_self) (Nat.lt_of_sub_pos hf) hrest hkey hend k
            keyAllowed keys
            (members.map fun m => ((rendered m).text, nameTokens m.1 ++ m.2.tokens)) ?_
          · rw [render_object_toList, tokens, memberTokens_eq_commaTokens]
            simpa only [List.map_map, Function.comp_def] using hbetween
          · intro p hp
            obtain ⟨m, hm, rfl⟩ := List.mem_map.mp hp
            exact (ih m hm (hw m hm)).member (hw m hm) (hline.member hm) (Nat.succ_pos flow)
              (hd m hm)

theorem Writable.dropByteOrderMark {v : Json} (h : ¬v.IsScalar) :
    Yaml.dropByteOrderMark v.render.toList = v.render.toList := by
  cases v with
  | array items =>
      rw [render_array_toList]
      rfl
  | object members =>
      rw [render_object_toList]
      rfl
  | _ => exact absurd trivial h

/-- A collection on one line is scanned to its tokens, unless it has a character that
no text may have. -/
theorem Writable.scan_render {v : Json} (h : v.Writable) (hs : ¬v.IsScalar) (hline : v.OnOneLine)
    (hd : fitsDepth maxDepth v = true) :
    Yaml.scan v.render =
      if v.render.toList.all Yaml.isAllowed then
        ⟨v.tokens.map (Yaml.Token.mk · 0) ++ [⟨.streamEnd, 1⟩], none⟩
      else ⟨[], some (.plain .controlCharacter)⟩ := by
  rw [Yaml.scan]
  simp only [Writable.dropByteOrderMark hs]
  split
  · obtain ⟨n, hn, hfetch⟩ := h.scans [] 0 [] 0 true none [] nofun (fun h => absurd h hs) hd
      List.not_mem_nil Yaml.Scanner.optional_none hline
    have hlength : 0 < v.render.toList.length := by
      cases v with
      | array items => simp [render_array_toList]
      | object members => simp [render_object_toList]
      | _ => exact absurd trivial hs
    obtain ⟨s, hrun, husable⟩ := hfetch.run_end hn (by omega) v.streamEnd_not_mem_tokens
      (optional_keyFrom optional_none)
    have hstart : start v.render.toList = onLine (v.render.toList ++ []) 0 [] 0 true [none] := by
      rw [List.append_nil]
      rfl
    rw [hstart, hrun]
    simp only [husable, List.nil_append]
  · rfl

end Stepwise.Json
