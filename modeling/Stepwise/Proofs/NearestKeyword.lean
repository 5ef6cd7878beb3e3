import Mathlib.Data.List.Induction
import Stepwise.Keyword.NearMiss
import Stepwise.Proofs.LongestPhrases
import Stepwise.Proofs.RepairedLines

/-!
# Mistyped keywords

A mistyped keyword is the nearest of the single-word step keywords that are near to the word,
and the first of several at one distance. The search keeps the best keyword so far. The best
of all is of the same sort as the longest phrase: first among those that are closest.

Two parts of the program ask for it. In the description of a feature or a rule a free line is
flagged when its first word is a mistyped keyword, and then the fix for the line replaces that
word. So a line of a description has a marker exactly when such a replacement is proposed.
-/
namespace Stepwise

namespace Lexicon

/-- A word is `n` edits away from a single-word keyword, which is near: at most two edits, and
fewer than half the letters of the word. Both are compared without regard to case. -/
def Misses (word : String) (k : Keyword) (n : Nat) : Prop :=
  ∃ w, k.words = [w] ∧ n = Diff.distance (Text.fold word) (Text.fold w) ∧ n ≤ 2 ∧
    2 * n < (Text.fold word).length

/-- The nearest of the keywords that a word is near to, the first of several. -/
def NearestMissed (word : String) (all : List Keyword) (k : Keyword) : Prop :=
  ∃ before after n, all = before ++ k :: after ∧ Misses word k n ∧
    (∀ b ∈ before, ∀ m, Misses word b m → n < m) ∧ ∀ a ∈ after, ∀ m, Misses word a m → n ≤ m

section
variable {word : String} {k b : Keyword} {n m : Nat} {all : List Keyword}

theorem missDistance?_eq_some_iff :
    missDistance? (Text.fold word) k = some n ↔ Misses word k n := by
  unfold missDistance? Misses
  split
  · rename_i w hw
    simp only [hw, List.cons.injEq, and_true, exists_eq_left', Option.ite_none_right_eq_some,
      Bool.and_eq_true, decide_eq_true_eq, Option.some.injEq]
    constructor
    · rintro ⟨hnear, rfl⟩
      exact ⟨rfl, hnear⟩
    · rintro ⟨rfl, hnear⟩
      exact ⟨hnear, rfl⟩
  · rename_i hw
    constructor
    · exact nofun
    · rintro ⟨w, hone, -⟩
      exact absurd hone (hw w)

/-- How many edits fewer than the limit separate a word and a keyword. -/
def closeness (word : String) (k : Keyword) : Nat :=
  nearMissLimit - (missDistance? (Text.fold word) k).getD 0

theorem Misses.closeness_eq (h : Misses word k n) : closeness word k + n = 2 := by
  have hle : n ≤ 2 := by
    obtain ⟨w, -, -, hle, -⟩ := h
    exact hle
  rw [closeness, missDistance?_eq_some_iff.mpr h, Option.getD_some, nearMissLimit]
  omega

theorem Misses.closeness_lt_iff (hk : Misses word k n) (hb : Misses word b m) :
    closeness word b < closeness word k ↔ n < m := by
  have := hk.closeness_eq
  have := hb.closeness_eq
  omega

theorem Misses.closeness_le_iff (hk : Misses word k n) (hb : Misses word b m) :
    closeness word b ≤ closeness word k ↔ n ≤ m := by
  have := hk.closeness_eq
  have := hb.closeness_eq
  omega

/-- The nearest keyword is the closest one. -/
theorem nearestMissed_iff : NearestMissed word all k ↔
    FirstLongest (closeness word) (fun k => ∃ n, Misses word k n) all k := by
  constructor
  · rintro ⟨before, after, n, hall, hk, hbefore, hafter⟩
    exact ⟨before, after, hall, ⟨n, hk⟩,
      fun b hb ⟨m, hm⟩ => (hk.closeness_lt_iff hm).mpr (hbefore b hb m hm),
      fun a ha ⟨m, hm⟩ => (hk.closeness_le_iff hm).mpr (hafter a ha m hm)⟩
  · rintro ⟨before, after, hall, ⟨n, hk⟩, hbefore, hafter⟩
    exact ⟨before, after, n, hall, hk,
      fun b hb m hm => (hk.closeness_lt_iff hm).mp (hbefore b hb ⟨m, hm⟩),
      fun a ha m hm => (hk.closeness_le_iff hm).mp (hafter a ha ⟨m, hm⟩)⟩

/-- One keyword more: it is taken when it is nearer than the best so far. -/
theorem nearest?_concat (folded : String) (all : List Keyword) (k : Keyword) :
    nearest? folded (all ++ [k]) =
      match missDistance? folded k, nearest? folded all with
      | none, best => best
      | some n, none => some (k, n)
      | some n, some (b, m) => if n < m then some (k, n) else some (b, m) := by
  rw [nearest?, List.foldl_append, List.foldl_cons, List.foldl_nil, ← nearest?]
  cases missDistance? folded k <;> cases nearest? folded all <;> rfl

/-- The search gives the nearest keyword, or the word is near to none. -/
theorem nearest?_cases (word : String) (all : List Keyword) :
    (nearest? (Text.fold word) all = none ∧ ∀ k ∈ all, ∀ n, ¬Misses word k n) ∨
      ∃ k n, nearest? (Text.fold word) all = some (k, n) ∧ Misses word k n ∧
        FirstLongest (closeness word) (fun k => ∃ n, Misses word k n) all k := by
  induction all using List.reverseRecOn with
  | nil => exact .inl ⟨rfl, fun _ hk => absurd hk List.not_mem_nil⟩
  | append_singleton all k ih =>
      rw [nearest?_concat]
      cases hk : missDistance? (Text.fold word) k with
      | none =>
          have hfar : ∀ n, ¬Misses word k n := by
            intro n hn
            rw [missDistance?_eq_some_iff.mpr hn] at hk
            cases hk
          rcases ih with ⟨hnone, hall⟩ | ⟨b, m, hsome, hb, hfirst⟩
          · refine .inl ⟨hnone, fun a ha => ?_⟩
            rcases List.mem_append.mp ha with ha | ha
            · exact hall a ha
            · exact List.mem_singleton.mp ha ▸ hfar
          · exact .inr ⟨b, m, hsome, hb, hfirst.concat_of_le fun ⟨n, hn⟩ => absurd hn (hfar n)⟩
      | some n =>
          have hn := missDistance?_eq_some_iff.mp hk
          rcases ih with ⟨hnone, hall⟩ | ⟨b, m, hsome, hb, hfirst⟩
          · rw [hnone]
            exact .inr ⟨k, n, rfl, hn, .concat ⟨n, hn⟩ fun a ha ⟨i, hi⟩ => absurd hi (hall a ha i)⟩
          · rw [hsome]
            dsimp only
            split
            · rename_i hlt
              refine .inr ⟨k, n, rfl, hn, .concat ⟨n, hn⟩ fun a ha hnear => ?_⟩
              exact Nat.lt_of_le_of_lt (hfirst.bound ha hnear) ((hn.closeness_lt_iff hb).mpr hlt)
            · rename_i hle
              refine .inr ⟨b, m, rfl, hb, hfirst.concat_of_le fun _ => ?_⟩
              exact (hb.closeness_le_iff hn).mpr (Nat.not_lt.mp hle)

end

/-- A mistyped keyword is the nearest one. -/
theorem nearMiss?_eq_some_iff (l : Lexicon) (word : String) (k : Keyword) :
    l.nearMiss? word = some k ↔ NearestMissed word l.stepKeywords k := by
  rw [nearestMissed_iff, nearMiss?]
  rcases nearest?_cases word l.stepKeywords with ⟨hnone, hall⟩ | ⟨b, n, hsome, -, hfirst⟩
  · rw [hnone, Option.map_none]
    refine ⟨nofun, fun h => ?_⟩
    obtain ⟨n, hn⟩ := h.accepted
    exact absurd hn (hall k h.mem n)
  · rw [hsome, Option.map_some, Option.some.injEq]
    exact ⟨fun h => h ▸ hfirst, fun h => hfirst.unique h⟩

theorem nearMiss?_eq_none_iff (l : Lexicon) (word : String) :
    l.nearMiss? word = none ↔ ∀ k ∈ l.stepKeywords, ∀ n, ¬Misses word k n := by
  rw [nearMiss?, Option.map_eq_none_iff]
  rcases nearest?_cases word l.stepKeywords with ⟨hnone, hall⟩ | ⟨b, n, hsome, hb, hfirst⟩
  · exact ⟨fun _ => hall, fun _ => hnone⟩
  · rw [hsome]
    exact ⟨nofun, fun h => absurd hb (h b hfirst.mem n)⟩

/-- The step keywords of declarations are the step phrases among them, as declared. -/
theorem stepKeywords_ofPhrases (phrases : List Phrase) : (ofPhrases phrases).stepKeywords =
    (phrases.filterMap Phrase.keyword?).filter fun k => k.kind == .step := by
  have hkind : ∀ k : Keyword, (!k.kind.isHeader) = (k.kind == .step) := by
    intro k
    cases k.kind <;> rfl
  rw [stepKeywords, ofPhrases, List.filter_map, List.map_map]
  simp [Function.comp_def, hkind]

end Lexicon

/-! ## The fix of a mistyped first word -/

/-- An edit that replaces the first word of a line and leaves the rest of the line. -/
def Edit.ReplacesFirstWord (e : Edit) (number : Int) (line word : String) : Prop :=
  ∃ before after, line.toList = before ++ word.toList ++ after ∧
    (∀ b ∈ before, Text.isBlank b = true) ∧ Text.IsWord word.toList ∧
    (∀ a ∈ after.head?, Text.isBlank a = true) ∧
    e.span = .onLine number (before.length + 1 : Nat) (before.length + 1 + word.length : Nat) ∧
    e.rewrite line = String.ofList (before ++ e.text.toList ++ after)

section
variable {c : Configuration} {line word : String} {ws : List String} {e : Edit} {number : Int}

theorem Edit.ReplacesFirstWord.words_eq (h : e.ReplacesFirstWord number line word) :
    ∃ ws, Text.words line = word :: ws := by
  obtain ⟨before, after, hline, hbefore, hword, hafter, -⟩ := h
  refine ⟨(Text.wordsOf after).map String.ofList, ?_⟩
  rw [Text.words, hline, List.append_assoc, Text.wordsOf_append_left hbefore,
    Text.wordsOf_append_of_head hafter, Text.wordsOf_of_isWord hword]
  simp

theorem Edit.ReplacesFirstWord.startColumn_lt (h : e.ReplacesFirstWord number line word) :
    e.span.startColumn < e.span.endColumn := by
  obtain ⟨before, after, -, -, hword, -, hspan, -⟩ := h
  have hpos : 0 < word.length := by
    rw [← String.length_toList]
    exact List.length_pos_iff.mpr hword.1
  rw [hspan]
  simp only [Span.onLine]
  omega

/-- The columns of the first word begin where the content begins. -/
theorem Edit.replacesFirstWord_of_words (h : Text.words line = word :: ws) (number : Int)
    (text : String) : Edit.ReplacesFirstWord ⟨.onLine number (Text.minColumn line)
      (Text.minColumn line + word.length : Nat), text⟩ number line word := by
  have hne : Text.trim line ≠ "" :=
    Text.trim_ne_empty_of_mem_words (h ▸ List.mem_cons_self)
  obtain ⟨rest, hsplit, -, hhead⟩ := Text.trim_eq_of_words h
  have hmin := Text.minColumn_eq hne
  have hline : line.toList = Text.indentation line.toList ++ word.toList ++
      (rest ++ Text.trailing line.toList) := by
    conv => lhs; rw [Text.line_eq hne, hsplit]
    simp only [List.append_assoc]
  refine ⟨Text.indentation line.toList, rest ++ Text.trailing line.toList, hline,
    fun b hb => Text.isBlank_of_mem_indentation hb,
    Text.isWord_of_mem_words (h ▸ List.mem_cons_self), ?_, by rw [hmin], ?_⟩
  · intro a ha
    cases rest with
    | nil => exact Text.isBlank_of_mem_trailing (List.mem_of_mem_head? ha)
    | cons r rest => exact hhead a ha
  · rw [← String.toList_inj, String.toList_ofList]
    have hstop : ((Text.minColumn line + word.length : Nat) : Int).toNat =
        Text.minColumn line + word.toList.length := by
      rw [Int.toNat_natCast, String.length_toList]
    exact Text.toList_replaceColumns hline hmin hstop text

variable {m : Marker} {f : Fix}

theorem Configuration.nearMissFix?_eq_some_iff : c.nearMissFix? line m = some f ↔
    ∃ word ws k, Text.words line = word :: ws ∧ c.lexicon.nearMiss? word = some k ∧
      f = ⟨"Replace " ++ inQuotes word ++ " with " ++ inQuotes k.capitalized, [m],
        [⟨.onLine m.span.startLine (Text.minColumn line)
          (Text.minColumn line + word.length : Nat), k.capitalized⟩], true⟩ := by
  unfold Configuration.nearMissFix?
  cases hwords : Text.words line with
  | nil => simp
  | cons word ws =>
      simp only [Option.map_eq_some_iff, List.cons.injEq]
      constructor
      · rintro ⟨k, hk, rfl⟩
        exact ⟨word, ws, k, ⟨rfl, rfl⟩, hk, rfl⟩
      · rintro ⟨_, _, k, ⟨rfl, rfl⟩, hk, rfl⟩
        exact ⟨k, hk, rfl⟩

/-- The edits for a marker are on its line. Without a keyword on the line they replace its first
word by the keyword that was meant, or nothing at all. -/
theorem Configuration.edit_of_lineFixes (hf : f ∈ c.lineFixes line m) (he : e ∈ f.edits) :
    e.span.startLine = m.span.startLine ∧
      (StepLine.of? c.lexicon line = none →
        (∃ word ws k, Text.words line = word :: ws ∧ c.lexicon.nearMiss? word = some k ∧
          e.text = k.capitalized) ∨ e.span.startColumn = e.span.endColumn) := by
  unfold Configuration.lineFixes at hf
  split at hf
  · rename_i step hstep
    obtain ⟨s, -, rfl⟩ := List.mem_map.mp hf
    rw [List.mem_singleton.mp he]
    refine ⟨rfl, fun hnone => ?_⟩
    rw [hstep] at hnone
    cases hnone
  · rcases List.mem_append.mp hf with hf | hf
    · obtain ⟨word, ws, k, hwords, hk, rfl⟩ :=
        Configuration.nearMissFix?_eq_some_iff.mp (Option.mem_toList.mp hf)
      rw [List.mem_singleton.mp he]
      exact ⟨rfl, fun _ => .inl ⟨word, ws, k, hwords, hk, rfl⟩⟩
    · have hf := Option.mem_toList.mp hf
      unfold Configuration.missingKeywordFix? at hf
      split at hf
      · cases hf
      · split at hf
        · cases hf
        · cases hf
          rw [List.mem_singleton.mp he]
          exact ⟨rfl, fun _ => .inr rfl⟩

end

theorem Configuration.opensWithNearMiss_iff {c : Configuration} {line : String} :
    c.opensWithNearMiss line = true ↔
      ∃ word ws k, Text.words line = word :: ws ∧ c.lexicon.nearMiss? word = some k := by
  unfold Configuration.opensWithNearMiss
  cases Text.words line with
  | nil => simp
  | cons word ws => simp [Option.isSome_iff_exists]

namespace Document
variable {c : Configuration} {d : Document} {i : Nat} {line : String}

/-- A free line of a description has a marker when its first word is a mistyped keyword. -/
theorem exists_marker_iff_of_described (h : d.lines[i]? = some line) (hd : ¬d.InDocString i)
    (hfree : ∀ own, ¬OwnClass c (Text.trim line) own) (hdesc : d.Described c i) :
    (∃ m ∈ d.diagnostics c, m.span.startLine = i + 1) ↔
      ∃ word ws k, Text.words line = word :: ws ∧ c.lexicon.nearMiss? word = some k := by
  obtain ⟨hdescription, hunknown⟩ := classAt?_of_free h hd hfree
  rw [← Text.words_trim, ← Configuration.opensWithNearMiss_iff]
  cases hnear : c.opensWithNearMiss (Text.trim line) with
  | false =>
      have hcls := hdescription.mpr ⟨hdesc, hnear⟩
      rw [exists_marker_iff h hcls]
      simp [Configuration.accepts]
  | true =>
      have hcls := hunknown.mpr fun hall => Bool.false_ne_true (hall.2.symm.trans hnear)
      rw [exists_marker_iff h hcls]
      simp [Configuration.accepts]

/-- A free line opens with no step keyword. -/
theorem stepLine_eq_none (h : d.lines[i]? = some line) (hd : ¬d.InDocString i)
    (hfree : ∀ own, ¬OwnClass c (Text.trim line) own) : StepLine.of? c.lexicon line = none := by
  rw [← StepLine.of?_trim, Option.eq_none_iff_forall_ne_some]
  intro step hstep
  obtain ⟨own, hown⟩ := ownClass_of_stepLine (fence_of_not_inDocString h hd) hstep
  exact hfree own hown

/-- A marker on a free line whose first word is a mistyped keyword comes with its fix. -/
theorem exists_fix_of_nearMiss (h : d.lines[i]? = some line) (hd : ¬d.InDocString i)
    (hfree : ∀ own, ¬OwnClass c (Text.trim line) own) {span : Span}
    (hin : (d.fixSpan span).containsLine (i + 1) = true) {m : Marker} (hm : m ∈ d.diagnostics c)
    (hnumber : m.span.startLine = i + 1) {word : String} {ws : List String} {k : Keyword}
    (hwords : Text.words line = word :: ws) (hk : c.lexicon.nearMiss? word = some k) :
    ∃ f ∈ d.fixes c span [], ∃ e, f.edits = [e] ∧ e.ReplacesFirstWord (i + 1) line word ∧
      e.text = k.capitalized := by
  obtain ⟨f, hfix, hedits⟩ : ∃ f, c.nearMissFix? line m = some f ∧
      f.edits = [⟨.onLine m.span.startLine (Text.minColumn line)
        (Text.minColumn line + word.length : Nat), k.capitalized⟩] :=
    ⟨_, Configuration.nearMissFix?_eq_some_iff.mpr ⟨word, ws, k, hwords, hk, rfl⟩, rfl⟩
  refine ⟨f, List.mem_append_left _ (List.mem_flatMap.mpr
    ⟨m, List.mem_filter.mpr ⟨hm, hnumber ▸ hin⟩, ?_⟩), _, hedits, ?_, rfl⟩
  · rw [hnumber, line_add_one h]
    simp only [Configuration.lineFixes, stepLine_eq_none h hd hfree]
    exact List.mem_append_left _ (Option.mem_toList.mpr hfix)
  · rw [← hnumber]
    exact Edit.replacesFirstWord_of_words hwords m.span.startLine k.capitalized

/-- On a free line the only edits of its first word put the keyword that was meant. -/
theorem nearMiss?_of_replacesFirstWord (h : d.lines[i]? = some line) (hd : ¬d.InDocString i)
    (hfree : ∀ own, ¬OwnClass c (Text.trim line) own) {span : Span} {ms : List Marker} {f : Fix}
    {e : Edit} {word : String} (hf : f ∈ d.fixes c span ms) (he : e ∈ f.edits)
    (hreplaces : e.ReplacesFirstWord (i + 1) line word) :
    ∃ k, c.lexicon.nearMiss? word = some k ∧ e.text = k.capitalized := by
  have hcolumns := hreplaces.startColumn_lt
  obtain ⟨ws, hwords⟩ := hreplaces.words_eq
  rcases List.mem_append.mp hf with hf | hf
  · obtain ⟨m, -, hf⟩ := List.mem_flatMap.mp hf
    obtain ⟨hnumber, hedit⟩ := Configuration.edit_of_lineFixes hf he
    have hline : d.line m.span.startLine = line := by
      obtain ⟨_, _, -, -, -, -, hspan, -⟩ := hreplaces
      rw [← hnumber, hspan]
      exact line_add_one h
    rw [hline] at hedit
    rcases hedit (stepLine_eq_none h hd hfree) with ⟨word', ws', k, hwords', hk, htext⟩ | hempty
    · rw [hwords, List.cons.injEq] at hwords'
      exact ⟨k, hwords'.1 ▸ hk, htext⟩
    · omega
  · obtain ⟨name, -, rfl⟩ := List.mem_map.mp hf
    rw [List.mem_singleton.mp he] at hcolumns
    exact absurd hcolumns (Int.lt_irrefl 1)

/-- A mistyped keyword is the nearest of the step keywords that are near to the word, the first
declared of several, and none when none is near. A free line of a description has a marker
exactly when a fix is proposed that replaces its first word by such a keyword, capitalized, and
nothing else on the line. No fix replaces the first word of such a line by anything else. -/
theorem described_flagged_iff_fixed (c : Configuration) (d : Document) (span : Span) :
    (∀ phrases, (Lexicon.ofPhrases phrases).stepKeywords =
      (phrases.filterMap Phrase.keyword?).filter fun k => k.kind == .step) ∧
    (∀ word k, c.lexicon.nearMiss? word = some k ↔
      Lexicon.NearestMissed word c.lexicon.stepKeywords k) ∧
    (∀ word, c.lexicon.nearMiss? word = none ↔
      ∀ k ∈ c.lexicon.stepKeywords, ∀ n, ¬Lexicon.Misses word k n) ∧
    ∀ (i : Nat) line, d.lines[i]? = some line → ¬d.InDocString i →
      (∀ own, ¬OwnClass c (Text.trim line) own) → d.Described c i →
      (d.fixSpan span).containsLine (i + 1) = true →
      ((∃ m ∈ d.diagnostics c, m.span.startLine = i + 1) ↔
        ∃ f ∈ d.fixes c span [], ∃ e word k, f.edits = [e] ∧
          e.ReplacesFirstWord (i + 1) line word ∧
          Lexicon.NearestMissed word c.lexicon.stepKeywords k ∧ e.text = k.capitalized) ∧
      ∀ f ∈ d.fixes c span [], ∀ e ∈ f.edits, ∀ word, e.ReplacesFirstWord (i + 1) line word →
        ∃ k, Lexicon.NearestMissed word c.lexicon.stepKeywords k ∧ e.text = k.capitalized := by
  refine ⟨Lexicon.stepKeywords_ofPhrases, c.lexicon.nearMiss?_eq_some_iff,
    c.lexicon.nearMiss?_eq_none_iff,
    fun i line h hd hfree hdesc hin => ⟨?_, fun f hf e he word hreplaces => ?_⟩⟩
  · have hmarked := exists_marker_iff_of_described h hd hfree hdesc
    constructor
    · intro hm
      obtain ⟨word, ws, k, hwords, hk⟩ := hmarked.mp hm
      obtain ⟨m, hm, hnumber⟩ := hm
      obtain ⟨f, hf, e, hedits, hreplaces, htext⟩ :=
        exists_fix_of_nearMiss h hd hfree hin hm hnumber hwords hk
      exact ⟨f, hf, e, word, k, hedits, hreplaces,
        (c.lexicon.nearMiss?_eq_some_iff word k).mp hk, htext⟩
    · rintro ⟨f, -, e, word, k, -, hreplaces, hk, -⟩
      obtain ⟨ws, hwords⟩ := hreplaces.words_eq
      exact hmarked.mpr ⟨word, ws, k, hwords, (c.lexicon.nearMiss?_eq_some_iff word k).mpr hk⟩
  · obtain ⟨k, hk, htext⟩ := nearMiss?_of_replacesFirstWord h hd hfree hf he hreplaces
    exact ⟨k, (c.lexicon.nearMiss?_eq_some_iff word k).mp hk, htext⟩

/-- A mistyped keyword in the description of a feature. -/
theorem described_flagged_iff_fixed_gven :
    let c := Configuration.initial.withLexicon
      (.ofPhrases [⟨"", .feature, ["Feature"]⟩, ⟨"", .step, ["Given"]⟩])
    let d : Document := ⟨"inmemory:a", 1, 1, ["Feature: x", "  gven a thing "]⟩
    let line := "  gven a thing "
    d.lines[1]? = some line ∧ ¬d.InDocString 1 ∧
      (∀ own, ¬OwnClass c (Text.trim line) own) ∧ d.Described c 1 ∧
      (d.fixSpan .unset).containsLine 2 = true ∧
      (∃ m ∈ d.diagnostics c, m.span.startLine = 2) ∧
      ∃ f ∈ d.fixes c .unset [], ∃ e word k, f.edits = [e] ∧
        e.ReplacesFirstWord 2 line word ∧
        Lexicon.NearestMissed word c.lexicon.stepKeywords k ∧ e.text = k.capitalized := by
  intro c d line
  have hline : d.lines[1]? = some line := rfl
  have hclass : d.classAt? c 1 = some .unknown := by decide +kernel
  have hdesc : d.Described c 1 :=
    (contextAt_inDescription (c := c) (d := d) (by decide)).mp (by decide +kernel)
  have hin : (d.fixSpan .unset).containsLine 2 = true := by decide
  have hmarked : ∃ m ∈ d.diagnostics c, m.span.startLine = 2 :=
    (exists_marker_iff hline hclass).mpr rfl
  rcases classAt?_cases (c := c) hline with ⟨-, he⟩ | ⟨hd, ⟨own, ho, he⟩ | ⟨hfree, -⟩⟩
  · cases hclass.symm.trans he
  · cases hclass.symm.trans he
    cases ho
  · obtain ⟨-, -, -, hlines⟩ := described_flagged_iff_fixed c d .unset
    obtain ⟨hiff, -⟩ := hlines 1 line hline hd hfree hdesc hin
    exact ⟨hline, hd, hfree, hdesc, hin, hmarked, hiff.mp hmarked⟩

end Document
end Stepwise
