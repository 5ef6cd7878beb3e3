import Stepwise.Proofs.DeclaredLexicon

/-!
# Typing a registered step

The shape of a key is taken from the key as it is written. The shape of a typed line
is taken from its words joined by single spaces. Placeholders are found before the
words are, and a quoted one may hold white space of any sort, so the two shapes agree
when respacing a text moves no placeholder.

Only angle brackets can be in the way. They hold no ASCII white space except the
vertical tab, but any other white space, and a gap inside them that is respaced takes
the placeholder apart. A step whose key has no white space between angle brackets is
accepted when it is typed after a keyword; one that has some may be flagged.
-/
namespace Stepwise.Step

open Text (isBlank Respaced)

/-- A text with `marker` in place of every placeholder. -/
def withMarkers (marker cs : List Char) : List Char :=
  (pieces cs).flatMap fun
    | .token _ _ => marker
    | .plain c => [c]

theorem toList_replacePlaceholders (line marker : String) :
    (replacePlaceholders line marker).toList = withMarkers marker.toList line.toList :=
  String.toList_ofList

section
variable {marker cs rest inner : List Char} {c : Char} {d : Delimiter}

theorem pieces_token (h : tokenAt? cs = some (d, inner, rest)) :
    pieces cs = .token d inner :: pieces rest := by
  cases cs with
  | nil => cases h
  | cons c cs =>
      rw [pieces]
      split
      · rename_i h'
        rw [h] at h'
        cases h'
        rfl
      · rename_i h'
        rw [h] at h'
        cases h'

theorem pieces_plain (h : tokenAt? (c :: cs) = none) :
    pieces (c :: cs) = .plain c :: pieces cs := by
  rw [pieces]
  split
  · rename_i h'
    rw [h] at h'
    cases h'
  · rfl

theorem withMarkers_nil : withMarkers marker [] = [] := by
  rw [withMarkers, pieces]
  rfl

theorem withMarkers_token (h : tokenAt? cs = some (d, inner, rest)) :
    withMarkers marker cs = marker ++ withMarkers marker rest := by
  rw [withMarkers, pieces_token h, List.flatMap_cons]
  rfl

theorem withMarkers_plain (h : tokenAt? (c :: cs) = none) :
    withMarkers marker (c :: cs) = c :: withMarkers marker cs := by
  rw [withMarkers, pieces_plain h, List.flatMap_cons]
  rfl

end

section
variable {cs inner rest : List Char} {c : Char}

theorem upToAngle_inside (hc : breaksAngle c = false) (h : upToAngle cs = some (inner, rest)) :
    upToAngle (c :: cs) = some (c :: inner, rest) := by
  simp [upToAngle, hc, h]

theorem upToAngle_close (h : upToAngle cs = none) : upToAngle ('>' :: cs) = some ([], cs) := by
  simp [upToAngle, breaksAngle, h]

theorem upToAngle_open (hc : c ≠ '>') (h : upToAngle cs = none) : upToAngle (c :: cs) = none := by
  simp [upToAngle, hc, h]

end

/-! ## White space opens and closes nothing -/

section
variable {bs : List Char} (hb : ∀ b ∈ bs, isBlank b = true)
include hb

theorem ne_of_blank {c : Char} (hc : isBlank c = false) : ∀ b ∈ bs, b ≠ c := by
  rintro b hmem rfl
  rw [hb b hmem] at hc
  cases hc

theorem pieces_blank_append (cs : List Char) : pieces (bs ++ cs) = bs.map .plain ++ pieces cs := by
  induction bs with
  | nil => rfl
  | cons b bs ih =>
      have hnone : tokenAt? (b :: (bs ++ cs)) = none := by
        have h1 : b ≠ '"' := ne_of_blank hb (by decide) b List.mem_cons_self
        have h2 : b ≠ '\'' := ne_of_blank hb (by decide) b List.mem_cons_self
        have h3 : b ≠ '<' := ne_of_blank hb (by decide) b List.mem_cons_self
        simp [tokenAt?, h1, h2, h3]
      rw [List.cons_append, pieces_plain hnone, ih fun c hc => hb c (List.mem_cons_of_mem b hc)]
      rfl

theorem withMarkers_blank_append (marker cs : List Char) :
    withMarkers marker (bs ++ cs) = bs ++ withMarkers marker cs := by
  rw [withMarkers, pieces_blank_append hb, List.flatMap_append, List.flatMap_map]
  congr 1
  exact List.flatMap_singleton' bs

theorem upToQuote_blank_append {q : Char} (hq : isBlank q = false) (cs : List Char) :
    upToQuote q (bs ++ cs) = (upToQuote q cs).map fun r => (bs ++ r.1, r.2) := by
  induction bs with
  | nil => simp
  | cons b bs ih =>
      have hne : b ≠ q := ne_of_blank hb hq b List.mem_cons_self
      rw [List.cons_append, upToQuote, ih fun c hc => hb c (List.mem_cons_of_mem b hc)]
      simp [hne, Function.comp_def]

/-- What is read between angle brackets from white space on holds that white space. -/
theorem blank_mem_upToAngle {cs inner rest : List Char} (hne : bs ≠ [])
    (h : upToAngle (bs ++ cs) = some (inner, rest)) : ∃ b ∈ inner, isBlank b = true := by
  obtain ⟨b, bs, rfl⟩ := List.exists_cons_of_ne_nil hne
  have hclose : b ≠ '>' := ne_of_blank hb (by decide) b List.mem_cons_self
  rw [List.cons_append, upToAngle] at h
  split at h
  · cases h
  split at h
  · cases h
    exact ⟨b, List.mem_cons_self, hb b List.mem_cons_self⟩
  · simp [hclose] at h

end

/-! ## Placeholders of a respaced text -/

section
variable {cs ds : List Char} (h : Respaced cs ds)
include h

theorem upToQuote_respaced (q : Char) (hq : isBlank q = false) :
    (upToQuote q cs = none ∧ upToQuote q ds = none) ∨
      ∃ inner rest inner' rest', upToQuote q cs = some (inner, rest) ∧
        upToQuote q ds = some (inner', rest') ∧ Respaced rest rest' := by
  induction h with
  | ending hb =>
      have hnone := upToQuote_blank_append hb hq []
      rw [List.append_nil] at hnone
      exact .inl ⟨hnone, rfl⟩
  | @char c cs ds _ hr ih =>
      by_cases hc : c = q
      · subst hc
        exact .inr ⟨[], cs, [], ds, by simp [upToQuote], by simp [upToQuote], hr⟩
      · rcases ih with ⟨h1, h2⟩ | ⟨i, r, i', r', h1, h2, hr⟩
        · exact .inl ⟨by simp [upToQuote, hc, h1], by simp [upToQuote, hc, h2]⟩
        · exact .inr ⟨c :: i, r, c :: i', r', by simp [upToQuote, hc, h1],
            by simp [upToQuote, hc, h2], hr⟩
  | @gap bs cs ds _ hb hr ih =>
      have hspace : ∀ b ∈ [' '], isBlank b = true := List.forall_mem_singleton.mpr (by decide)
      have hgap := upToQuote_blank_append hspace hq ds
      rw [List.singleton_append] at hgap
      rw [upToQuote_blank_append hb hq, hgap]
      rcases ih with ⟨h1, h2⟩ | ⟨i, r, i', r', h1, h2, hr⟩
      · exact .inl ⟨by simp [h1], by simp [h2]⟩
      · exact .inr ⟨bs ++ i, r, [' '] ++ i', r', by simp [h1], by simp [h2], hr⟩

/-- Between angle brackets a respaced text reads the same, as long as no white space is
read there. -/
theorem upToAngle_respaced :
    (upToAngle cs = none → upToAngle ds = none) ∧
      ∀ inner rest, upToAngle cs = some (inner, rest) → (∀ c ∈ inner, isBlank c = false) →
        ∃ rest', upToAngle ds = some (inner, rest') ∧ Respaced rest rest' := by
  induction h with
  | @ending bs hb =>
      refine ⟨fun _ => rfl, fun inner rest hread hsolid => ?_⟩
      cases bs with
      | nil => cases hread
      | cons b bs =>
          rw [← List.append_nil (b :: bs)] at hread
          obtain ⟨a, ha, hblank⟩ := blank_mem_upToAngle hb (by simp) hread
          rw [hsolid a ha] at hblank
          cases hblank
  | @gap bs cs ds hne hb _ _ =>
      refine ⟨fun _ => by simp [upToAngle, breaksAngle], fun inner rest hread hsolid => ?_⟩
      obtain ⟨a, ha, hblank⟩ := blank_mem_upToAngle hb hne hread
      rw [hsolid a ha] at hblank
      cases hblank
  | @char c cs ds _ hr ih =>
      obtain ⟨ihnone, ihsome⟩ := ih
      by_cases hbreak : breaksAngle c = true
      · simp [upToAngle, hbreak]
      rw [Bool.not_eq_true] at hbreak
      cases hread : upToAngle cs with
      | none =>
          by_cases hc : c = '>'
          · subst hc
            rw [upToAngle_close hread, upToAngle_close (ihnone hread)]
            refine ⟨fun hnone => (by cases hnone), fun inner rest hi _ => ?_⟩
            cases hi
            exact ⟨ds, rfl, hr⟩
          · rw [upToAngle_open hc hread, upToAngle_open hc (ihnone hread)]
            exact ⟨fun _ => rfl, fun _ _ hi _ => by cases hi⟩
      | some read =>
          obtain ⟨i, r⟩ := read
          rw [upToAngle_inside hbreak hread]
          refine ⟨fun hnone => (by cases hnone), fun inner rest hi hsolid => ?_⟩
          cases hi
          obtain ⟨r', hr', hrest⟩ := ihsome i r hread fun a ha =>
            hsolid a (List.mem_cons_of_mem c ha)
          exact ⟨r', upToAngle_inside hbreak hr', hrest⟩

/-- A placeholder at the head of a text is one at the head of the respaced text, unless
white space is read between angle brackets. -/
theorem tokenAt?_respaced (c : Char) :
    (tokenAt? (c :: cs) = none → tokenAt? (c :: ds) = none) ∧
      ∀ d inner rest, tokenAt? (c :: cs) = some (d, inner, rest) →
        (d = .angle → ∀ a ∈ inner, isBlank a = false) →
        ∃ inner' rest', tokenAt? (c :: ds) = some (d, inner', rest') ∧ Respaced rest rest' := by
  by_cases h1 : c = '"'
  · subst h1
    rcases upToQuote_respaced h '"' (by decide) with ⟨hc, hd⟩ | ⟨i, r, i', r', hc, hd, hr⟩
    · simp [tokenAt?, hc, hd]
    · simp [tokenAt?, hc, hd, hr]
  by_cases h2 : c = '\''
  · subst h2
    rcases upToQuote_respaced h '\'' (by decide) with ⟨hc, hd⟩ | ⟨i, r, i', r', hc, hd, hr⟩
    · simp [tokenAt?, hc, hd]
    · simp [tokenAt?, hc, hd, hr]
  by_cases h3 : c = '<'
  · subst h3
    obtain ⟨hnone, hsome⟩ := upToAngle_respaced h
    cases hc : upToAngle cs with
    | none => simp [tokenAt?, hc, hnone hc]
    | some found =>
        obtain ⟨name, r⟩ := found
        refine ⟨by simp [tokenAt?, hc], fun d inner rest ht hsolid => ?_⟩
        have htoken : (Delimiter.angle, name, r) = (d, inner, rest) := by
          simpa [tokenAt?, hc] using ht
        cases htoken
        obtain ⟨r', hr', hrest⟩ := hsome name r hc (hsolid rfl)
        exact ⟨name, r', by simp [tokenAt?, hr'], hrest⟩
  · simp [tokenAt?, h1, h2, h3]

end

/-- No placeholder in angle brackets holds white space. -/
def SolidAngles (cs : List Char) : Prop :=
  ∀ inner, .token .angle inner ∈ pieces cs → ∀ c ∈ inner, isBlank c = false

/-- Respacing a text respaces what is left when its placeholders are replaced. -/
theorem respaced_withMarkers {cs ds : List Char} (h : Respaced cs ds) (hs : SolidAngles cs)
    {m : Char} (hm : isBlank m = false) :
    Respaced (withMarkers [' ', m, ' '] cs) (withMarkers [' ', m, ' '] ds) := by
  have hspace : ∀ b ∈ [' '], isBlank b = true := List.forall_mem_singleton.mpr (by decide)
  induction hn : cs.length using Nat.strong_induction_on generalizing cs ds with
  | _ n ih =>
      subst hn
      cases h with
      | ending hb =>
          have hkeep := withMarkers_blank_append hb [' ', m, ' '] []
          rw [List.append_nil, withMarkers_nil, List.append_nil] at hkeep
          rw [hkeep, withMarkers_nil]
          exact .ending hb
      | @gap bs cs ds hne hb hr =>
          have hkeep := withMarkers_blank_append hspace [' ', m, ' '] ds
          rw [List.singleton_append] at hkeep
          rw [withMarkers_blank_append hb, hkeep]
          refine .gap hne hb (ih cs.length ?_ hr ?_ rfl)
          · simpa [List.length_pos_iff] using hne
          · intro inner hi
            exact hs inner (by rw [pieces_blank_append hb]; exact List.mem_append_right _ hi)
      | @char c cs ds hc hr =>
          obtain ⟨hnone, hsome⟩ := tokenAt?_respaced hr c
          cases ht : tokenAt? (c :: cs) with
          | none =>
              rw [withMarkers_plain ht, withMarkers_plain (hnone ht)]
              refine .char hc (ih cs.length (Nat.lt_succ_self _) hr ?_ rfl)
              intro inner hi
              exact hs inner (by rw [pieces_plain ht]; exact List.mem_cons_of_mem _ hi)
          | some t =>
              obtain ⟨d, inner, rest⟩ := t
              have hlen := tokenAt?_length ht
              obtain ⟨inner', rest', ht', hrest⟩ := hsome d inner rest ht fun hd a ha =>
                hs inner (by rw [pieces_token ht, hd]; exact List.mem_cons_self) a ha
              rw [withMarkers_token ht, withMarkers_token ht']
              have hsolid : SolidAngles rest := fun i hi =>
                hs i (by rw [pieces_token ht]; exact List.mem_cons_of_mem _ hi)
              have hlater := ih rest.length (by omega) hrest hsolid rfl
              have hmark := Respaced.char hm (.gap (List.cons_ne_nil ' ' []) hspace hlater)
              have hall := Respaced.gap (List.cons_ne_nil ' ' []) hspace hmark
              exact hall

/-- Joining the words of a text keeps its shape. -/
theorem shape_joinWords_words {text : String} (h : SolidAngles text.toList) :
    shape (Text.joinWords (Text.words text)) = shape text := by
  have hmarker : (" " ++ marker ++ " ").toList = [' ', '\x00', ' '] := by decide
  have hwords : Text.wordsOf (withMarkers [' ', '\x00', ' '] text.toList) =
      Text.wordsOf (withMarkers [' ', '\x00', ' '] (Text.joinWords (Text.words text)).toList) := by
    have hindent : ∀ b ∈ Text.indentation text.toList, isBlank b = true :=
      fun _ => Text.isBlank_of_mem_indentation
    have hsplit := Text.indentation_append_trimStart text.toList
    have hsolid : SolidAngles (Text.trimStart text.toList) := by
      intro inner hi
      apply h inner
      rw [← hsplit, pieces_blank_append hindent]
      exact List.mem_append_right _ hi
    have hrespaced := Text.respaced_intercalate_wordsOf text.toList
    rw [← Text.map_toList_words, ← Text.toList_joinWords] at hrespaced
    rw [← (respaced_withMarkers hrespaced hsolid (by decide)).wordsOf_eq]
    conv => lhs; rw [← hsplit]
    rw [withMarkers_blank_append hindent, Text.wordsOf_append_left hindent]
  simp only [shape, shapeWords, Text.words, toList_replacePlaceholders, hmarker, hwords]

theorem mem_placeholdersFrom {parts : List Piece} {d : Delimiter} {inner : List Char}
    (h : .token d inner ∈ parts) (column : Nat) :
    ∃ start, ⟨d, String.ofList inner, start⟩ ∈ placeholdersFrom column parts := by
  induction parts generalizing column with
  | nil => cases h
  | cons part parts ih =>
      cases part with
      | plain c =>
          have h : .token d inner ∈ parts := by simpa using h
          obtain ⟨start, hs⟩ := ih h (column + 1)
          exact ⟨start, hs⟩
      | token d' inner' =>
          rcases List.mem_cons.mp h with heq | h
          · cases heq
            exact ⟨column, List.mem_cons_self⟩
          · obtain ⟨start, hs⟩ := ih h (column + inner'.length + 2)
            exact ⟨start, List.mem_cons_of_mem _ hs⟩

theorem solidAngles_of_placeholders {text : String}
    (h : ∀ p ∈ placeholders text, p.delimiter = .angle → ∀ c ∈ p.inner.toList, isBlank c = false) :
    SolidAngles text.toList := by
  intro inner hi c hc
  obtain ⟨start, hs⟩ := mem_placeholdersFrom hi 1
  exact h _ hs rfl c (by rwa [String.toList_ofList])

end Stepwise.Step

namespace Stepwise

/-- A line that opens with a step keyword is a free line nowhere. -/
theorem ownClass_of_stepLine {c : Configuration} {t : String} {s : StepLine}
    (hf : Fence.of? t = none) (hs : StepLine.of? c.lexicon t = some s) :
    ∃ own, OwnClass c t own := by
  by_cases he : t = ""
  · exact ⟨_, .blank he⟩
  cases h1 : Text.startsWith "#" t with
  | true => exact ⟨_, .comment h1⟩
  | false =>
  cases h2 : Text.startsWith "@" t with
  | true => exact ⟨_, .tag h2⟩
  | false =>
  cases h3 : Text.startsWith "|" t with
  | true => exact ⟨_, .table h3⟩
  | false =>
  have hu : Unmarked t := ⟨he, hf, h1, h2, h3⟩
  cases h4 : c.isMetatag t with
  | true => exact ⟨_, .metatag hu h4⟩
  | false =>
  cases h5 : c.isImportLine t with
  | true => exact ⟨_, .importLine hu h4 h5⟩
  | false =>
  cases h6 : c.lexicon.findHeader? t with
  | some k => exact ⟨_, .header hu h4 h5 h6⟩
  | none => exact ⟨_, .step hu h4 h5 h6 hs⟩

namespace Document
variable {c : Configuration} {d : Document} {i : Nat} {line : String} {found : StepDefinition}

/-- A line that invokes a step is in order in every class that it can have. -/
theorem accepts_of_invokedStep? (h : d.lines[i]? = some line) {cls : LineClass}
    (hcls : d.classAt? c i = some cls) (hfound : c.invokedStep? line = some found) :
    c.accepts cls line = true := by
  cases cls with
  | unknown =>
      obtain ⟨step, hstep, -⟩ := Configuration.invokedStep?_eq_some_iff.mp hfound
      rw [← StepLine.of?_trim] at hstep
      rcases classAt?_cases (c := c) h with ⟨-, he⟩ | ⟨hd, ⟨own, ho, he⟩ | ⟨hno, -⟩⟩
      · cases hcls.symm.trans he
      · cases hcls.symm.trans he
        cases ho
      · obtain ⟨own, ho⟩ := ownClass_of_stepLine (fence_of_not_inDocString h hd) hstep
        exact absurd ho (hno own)
  | step => rw [Configuration.accepts, hfound, Option.isSome_some]
  | _ => rfl

/-- A line that invokes a step is in order, wherever it stands. -/
theorem not_flagged_of_invokedStep? (hc : c.Reachable) (h : d.lines[i]? = some line)
    (hfound : c.invokedStep? line = some found) : ¬d.Flagged c i line := by
  obtain ⟨cls, hcls, -⟩ := lineStep_at (c := c) h
  rw [← accepts_eq_false_iff hc h hcls, accepts_of_invokedStep? h hcls hfound]
  exact nofun

end Document

namespace Configuration

/-- A registered step is accepted when it is typed after a keyword, provided that no
placeholder in angle brackets of its key holds white space: a document of that one line
has no markers, and the text after the keyword finds a step of the same shape. -/
theorem typed_step_accepted {c : Configuration} (hc : c.Reachable) (hl : c.lexicon.Declared)
    {k found : Keyword} (hk : k ∈ c.lexicon.stepKeywords) {step : StepDefinition}
    (hstep : step ∈ c.steps.all) (hkey : Text.trim step.key ≠ "")
    (hfind : c.lexicon.find? (Text.words (k.text ++ " " ++ step.key)) = some found)
    (hsize : found.size = k.size)
    (hangle : ∀ p ∈ Step.placeholders step.key, p.delimiter = .angle →
      ∀ a ∈ p.inner.toList, Text.isBlank a = false) :
    (∀ d : Document, d.lines = [k.text ++ " " ++ step.key] → d.diagnostics c = []) ∧
      ∃ s known, StepLine.of? c.lexicon (k.text ++ " " ++ step.key) = some s ∧
        c.findStep? s.text = some known ∧ Step.shape known.key = Step.shape step.key := by
  have hwords : Text.words (k.text ++ " " ++ step.key) = k.words ++ Text.words step.key := by
    rw [Text.words_append_space, Keyword.text, Text.words_joinWords (hl.isWord hk)]
  have hline : StepLine.of? c.lexicon (k.text ++ " " ++ step.key) =
      some ⟨found, Text.joinWords (Text.words step.key)⟩ := by
    rw [StepLine.of?, hfind, Option.map_some, hsize, hwords, Keyword.size, List.drop_left]
  have hshape := Step.shape_joinWords_words (Step.solidAngles_of_placeholders hangle)
  obtain ⟨known, hknown, hsame⟩ : ∃ known,
      c.findStep? (Text.joinWords (Text.words step.key)) = some known ∧
        Step.shape known.key = Step.shape step.key := by
    rw [hc.findStep?_eq_find?, hshape]
    cases hfound : c.steps.all.find? fun s => Step.shape s.key == Step.shape step.key with
    | none =>
        have := List.find?_eq_none.mp hfound step hstep
        simp at this
    | some known => exact ⟨known, rfl, by simpa using List.find?_some hfound⟩
  refine ⟨fun d hd => ?_, _, known, hline, hknown, hsame⟩
  have htext : (Text.joinWords (Text.words step.key)).isEmpty = false := by
    rw [← Bool.not_eq_true, String.isEmpty_iff]
    intro he
    have hnil : Text.words (Text.joinWords (Text.words step.key)) = [] := by
      rw [he]
      rfl
    rw [Text.words_joinWords fun _ => Text.isWord_of_mem_words, Text.words_eq_nil_iff] at hnil
    exact hkey hnil
  have hinvoked : c.invokedStep? (k.text ++ " " ++ step.key) = some known := by
    simp [invokedStep?, hline, htext, hknown]
  rw [List.eq_nil_iff_forall_not_mem]
  intro m hm
  obtain ⟨i, line, hi, hflagged, _⟩ := (Document.mem_diagnostics_iff hc m).mp hm
  have hline : line = k.text ++ " " ++ step.key := by
    rw [hd] at hi
    exact List.mem_singleton.mp (List.mem_of_getElem? hi)
  subst hline
  exact Document.not_flagged_of_invokedStep? hc hi hinvoked hflagged

def given : Keyword := ⟨["Given"], .undetermined, .step⟩

def ofStep (step : StepDefinition) : Configuration :=
  (initial.withLexicon (.ofPhrases [⟨"", .step, ["Given"]⟩])).withSteps (.ofList [step])

theorem reachable_ofStep (step : StepDefinition) : (ofStep step).Reachable :=
  .withSteps _ (.withLexicon _ .initial)

theorem declared_ofStep (step : StepDefinition) : (ofStep step).lexicon.Declared :=
  ⟨_, rfl⟩

theorem stepKeywords_ofStep (step : StepDefinition) :
    (ofStep step).lexicon.stepKeywords = [given] := by
  change (Lexicon.ofPhrases [⟨"", .step, ["Given"]⟩]).stepKeywords = [given]
  decide +kernel

/-- A step whose key has white space of many sorts, none of it between angle brackets. -/
def spacedStep : StepDefinition :=
  { StepDefinition.blank with key := "I  see \u2003\"a\u00a0 b\" <n>\u00a0" }

/-- White space inside quotes and around placeholders does no harm. -/
theorem typed_step_accepted_spaced :
    let d : Document := ⟨"", 0, 0, [given.text ++ " " ++ spacedStep.key]⟩
    (ofStep spacedStep).Reachable ∧ (ofStep spacedStep).lexicon.Declared ∧
      d.diagnostics (ofStep spacedStep) = [] := by
  intro d
  have hc := reachable_ofStep spacedStep
  have hl := declared_ofStep spacedStep
  have hk : given ∈ (ofStep spacedStep).lexicon.stepKeywords := by
    rw [stepKeywords_ofStep]
    exact List.mem_singleton_self given
  have hstep : spacedStep ∈ (ofStep spacedStep).steps.all := List.mem_singleton_self spacedStep
  have hkey : Text.trim spacedStep.key ≠ "" := by decide +kernel
  have hfind : (ofStep spacedStep).lexicon.find?
      (Text.words (given.text ++ " " ++ spacedStep.key)) = some given := by decide +kernel
  have hsolid : ((Step.placeholders spacedStep.key).all fun p =>
      p.delimiter != .angle || p.inner.toList.all fun a => !Text.isBlank a) = true := by
    decide +kernel
  have hangle : ∀ p ∈ Step.placeholders spacedStep.key, p.delimiter = .angle →
      ∀ a ∈ p.inner.toList, Text.isBlank a = false := by
    intro p hp hd a ha
    have hone := List.all_eq_true.mp hsolid p hp
    rw [hd, bne_self_eq_false, Bool.false_or] at hone
    simpa using List.all_eq_true.mp hone a ha
  exact ⟨hc, hl, (typed_step_accepted hc hl hk hstep hkey hfind rfl hangle).1 d rfl⟩

/-- A step whose key has a no-break space between angle brackets. -/
def brokenStep : StepDefinition :=
  { StepDefinition.blank with key := "<a\u00a0b>" }

/-- A line made of a keyword and the key of a registered step is flagged: its words joined
by spaces have no placeholder where the key has one. -/
theorem typed_step_flagged :
    let c := ofStep brokenStep
    let line := given.text ++ " " ++ brokenStep.key
    c.Reachable ∧ c.lexicon.Declared ∧ given ∈ c.lexicon.stepKeywords ∧
      brokenStep ∈ c.steps.all ∧ Text.trim brokenStep.key ≠ "" ∧
      c.lexicon.find? (Text.words line) = some given ∧
      (⟨"", 0, 0, [line]⟩ : Document).diagnostics c =
        [⟨Severity.error, "Syntax error", ⟨1, 1, 1, 12⟩⟩] ∧
      c.findStep? (Text.joinWords ((Text.words line).drop given.size)) = none := by
  refine ⟨reachable_ofStep brokenStep, declared_ofStep brokenStep, ?_,
    List.mem_singleton_self brokenStep, ?_, ?_, ?_, ?_⟩
  · rw [stepKeywords_ofStep]
    exact List.mem_singleton_self given
  · decide +kernel
  · decide +kernel
  · decide +kernel
  · decide +kernel

end Configuration
end Stepwise
