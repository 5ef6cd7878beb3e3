import Stepwise.Proofs.BoundedKeywords
import Stepwise.Proofs.FlaggedLines
import Stepwise.Proofs.FoldRanges
import Stepwise.Proofs.SuggestedImports

/-!
# Lines inside docstrings

Fences matter to the classes of lines alone. Folds, links and declarations to add are found
line by line, and a line of a docstring counts for them as it would outside: a heading and a
metatag fold what they own, and an import line and a step line mention what they quote.

Outside docstrings the classes say what to expect of a line. No fold starts on a line that is
blank, free or a step line, and no link lies on one that is blank or free. Inside, the class
says nothing of the kind.
-/
namespace Stepwise

/-! ## Lines by themselves -/

section
variable {c : Configuration} {line t : String}

theorem Configuration.isMetatag_trim (c : Configuration) (line : String) :
    c.isMetatag (Text.trim line) = c.isMetatag line := by
  simp only [isMetatag, Text.words_trim]

theorem Configuration.isImportLine_trim (c : Configuration) (line : String) :
    c.isImportLine (Text.trim line) = c.isImportLine line := by
  simp only [isImportLine, Text.words_trim]

theorem Lexicon.findHeader?_trim (l : Lexicon) (line : String) :
    l.findHeader? (Text.trim line) = l.findHeader? line := by
  simp only [findHeader?, Text.words_trim]

theorem Lexicon.lookup_lowerInput_nil (l : Lexicon) (tag : Language.Tag) :
    ((l.lowerInput []).lookup tag).getD [] = [] := by
  rw [lowerInput]
  induction l.tags with
  | nil => rfl
  | cons first tags ih =>
      rw [List.map_cons, List.lookup_cons]
      cases tag == first with
      | true =>
          rw [List.take_nil]
          rfl
      | false => exact ih

theorem Lexicon.findHeader?_of_blank (l : Lexicon) (hblank : Text.trim line = "") :
    l.findHeader? line = none := by
  rw [findHeader?, (Text.words_eq_nil_iff line).mpr hblank, Bounded.longest?_eq_none,
    Option.map_none]
  intro e _
  rw [l.lookup_lowerInput_nil]
  cases e.lowered with
  | nil => rfl
  | cons word rest => cases rest <;> rfl

theorem Configuration.isMetatag_of_blank (c : Configuration) (hblank : Text.trim line = "") :
    c.isMetatag line = false := by
  rw [isMetatag, (Text.words_eq_nil_iff line).mpr hblank]

theorem Step.Delimiter.isBlank_opening (delimiter : Step.Delimiter) :
    Text.isBlank delimiter.opening = false := by
  cases delimiter <;> decide

theorem quotedTokens_of_blank (hblank : Text.trim line = "") : quotedTokens line = [] := by
  have hwords : Text.wordsOf line.toList = [] := by
    have h := (Text.words_eq_nil_iff line).mpr hblank
    rwa [Text.words, List.map_eq_nil_iff] at h
  rw [List.eq_nil_iff_forall_not_mem]
  intro p hp
  obtain ⟨before, after, hpieces, -⟩ :=
    Step.mem_placeholdersFrom_iff.mp (List.mem_filter.mp hp).1
  have hopening : p.delimiter.opening ∈ line.toList := by
    rw [← Step.textOf_pieces line.toList, hpieces, Step.textOf_append]
    exact List.mem_append_right _ List.mem_cons_self
  have h := Text.isBlank_of_wordsOf_eq_nil hwords _ hopening
  rw [p.delimiter.isBlank_opening] at h
  cases h

theorem Configuration.not_mentions_of_blank {p : Step.Placeholder} {role : Bool}
    (hblank : Text.trim line = "") : ¬c.Mentions line p role := by
  intro h
  have hquoted := h.mem_quotedTokens
  rw [quotedTokens_of_blank hblank] at hquoted
  cases hquoted

/-- A line without a class of its own opens with no mark. -/
theorem unmarked_of_free (hfence : Fence.of? t = none) (hfree : ∀ own, ¬OwnClass c t own) :
    Unmarked t := by
  refine ⟨fun h => hfree _ (.blank h), hfence, ?_, ?_, ?_⟩
  · exact Bool.eq_false_iff.mpr fun h => hfree _ (.comment h)
  · exact Bool.eq_false_iff.mpr fun h => hfree _ (.tag h)
  · exact Bool.eq_false_iff.mpr fun h => hfree _ (.table h)

/-- A line without a class of its own is nothing that a resolver looks for. -/
theorem plain_of_free (hfence : Fence.of? (Text.trim line) = none)
    (hfree : ∀ own, ¬OwnClass c (Text.trim line) own) :
    c.isMetatag line = false ∧ c.isImportLine line = false ∧
      c.lexicon.findHeader? line = none ∧ StepLine.of? c.lexicon line = none := by
  have hplain := unmarked_of_free hfence hfree
  have htag : c.isMetatag (Text.trim line) = false :=
    Bool.eq_false_iff.mpr fun h => hfree _ (.metatag hplain h)
  have himport : c.isImportLine (Text.trim line) = false :=
    Bool.eq_false_iff.mpr fun h => hfree _ (.importLine hplain htag h)
  have hheader : c.lexicon.findHeader? (Text.trim line) = none :=
    Option.eq_none_iff_forall_ne_some.mpr fun k h => hfree _ (.header hplain htag himport h)
  have hstep : StepLine.of? c.lexicon (Text.trim line) = none :=
    Option.eq_none_iff_forall_ne_some.mpr fun s h =>
      hfree _ (.step hplain htag himport hheader h)
  rw [← c.isMetatag_trim, ← c.isImportLine_trim, ← c.lexicon.findHeader?_trim,
    ← StepLine.of?_trim]
  exact ⟨htag, himport, hheader, hstep⟩

end

namespace Document
variable {c : Configuration} {d : Document} {i : Nat} {line : String} {f : Fold} {l : Link}

/-! ## What lies on a line -/

theorem mem_folds_at_iff : f ∈ d.folds c ∧ f.start = i + 1 ↔
    ∃ e, (d.HeadingFold c i e ∨ d.BlockFold c i e) ∧ f = .ofPositions i e := by
  constructor
  · rintro ⟨hf, hstart⟩
    rcases mem_folds_iff.mp hf with hheading | hblock
    · obtain ⟨h, e, hfold, rfl⟩ := mem_headingFolds_iff.mp hheading
      obtain rfl : h = i := Nat.succ.inj hstart
      exact ⟨e, .inl hfold, rfl⟩
    · obtain ⟨m, e, -, rfl⟩ := mem_blockFolds hblock
      obtain rfl : m = i := Nat.succ.inj hstart
      exact ⟨e, .inr (mem_blockFolds_iff.mp hblock), rfl⟩
  · rintro ⟨e, hfold, rfl⟩
    refine ⟨mem_folds_iff.mpr (hfold.imp ?_ mem_blockFolds_iff.mpr), rfl⟩
    exact fun hheading => mem_headingFolds_iff.mpr ⟨i, e, hheading, rfl⟩

theorem mem_links_at_iff (hline : d.lines[i]? = some line) :
    l ∈ d.links c ∧ l.span.startLine = i + 1 ↔
      ∃ p role, c.Mentions line p role ∧ l = (⟨i + 1, p, role⟩ : ImportMention).link c := by
  constructor
  · rintro ⟨hl, hstart⟩
    obtain ⟨⟨n, p, role⟩, hm, rfl⟩ := List.mem_map.mp hl
    obtain ⟨j, line', hline', hnumber, hmention⟩ := mem_mentions_iff.mp hm
    obtain rfl : n = j + 1 := hnumber
    obtain rfl : j = i := by
      have hsame : ((j + 1 : Nat) : Int) = i + 1 := hstart
      omega
    obtain rfl : line' = line := Option.some.inj (hline'.symm.trans hline)
    exact ⟨p, role, hmention, rfl⟩
  · rintro ⟨p, role, hmention, rfl⟩
    exact ⟨List.mem_map_of_mem (mem_mentions_iff.mpr ⟨i, line, hline, rfl, hmention⟩), rfl⟩

theorem not_foldAt (hheader : c.lexicon.findHeader? line = none) (htag : c.isMetatag line = false)
    (hline : d.lines[i]? = some line) : ∀ f ∈ d.folds c, f.start ≠ i + 1 := by
  intro f hf hstart
  obtain ⟨e, hfold, -⟩ := mem_folds_at_iff.mp ⟨hf, hstart⟩
  rcases hfold with ⟨⟨line', hline', hopens⟩, -⟩ | hblock
  · rw [hline, Option.some.injEq] at hline'
    rw [← hline', hheader] at hopens
    cases hopens
  · rw [BlockFold] at hblock
    obtain ⟨line', hline', hopens⟩ := hblock.1.1.1
    rw [hline, Option.some.injEq] at hline'
    rw [← hline', htag] at hopens
    cases hopens

/-! ## What the classes promise -/

theorem ownClass_or_free (hline : d.lines[i]? = some line) {cls : LineClass}
    (hcls : d.classAt? c i = some cls) (hout : cls ≠ .docString) :
    OwnClass c (Text.trim line) cls ∨
      (Fence.of? (Text.trim line) = none ∧ ∀ own, ¬OwnClass c (Text.trim line) own) := by
  rcases classAt?_cases (c := c) hline with ⟨-, hc⟩ | ⟨hfenced, ⟨own, hown, hc⟩ | ⟨hfree, -⟩⟩
  · exact absurd (Option.some.inj (hcls.symm.trans hc)) hout
  · obtain rfl : own = cls := Option.some.inj (hc.symm.trans hcls)
    exact .inl hown
  · exact .inr ⟨fence_of_not_inDocString hline hfenced, hfree⟩

/-- Outside docstrings no fold starts on a line that is blank, free or a step line. -/
theorem no_fold_of_class (hline : d.lines[i]? = some line) {cls : LineClass}
    (hcls : d.classAt? c i = some cls) (hin : cls ∈ [.blank, .description, .unknown, .step]) :
    ∀ f ∈ d.folds c, f.start ≠ i + 1 := by
  have hout : cls ≠ .docString := by
    rintro rfl
    simp at hin
  rcases ownClass_or_free hline hcls hout with hown | ⟨hfence, hfree⟩
  · cases hown with
    | blank hblank =>
        exact not_foldAt (c.lexicon.findHeader?_of_blank hblank) (c.isMetatag_of_blank hblank) hline
    | step _ htag _ hheader _ =>
        rw [c.isMetatag_trim] at htag
        rw [c.lexicon.findHeader?_trim] at hheader
        exact not_foldAt hheader htag hline
    | _ => simp at hin
  · obtain ⟨htag, -, hheader, -⟩ := plain_of_free hfence hfree
    exact not_foldAt hheader htag hline

/-- Outside docstrings no link lies on a line that is blank or free. -/
theorem no_link_of_class (hline : d.lines[i]? = some line) {cls : LineClass}
    (hcls : d.classAt? c i = some cls) (hin : cls ∈ [.blank, .description, .unknown]) :
    ∀ l ∈ d.links c, l.span.startLine ≠ i + 1 := by
  have hout : cls ≠ .docString := by
    rintro rfl
    simp at hin
  intro l hl hstart
  obtain ⟨p, role, hmention, -⟩ := (mem_links_at_iff hline).mp ⟨hl, hstart⟩
  rcases ownClass_or_free hline hcls hout with hown | ⟨hfence, hfree⟩
  · cases hown with
    | blank hblank => exact c.not_mentions_of_blank hblank hmention
    | _ => simp at hin
  · obtain ⟨-, himport, -, hstep⟩ := plain_of_free hfence hfree
    have hrole := hmention.isImportLine_or_isStepLine
    rw [himport, hstep] at hrole
    rcases hrole with hrole | hrole <;> cases hrole

/-! ## Names of declarations to add -/

/-- A declaration to add names a token of some line that refers. -/
theorem exists_reference_of_addsImport {span : Span} {ms : List Marker} {f : Fix}
    (hf : f ∈ d.fixes c span ms) (hadds : f.addsImport = true) :
    ∃ (i : Nat) (line : String) (p : Step.Placeholder), d.lines[i]? = some line ∧
      c.Mentions line p false ∧ f = c.importFix p.inner := by
  have hproposed := List.mem_filter.mpr ⟨hf, hadds⟩
  rw [filter_addsImport_fixes, importFixes_eq] at hproposed
  obtain ⟨name, hname, rfl⟩ := List.mem_map.mp hproposed
  obtain ⟨⟨n, p, role⟩, hm, ⟨hrole, -⟩, rfl⟩ := exists_mention_of_undeclared hname
  obtain ⟨i, line, hline, -, hmention⟩ := mem_mentions_iff.mp hm
  obtain rfl : role = false := hrole
  exact ⟨i, line, p, hline, hmention, rfl⟩

theorem mem_declaredNames_iff_mentions {key : String} : key ∈ d.declaredNames c ↔
    ∃ (i : Nat) (line : String) (p : Step.Placeholder), d.lines[i]? = some line ∧
      c.Mentions line p true ∧ Text.fold p.inner = key := by
  simp only [declaredNames, List.mem_map, List.mem_filter, and_assoc]
  exact exists_mention_iff (P := fun m => Text.fold m.name = key)

theorem exists_importFix_iff {span : Span} {ms : List Marker} {key : String} :
    (∃ name, c.importFix name ∈ d.fixes c span ms ∧ Text.fold name = key) ↔
      key ∈ (undeclaredNames (d.fixSpan span) (d.declaredNames c) (d.mentions c)).map
        Text.fold := by
  rw [List.mem_map]
  refine exists_congr fun name => and_congr_left fun _ => ⟨fun h => ?_, fun h => ?_⟩
  · exact (importFix_of_mem_fixes h rfl).2
  · have hadds : c.importFix name ∈ (d.fixes c span ms).filter Fix.addsImport := by
      rw [filter_addsImport_fixes, importFixes_eq]
      exact List.mem_map_of_mem h
    exact (List.mem_filter.mp hadds).1

theorem exists_reference_iff {span : Span} {key : String} :
    (∃ m ∈ d.mentions c, m.RefersIn span ∧ Text.fold m.name = key) ↔
      ∃ (i : Nat) (line : String) (p : Step.Placeholder), d.lines[i]? = some line ∧
        c.Mentions line p false ∧ span.containsLine (i + 1 : Nat) = true ∧
        Text.fold p.inner = key := by
  have hrefers : ∀ m : ImportMention, m.RefersIn span ∧ Text.fold m.name = key ↔
      m.isDeclaration = false ∧ span.containsLine m.lineNumber = true ∧ Text.fold m.name = key :=
    fun m => ⟨fun ⟨⟨hrole, hspan⟩, hkey⟩ => ⟨hrole, hspan, hkey⟩,
      fun ⟨hrole, hspan, hkey⟩ => ⟨⟨hrole, hspan⟩, hkey⟩⟩
  simp only [hrefers]
  exact exists_mention_iff
    (P := fun m => span.containsLine m.lineNumber = true ∧ Text.fold m.name = key)

/-- Fences count for classes alone. A fold starts on a line, fenced or not, exactly when the
line is a heading or a metatag by itself that folds what it owns, and the links on a line are
the tokens that it mentions by itself. Only outside docstrings do classes rule out folds and
links. A declaration to add names a quoted token outside docstrings, unless a line of a
docstring refers to that name, and names are proposed exactly for the references in the span,
fenced or not, that no line declares, fenced or not. -/
theorem docString_lines_read_alone (c : Configuration) (d : Document) (span : Span)
    (ms : List Marker) :
    (∀ (i : Nat) (line : String), d.lines[i]? = some line →
      (∀ f, f ∈ d.folds c ∧ f.start = i + 1 ↔
        ∃ e, (d.HeadingFold c i e ∨ d.BlockFold c i e) ∧ f = .ofPositions i e) ∧
      (∀ l, l ∈ d.links c ∧ l.span.startLine = i + 1 ↔
        ∃ p role, c.Mentions line p role ∧ l = (⟨i + 1, p, role⟩ : ImportMention).link c)) ∧
    (∀ (i : Nat) (line : String) (cls : LineClass), d.lines[i]? = some line →
      d.classAt? c i = some cls →
      (cls ∈ [.blank, .description, .unknown, .step] → ∀ f ∈ d.folds c, f.start ≠ i + 1) ∧
      (cls ∈ [.blank, .description, .unknown] → ∀ l ∈ d.links c, l.span.startLine ≠ i + 1)) ∧
    (∀ f ∈ d.fixes c span ms, f.addsImport = true → ∃ name, f = c.importFix name ∧
      ((∀ (i : Nat) (line : String) (p : Step.Placeholder), d.lines[i]? = some line →
          d.classAt? c i = some .docString → c.Mentions line p false → p.inner ≠ name) →
        ∃ (i : Nat) (line : String) (p : Step.Placeholder), d.lines[i]? = some line ∧
          d.classAt? c i ≠ some .docString ∧ p ∈ quotedTokens line ∧ p.inner = name)) ∧
    (∀ key, (∃ name, c.importFix name ∈ d.fixes c span ms ∧ Text.fold name = key) ↔
      (¬∃ (i : Nat) (line : String) (p : Step.Placeholder), d.lines[i]? = some line ∧
        c.Mentions line p true ∧ Text.fold p.inner = key) ∧
      ∃ (i : Nat) (line : String) (p : Step.Placeholder), d.lines[i]? = some line ∧
        c.Mentions line p false ∧ (d.fixSpan span).containsLine (i + 1 : Nat) = true ∧
        Text.fold p.inner = key) := by
  refine ⟨fun i line hline => ⟨fun f => mem_folds_at_iff, fun l => mem_links_at_iff hline⟩,
    fun i line cls hline hcls => ⟨no_fold_of_class hline hcls, no_link_of_class hline hcls⟩,
    fun f hf hadds => ?_, fun key => ?_⟩
  · obtain ⟨i, line, p, hline, hmention, rfl⟩ := exists_reference_of_addsImport hf hadds
    refine ⟨p.inner, rfl, fun hfree => ?_⟩
    refine ⟨i, line, p, hline, fun hcls => ?_, hmention.mem_quotedTokens, rfl⟩
    exact hfree i line p hline hcls hmention rfl
  · rw [exists_importFix_iff, mem_map_fold_undeclaredNames, exists_reference_iff,
      mem_declaredNames_iff_mentions]

/-- A step line above a docstring that holds a metatag and a step line, and words below it. The
docstring folds and is linked, and both names are proposed. -/
theorem docString_lines_read_alone_steps :
    let c := Configuration.ofImports [⟨"ab", "/ab", 0⟩, ⟨"cd", "/cd", 0⟩]
    let d : Document := ⟨"inmemory:a", 1, 1,
      ["Given \"cd\"", "\"\"\"", "try", "  Given \"ab\"", "\"\"\"", "words"]⟩
    (d.classAt? c 2 = some .docString ∧ ∃ e, d.HeadingFold c 2 e ∨ d.BlockFold c 2 e) ∧
      (d.classAt? c 3 = some .docString ∧ ∃ p role, c.Mentions "  Given \"ab\"" p role) ∧
      (d.classAt? c 5 = some .unknown ∧ (∀ f ∈ d.folds c, f.start ≠ 6) ∧
        ∀ l ∈ d.links c, l.span.startLine ≠ 6) ∧
      (c.importFix "cd" ∈ d.fixes c .unset [] ∧
        ∃ (i : Nat) (line : String) (p : Step.Placeholder), d.lines[i]? = some line ∧
          d.classAt? c i ≠ some .docString ∧ p ∈ quotedTokens line ∧ p.inner = "cd") ∧
      (c.importFix "ab" ∈ d.fixes c .unset [] ∧
        ∃ (i : Nat) (line : String) (p : Step.Placeholder), d.lines[i]? = some line ∧
          c.Mentions line p false ∧ (d.fixSpan .unset).containsLine (i + 1 : Nat) = true ∧
          Text.fold p.inner = Text.fold "ab") := by
  intro c d
  obtain ⟨hlines, hclasses, hnames, hkeys⟩ := docString_lines_read_alone c d .unset []
  have hall : d.classes c =
      [.step, .docString, .docString, .docString, .docString, .unknown] := by
    decide +kernel
  have hmentions : d.mentions c =
      [⟨1, ⟨.double, "cd", 7⟩, false⟩, ⟨4, ⟨.double, "ab", 9⟩, false⟩] := by
    decide +kernel
  have hfold : (⟨3, 4⟩ : Fold) ∈ d.folds c := by decide +kernel
  have hlink : (⟨.onLine 4 9 13, some ⟨"file:///ab", 0⟩, "ab"⟩ : Link) ∈ d.links c := by
    rw [links, hmentions]
    decide +kernel
  have hfixes : d.importFixes c (d.fixSpan .unset) = [c.importFix "cd", c.importFix "ab"] := by
    rw [importFixes_eq, declaredNames, hmentions]
    decide +kernel
  have houtside : c.importFix "cd" ∈ d.fixes c .unset [] :=
    List.mem_append_right _ (hfixes ▸ List.mem_cons_self)
  have hinside : c.importFix "ab" ∈ d.fixes c .unset [] :=
    List.mem_append_right _ (hfixes ▸ List.mem_cons_of_mem _ List.mem_cons_self)
  have hclass : ∀ i, d.classAt? c i =
      [.step, .docString, .docString, .docString, .docString, .unknown][i]? := by
    intro i
    rw [classAt?, hall]
  obtain ⟨e, hends, -⟩ := ((hlines 2 _ rfl).1 _).mp ⟨hfold, rfl⟩
  obtain ⟨p, role, hmention, -⟩ := ((hlines 3 _ rfl).2 _).mp ⟨hlink, rfl⟩
  obtain ⟨hnoFold, hnoLink⟩ := hclasses 5 _ _ rfl (hclass 5)
  -- no line of the docstring quotes the name on the step line above it
  have hother : ∀ line ∈ ["\"\"\"", "try", "  Given \"ab\""], ∀ p ∈ quotedTokens line,
      p.inner ≠ "cd" := by
    decide +kernel
  obtain ⟨name, hname, hquotes⟩ := hnames _ houtside (c.addsImport_importFix "cd")
  obtain rfl : "cd" = name := Configuration.eq_of_importFix_title (congrArg Fix.title hname)
  refine ⟨⟨hclass 2, e, hends⟩, ⟨hclass 3, p, role, hmention⟩,
    ⟨hclass 5, hnoFold (by simp), hnoLink (by simp)⟩, ⟨houtside, hquotes ?_⟩,
    hinside, ((hkeys (Text.fold "ab")).mp ⟨"ab", hinside, rfl⟩).2⟩
  intro i line p hline hcls hmention
  rw [hclass] at hcls
  refine hother line ?_ p hmention.mem_quotedTokens
  match i with
  | 0 | 5 => cases hcls
  | 1 | 2 | 3 | 4 =>
      obtain rfl := Option.some.inj hline
      simp
  | i + 6 => cases hline

/-- A docstring with a metatag, an import line and a step line in it. All of its lines are
docstring, and yet a fold starts in it, two links lie in it, and what is named there alone is
proposed. -/
theorem docString_in_reach :
    let c := Configuration.ofImports [⟨"ab", "/ab", 0⟩, ⟨"cd", "/cd", 0⟩]
    let d : Document := ⟨"inmemory:a", 1, 1,
      ["\"\"\"", "try", "  import \"ab\"", "Given \"cd\"", "\"\"\""]⟩
    (∀ cls ∈ d.classes c, cls = .docString) ∧ d.folds c = [⟨2, 3⟩] ∧
      d.links c = [⟨.onLine 3 10 14, some ⟨"file:///ab", 0⟩, "ab"⟩,
        ⟨.onLine 4 7 11, some ⟨"file:///cd", 0⟩, "cd"⟩] ∧
      (d.fixes c .unset []).filter Fix.addsImport = [c.importFix "cd"] := by
  decide +kernel

end Document
end Stepwise
