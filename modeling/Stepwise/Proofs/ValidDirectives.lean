import Stepwise.Proofs.AddedDeclarations
import Stepwise.Session.Basic
import Stepwise.Settings.Basic

/-!
# Directives that pass the check of the settings

The settings are refused when a directive is blank or has a space or a tab in it. A line is read
word by word, and words end at any white space, so a directive with other white space in it passes
the check and opens no line, unless another directive happens to be its first word. Where a
directive opens its lines, it still takes the first quoted token of a line for the declared name:
with a quote in the directive that token begins in front of the name.

A directive is usable when its line declares whatever name stands there in double quotes. Of
the directives that pass the check these are the ones that open a line and have no quote.
-/
namespace Stepwise

/-! ## The first quoted token of a line -/

def Step.isQuoteMark (c : Char) : Bool :=
  c == '"' || c == '\''

theorem Step.isQuoteMark_iff {c : Char} :
    isQuoteMark c = true ↔ ∃ e : Delimiter, e.isQuote = true ∧ e.opening = c := by
  rw [isQuoteMark, Bool.or_eq_true, beq_iff_eq, beq_iff_eq]
  constructor
  · intro h
    rcases h with rfl | rfl
    · exact ⟨.double, rfl, rfl⟩
    · exact ⟨.single, rfl, rfl⟩
  · intro h
    obtain ⟨e, he, rfl⟩ := h
    cases e with
    | double => exact .inl rfl
    | single => exact .inr rfl
    | angle => cases he

theorem Step.opening_not_mem {text : List Char} (h : ∀ c ∈ text, isQuoteMark c = false)
    {e : Delimiter} (he : e.isQuote = true) : e.opening ∉ text := by
  intro hmem
  have hmark := isQuoteMark_iff.mpr ⟨e, he, rfl⟩
  rw [h _ hmem] at hmark
  exact Bool.false_ne_true hmark

section
variable {e : Step.Delimiter} (he : e.isQuote = true)
include he

theorem Step.Delimiter.closing_eq_opening : e.closing = e.opening := by
  cases e with
  | double | single => rfl
  | angle => cases he

theorem Step.Delimiter.breaksAngle_opening : breaksAngle e.opening = true := by
  cases e with
  | double | single => rfl
  | angle => cases he

theorem Step.Delimiter.admits_of_ne {c : Char} (hc : c ≠ e.opening) : e.admits c = true := by
  cases e with
  | double | single => exact bne_iff_ne.mpr hc
  | angle => cases he

end

/-- Without a quote there is no quoted token. -/
theorem Step.filter_isQuote_eq_nil {parts : List Piece} (column : Nat)
    (h : ∀ c ∈ textOf parts, isQuoteMark c = false) :
    (placeholdersFrom column parts).filter (·.delimiter.isQuote) = [] := by
  rw [List.filter_eq_nil_iff]
  intro p hp hquote
  obtain ⟨before, after, rfl, -⟩ := mem_placeholdersFrom_iff.mp hp
  have hmem : p.delimiter.opening ∈
      textOf (before ++ .token p.delimiter p.inner.toList :: after) := by
    simp [textOf, Piece.text]
  exact opening_not_mem h hquote hmem

/-- The first quote of a line opens its first quoted token, when it is closed. -/
theorem head?_quotedTokens {line : String} {pre inner rest : List Char} {e : Step.Delimiter}
    (he : e.isQuote = true) (hpre : ∀ c ∈ pre, Step.isQuoteMark c = false)
    (hinner : e.opening ∉ inner)
    (hline : line.toList = pre ++ e.opening :: (inner ++ e.opening :: rest)) :
    (quotedTokens line).head? = some ⟨e, String.ofList inner, pre.length + 1⟩ := by
  have hadmits : ∀ c ∈ inner, e.admits c = true := fun c hc =>
    Step.Delimiter.admits_of_ne he fun heq => hinner (heq ▸ hc)
  have htoken : (Step.Piece.token e inner).text ++ rest =
      e.opening :: (inner ++ e.opening :: rest) := by
    simp [Step.Piece.text, Step.Delimiter.closing_eq_opening he]
  have hstand : Step.StandBefore rest (Step.pieces pre ++ [.token e inner]) := by
    rw [Step.standBefore_append]
    constructor
    · have hfront : Step.StandBefore (e.opening :: (inner ++ e.opening :: rest))
          (Step.pieces pre) := by
        apply (Step.standBefore_pieces pre).append_break (Step.Delimiter.breaksAngle_opening he)
        intro q hq hmem
        exact absurd (Step.mem_of_plain_mem_pieces hmem) (Step.opening_not_mem hpre hq)
      rwa [← htoken, ← List.append_nil (Step.Piece.token e inner).text] at hfront
    · refine ⟨⟨hadmits, fun hangle => ?_⟩, trivial⟩
      rw [hangle] at he
      cases he
  have hpieces : Step.pieces line.toList =
      Step.pieces pre ++ .token e inner :: Step.pieces rest := by
    have hcut := Step.pieces_of_standBefore hstand
    rw [Step.textOf_append, Step.textOf_pieces, List.append_assoc, List.append_assoc] at hcut
    rw [hline, ← htoken]
    simpa [Step.textOf] using hcut
  have hnone : (Step.placeholdersFrom 1 (Step.pieces pre)).filter (·.delimiter.isQuote) = [] := by
    apply Step.filter_isQuote_eq_nil
    rwa [Step.textOf_pieces]
  rw [quotedTokens, Step.placeholders, hpieces, Step.placeholdersFrom_append, List.filter_append,
    hnone, List.nil_append, Step.textOf_pieces, Step.placeholdersFrom, List.filter_cons,
    if_pos he, List.head?_cons, Nat.add_comm]

/-! ## Usable directives -/

namespace Configuration

/-- A line declares a name wherever it stands in a document. -/
def Declares (c : Configuration) (line name : String) : Prop :=
  ∀ (d : Document) (i : Nat), d.lines[i]? = some line →
    ∃ m ∈ d.mentions c, m.lineNumber = i + 1 ∧ m.isDeclaration = true ∧ m.name = name

/-- The line of a directive and any name between double quotes is an import line and declares
that name. The name has no double quote itself. -/
def Usable (c : Configuration) (word : String) : Prop :=
  ∀ name : String, '"' ∉ name.toList →
    c.isImportLine (word ++ " " ++ inQuotes name) = true ∧
      c.Declares (word ++ " " ++ inQuotes name) name

section
variable {c : Configuration} {line word name : String}

theorem declares_iff (h : c.isImportLine line = true) :
    c.Declares line name ↔ ∃ p, (quotedTokens line).head? = some p ∧ p.inner = name := by
  constructor
  · intro hdeclares
    obtain ⟨m, hm, -, hrole, hname⟩ := hdeclares ⟨"", 0, 0, [line]⟩ 0 rfl
    obtain ⟨i, other, hother, -, hmention⟩ := Document.mem_mentions_iff.mp hm
    obtain rfl : other = line := List.mem_singleton.mp (List.mem_of_getElem? hother)
    rw [hrole] at hmention
    cases hmention with
    | declaration _ hfirst => exact ⟨m.token, hfirst, hname⟩
  · intro hfirst d i hline
    obtain ⟨p, hp, hname⟩ := hfirst
    exact ⟨⟨i + 1, p, true⟩, Document.mem_mentions_iff.mpr ⟨i, line, hline, rfl, .declaration h hp⟩,
      rfl, rfl, hname⟩

/-- The first word of a line decides, whatever follows it. -/
theorem isImportLine_append_space (h : Text.trim word ≠ "") (text : String) :
    c.isImportLine (word ++ " " ++ text) = c.isImportLine word := by
  rw [isImportLine, isImportLine, Text.words_append_space]
  cases hwords : Text.words word with
  | nil => exact absurd ((Text.words_eq_nil_iff word).mp hwords) h
  | cons first rest => rfl

/-- A directive with a quote declares the same name in two lines with different names. -/
theorem exists_same_first_token {q : Char} (hq : Step.isQuoteMark q = true)
    (hmem : q ∈ word.toList) :
    ∃ p, (quotedTokens (word ++ " " ++ inQuotes "'")).head? = some p ∧
      (quotedTokens (word ++ " " ++ inQuotes "''")).head? = some p := by
  have hfirst : (word.toList.find? Step.isQuoteMark).isSome = true :=
    List.find?_isSome.mpr ⟨q, hmem, hq⟩
  obtain ⟨mark, hfind⟩ := Option.isSome_iff_exists.mp hfirst
  obtain ⟨hmark, pre, post, hword, hpre⟩ := List.find?_eq_some_iff_append.mp hfind
  obtain ⟨e, he, rfl⟩ := Step.isQuoteMark_iff.mp hmark
  have hpre' : ∀ a ∈ pre, Step.isQuoteMark a = false := fun a ha => by simpa using hpre a ha
  -- both quotes stand in what the two lines have in common after the directive
  have hclosed : e.opening ∈ post ++ [' ', '"', '\''] := by
    cases e with
    | double | single => simp [Step.Delimiter.opening]
    | angle => cases he
  obtain ⟨inner, rest, hsplit, hinner⟩ := List.eq_append_cons_of_mem hclosed
  have hline : ∀ more : List Char, ∀ line : String,
      line.toList = word.toList ++ ([' ', '"', '\''] ++ more) →
      (quotedTokens line).head? = some ⟨e, String.ofList inner, pre.length + 1⟩ := by
    intro more line hline
    have hsame : line.toList = pre ++ e.opening :: (inner ++ e.opening :: (rest ++ more)) := by
      rw [hline, hword, List.append_assoc, List.cons_append, ← List.append_assoc post, hsplit]
      simp
    exact head?_quotedTokens he hpre' hinner hsame
  exact ⟨_, hline ['"'] _ (by simp [inQuotes]), hline ['\'', '"'] _ (by simp [inQuotes])⟩

theorem declarable_of_unquoted (h : ∀ c ∈ word.toList, Step.isQuoteMark c = false)
    (hname : '"' ∉ name.toList) : Declarable word name := by
  constructor
  · apply Step.filter_isQuote_eq_nil
    rwa [Step.textOf_pieces]
  · exact hname
  · intro e he hmem
    exact absurd hmem (Step.opening_not_mem h he)

/-- A directive is usable exactly when it opens a line and has no quote. -/
theorem usable_iff (h : Text.trim word ≠ "") :
    c.Usable word ↔
      c.isImportLine word = true ∧ ∀ a ∈ word.toList, Step.isQuoteMark a = false := by
  constructor
  · intro husable
    have himport := (husable "" (by decide)).1
    rw [isImportLine_append_space h] at himport
    refine ⟨himport, fun a ha => ?_⟩
    by_contra hquote
    rw [Bool.not_eq_false] at hquote
    obtain ⟨p, hfirst, hsecond⟩ := exists_same_first_token hquote ha
    obtain ⟨hline, hdeclares⟩ := husable "'" (by decide)
    obtain ⟨hline', hdeclares'⟩ := husable "''" (by decide)
    obtain ⟨_, hp, hname⟩ := (declares_iff hline).mp hdeclares
    obtain ⟨_, hp', hname'⟩ := (declares_iff hline').mp hdeclares'
    cases hfirst.symm.trans hp
    cases hsecond.symm.trans hp'
    exact absurd (hname.symm.trans hname') (by decide)
  · intro hword name hname
    have hline : c.isImportLine (word ++ " " ++ inQuotes name) = true := by
      rw [isImportLine_append_space h]
      exact hword.1
    refine ⟨hline, (declares_iff hline).mpr ?_⟩
    rw [(declarable_of_unquoted hword.2 hname).quotedTokens_eq]
    exact ⟨_, rfl, rfl⟩

/-- A directive that is a word opens its lines. -/
theorem isImportLine_of_isWord (hmem : word ∈ c.directives) (hword : Text.IsWord word.toList) :
    c.isImportLine word = true := by
  have hwords : Text.words word = [word] := by
    rw [Text.words, Text.wordsOf_of_isWord hword]
    simp
  rw [isImportLine, hwords]
  exact List.any_eq_true.mpr ⟨word, hmem, beq_self_eq_true _⟩

end

end Configuration

/-! ## What the check of the settings accepts -/

namespace Settings

theorem directiveIssues_eq_nil_iff {index : Nat} {words : List String} :
    directiveIssues index words = [] ↔ ∀ word ∈ words, isWord word = true := by
  induction words generalizing index with
  | nil => simp [directiveIssues]
  | cons word words ih =>
      rw [directiveIssues, List.forall_mem_cons, ← @ih (index + 1)]
      cases isWord word <;> simp

/-- What is accepted for a word is not blank and has neither a space nor a tab. -/
theorem isWord_iff {word : String} :
    isWord word = true ↔
      Text.trim word ≠ "" ∧ ∀ a ∈ word.toList, a ≠ ' ' ∧ a ≠ '\t' := by
  simp [isWord]

theorem isWord_of_issues_eq_nil {s : Settings} (h : s.issues = []) {word : String}
    (hmem : word ∈ s.importDirectives) : isWord word = true := by
  rw [issues, List.append_eq_nil_iff] at h
  exact directiveIssues_eq_nil_iff.mp h.2 word hmem

/-- A session that is started with valid settings reads lines by their directives. Each of these
is usable exactly when it opens a line and has no quote, and it opens one when it has no white
space other than the two characters that the check looks for. The line that is proposed for a
missing import is an import line exactly when the first directive opens one. -/
theorem valid_directives_usable_iff {s : Settings} (hvalid : s.issues = [])
    (hsome : s.importDirectives ≠ []) :
    let c := (Session.withDirectives s.importDirectives).configuration
    c.directives = s.importDirectives ∧
    (∀ word ∈ s.importDirectives,
      (c.Usable word ↔
        c.isImportLine word = true ∧ ∀ a ∈ word.toList, Step.isQuoteMark a = false) ∧
      ((∀ a ∈ word.toList, Text.isBlank a = true → a = ' ' ∨ a = '\t') →
        c.isImportLine word = true)) ∧
    ∀ word, s.importDirectives.head? = some word → ∀ name,
      (c.importFix name).edits =
        [⟨.onLine 1 1 1, word ++ " " ++ inQuotes name ++ "\n"⟩] ∧
      c.isImportLine (word ++ " " ++ inQuotes name) = c.isImportLine word := by
  intro c
  have hdirectives : c.directives = s.importDirectives := by
    have hempty : s.importDirectives.isEmpty = false := by simpa using hsome
    simp only [c, Session.withDirectives, hempty]
    rfl
  refine ⟨hdirectives, fun word hmem => ?_, fun word hfirst name => ?_⟩
  · obtain ⟨hblank, hspaces⟩ := isWord_iff.mp (isWord_of_issues_eq_nil hvalid hmem)
    refine ⟨Configuration.usable_iff hblank, fun hwhite => ?_⟩
    apply Configuration.isImportLine_of_isWord (hdirectives ▸ hmem)
    constructor
    · intro hnil
      exact hblank (Text.trim_eq_empty_iff.mpr (by rw [hnil]; rfl))
    · intro a ha
      rw [← Bool.not_eq_true]
      intro ha'
      rcases hwhite a ha ha' with heq | heq
      · exact (hspaces a ha).1 heq
      · exact (hspaces a ha).2 heq
  · obtain ⟨hblank, -⟩ :=
      isWord_iff.mp (isWord_of_issues_eq_nil hvalid (List.mem_of_head? hfirst))
    refine ⟨?_, Configuration.isImportLine_append_space hblank _⟩
    rw [Configuration.importFix, Configuration.declarationWord, List.headD_eq_head?_getD,
      hdirectives, hfirst]
    rfl

/-- Of these two valid directives the first is usable. -/
theorem valid_directives_usable_iff_use :
    let s : Settings := { Settings.default with importDirectives := ["Use", "l'import"] }
    let c := (Session.withDirectives s.importDirectives).configuration
    s.issues = [] ∧ s.importDirectives ≠ [] ∧ c.Usable "Use" ∧ ¬ c.Usable "l'import" := by
  intro s c
  have hvalid : s.issues = [] := by decide +kernel
  have hsome : s.importDirectives ≠ [] := by decide
  obtain ⟨-, husable, -⟩ := valid_directives_usable_iff hvalid hsome
  refine ⟨hvalid, hsome, ?_, ?_⟩
  · have hfirst : "Use" ∈ s.importDirectives := by decide
    obtain ⟨hiff, hopens⟩ := husable "Use" hfirst
    have hletters : "Use".toList = ['U', 's', 'e'] := rfl
    rw [hletters] at hiff hopens
    exact hiff.mpr ⟨hopens (by simp [Text.isBlank]), by simp [Step.isQuoteMark]⟩
  · have hsecond : "l'import" ∈ s.importDirectives := by decide
    intro husable'
    have hunquoted := ((husable "l'import" hsecond).1.mp husable').2
    exact absurd (hunquoted '\'' (by decide)) (by decide)

/-- Two valid directives whose lines do not declare the name: the line of the first is no import
line, on the second the token begins in the directive. -/
theorem valid_directives_unusable :
    (let s : Settings := { Settings.default with importDirectives := ["im\u00a0port"] }
     let c := (Session.withDirectives s.importDirectives).configuration
     let line := "im\u00a0port" ++ " " ++ inQuotes "n"
     let d : Document := ⟨"inmemory:a", 1, 1, [line]⟩
     s.issues = [] ∧ c.directives = ["im\u00a0port"] ∧
       (c.importFix "n").edits = [⟨.onLine 1 1 1, line ++ "\n"⟩] ∧
       c.isImportLine line = false ∧ d.mentions c = []) ∧
    (let s : Settings := { Settings.default with importDirectives := ["import\""] }
     let c := (Session.withDirectives s.importDirectives).configuration
     let line := "import\"" ++ " " ++ inQuotes "n"
     let d : Document := ⟨"inmemory:a", 1, 1, [line]⟩
     s.issues = [] ∧ c.directives = ["import\""] ∧
       (c.importFix "n").edits = [⟨.onLine 1 1 1, line ++ "\n"⟩] ∧
       c.isImportLine line = true ∧ d.mentions c = [⟨1, ⟨.double, " ", 7⟩, true⟩]) := by
  decide +kernel

end Settings
end Stepwise
