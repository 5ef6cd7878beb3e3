import Stepwise.Proofs.JoinedWords
import Stepwise.Proofs.SuggestedImports

/-!
# Declarations that are added

A declaration to add is a directive and a name between double quotes, on a new first line.
It settles what it was proposed for when the name is read back from that line as its first
quoted token. The name may come from a token in single quotes and hold double quotes, which
end it early; and a quote in the directive may be closed by one in the name. Where neither
happens the line declares the name and no other.

One line more does not change which names are proposed, nor their order: the lines of all
mentions move down together, and one more declared name takes away those that fold like it.
Proposed names fold differently, so it takes away one.
-/
namespace Stepwise

/-! ## One quoted token after a word -/

/-- A name that is read back from between double quotes after a word: the word has no quoted
token, the name no double quote, and no quote of the word stands further on in the line. -/
structure Declarable (word name : String) : Prop where
  unquoted : quotedTokens word = []
  admitted : '"' ∉ name.toList
  apart : ∀ e : Step.Delimiter, e.isQuote = true → e.opening ∈ word.toList →
    e.opening ∉ (inQuotes name).toList

namespace Step

/-- No bracket is reached across a character that breaks a token. -/
theorem upToAngle_append_break {b : Char} (hb : breaksAngle b = true) {cs : List Char}
    (h : upToAngle cs = none) (tail : List Char) : upToAngle (cs ++ b :: tail) = none := by
  induction cs with
  | nil => exact upToAngle_cons_eq_none_iff.mpr (.inl hb)
  | cons c cs ih =>
      rw [upToAngle_cons_eq_none_iff] at h
      rw [List.cons_append, upToAngle_cons_eq_none_iff]
      exact h.imp_right fun h => ⟨h.1, ih h.2⟩

/-- The pieces of a text stand before a character that breaks a token, unless a quote that
stands alone among them is closed there or after it. -/
theorem StandBefore.append_break {b : Char} (hb : breaksAngle b = true) {parts : List Piece}
    {tail : List Char} (h : StandBefore [] parts)
    (hapart : ∀ e : Delimiter, e.isQuote = true → .plain e.opening ∈ parts →
      e.opening ∉ b :: tail) :
    StandBefore (b :: tail) parts := by
  induction parts with
  | nil => trivial
  | cons part parts ih =>
      obtain ⟨hpart, hparts⟩ := h
      rw [List.append_nil] at hpart
      refine ⟨?_, ih hparts fun e he hmem => hapart e he (List.mem_cons_of_mem part hmem)⟩
      cases part with
      | token d inner => exact ⟨hpart.1, fun hd => upToAngle_append_break hb (hpart.2 hd) tail⟩
      | plain c =>
          rintro e rfl
          have halone := hpart e rfl
          cases he : e.isQuote with
          | true =>
              have htail := hapart e he List.mem_cons_self
              rw [Delimiter.read_quote_eq_none_iff he] at halone ⊢
              rw [List.mem_append, not_or]
              exact ⟨halone, htail⟩
          | false =>
              obtain rfl : e = .angle := by cases e <;> first | rfl | cases he
              exact upToAngle_append_break hb halone tail

theorem Delimiter.opening_ne_space (e : Delimiter) : e.opening ≠ ' ' := by
  cases e <;> decide

theorem mem_of_plain_mem_pieces {cs : List Char} {a : Char} (h : .plain a ∈ pieces cs) :
    a ∈ cs := by
  rw [← textOf_pieces cs]
  exact List.mem_flatMap.mpr ⟨_, h, List.mem_singleton_self a⟩

end Step

theorem textOf_spaced (name : String) :
    Step.textOf [.plain ' ', .token .double name.toList] = ' ' :: (inQuotes name).toList := by
  simp [Step.textOf, Step.Piece.text, inQuotes, Step.Delimiter.opening, Step.Delimiter.closing]

theorem Declarable.pieces_eq {word name : String} (h : Declarable word name) :
    Step.pieces (word ++ " " ++ inQuotes name).toList =
      Step.pieces word.toList ++ [.plain ' ', .token .double name.toList] := by
  have hline : (word ++ " " ++ inQuotes name).toList =
      Step.textOf (Step.pieces word.toList ++ [.plain ' ', .token .double name.toList]) := by
    rw [Step.textOf_append, Step.textOf_pieces, textOf_spaced, String.toList_append,
      String.toList_append, List.append_assoc]
    rfl
  have hword : Step.StandBefore (' ' :: (inQuotes name).toList) (Step.pieces word.toList) :=
    (Step.standBefore_pieces word.toList).append_break rfl fun e he hmem =>
      List.not_mem_cons_of_ne_of_not_mem (e.opening_ne_space)
        (h.apart e he (Step.mem_of_plain_mem_pieces hmem))
  have hspaced : Step.StandBefore [] [.plain ' ', .token .double name.toList] := by
    refine ⟨?_, ⟨fun a ha => ?_, nofun⟩, trivial⟩
    · intro e he
      cases e <;> cases he
    · exact bne_iff_ne.mpr fun hquote => h.admitted (hquote ▸ ha)
  rw [hline]
  refine Step.pieces_textOf_iff.mpr (Step.standBefore_append.mpr ⟨?_, hspaced⟩)
  rwa [List.append_nil, textOf_spaced]

theorem Declarable.quotedTokens_eq {word name : String} (h : Declarable word name) :
    quotedTokens (word ++ " " ++ inQuotes name) = [⟨.double, name, word.length + 2⟩] := by
  have hword : (Step.placeholdersFrom 1 (Step.pieces word.toList)).filter
      (·.delimiter.isQuote) = [] := h.unquoted
  have hcolumn : 1 + word.length + 1 = word.length + 2 := by omega
  rw [quotedTokens, Step.placeholders, h.pieces_eq, Step.placeholdersFrom_append,
    List.filter_append, hword, Step.textOf_pieces, List.nil_append, String.length_toList]
  simp only [Step.placeholdersFrom, hcolumn, String.ofList_toList]
  rfl

/-- The line of a directive and a name declares the name and nothing else. -/
theorem Configuration.mentionsOn_declaration {c : Configuration} {word name : String}
    (hword : word ∈ c.directives) (hone : Text.words word = [word]) (h : Declarable word name)
    (number : Nat) :
    c.isImportLine (word ++ " " ++ inQuotes name) = true ∧
      c.mentionsOn number (word ++ " " ++ inQuotes name) =
        [⟨number, ⟨.double, name, word.length + 2⟩, true⟩] := by
  have himport : c.isImportLine (word ++ " " ++ inQuotes name) = true := by
    rw [isImportLine, Text.words_append_space, hone]
    exact List.any_eq_true.mpr ⟨word, hword, beq_self_eq_true _⟩
  refine ⟨himport, ?_⟩
  rw [mentionsOn, if_pos himport, h.quotedTokens_eq]
  rfl

/-! ## Names that are still proposed -/

section
variable {span span' : Span} {declared declared' : List String} {ms : List ImportMention}
  {key : String}

/-- One more declared name takes away the names that fold like it. -/
theorem undeclaredNames_more (h : ∀ k, k ∈ declared' ↔ k = key ∨ k ∈ declared) :
    undeclaredNames span declared' ms =
      (undeclaredNames span declared ms).filter fun name => Text.fold name != key := by
  induction ms generalizing declared declared' with
  | nil => rfl
  | cons m ms ih =>
      by_cases hm : m.RefersIn span ∧ Text.fold m.name ∉ declared
      · rw [undeclaredNames_cons_of_new hm.1 hm.2]
        by_cases hkey : Text.fold m.name = key
        · have hold : ¬(m.RefersIn span ∧ Text.fold m.name ∉ declared') :=
            fun hnew => hnew.2 ((h _).mpr (.inl hkey))
          rw [undeclaredNames_cons_of_not hold, List.filter_cons_of_neg (by simp [hkey])]
          refine ih fun k => ?_
          rw [h, List.mem_cons, hkey, or_self_left]
        · have hnew : Text.fold m.name ∉ declared' := by
            rw [h, not_or]
            exact ⟨hkey, hm.2⟩
          rw [undeclaredNames_cons_of_new hm.1 hnew, List.filter_cons_of_pos (by simpa using hkey)]
          congr 1
          refine ih fun k => ?_
          rw [List.mem_cons, List.mem_cons, h, or_left_comm]
      · have hnot : ¬(m.RefersIn span ∧ Text.fold m.name ∉ declared') :=
          fun hnew => hm ⟨hnew.1, fun hmem => hnew.2 ((h _).mpr (.inr hmem))⟩
        rw [undeclaredNames_cons_of_not hm, undeclaredNames_cons_of_not hnot]
        exact ih h

theorem undeclaredNames_down (h : ∀ m ∈ ms, span.containsLine m.lineNumber = true)
    (h' : ∀ m ∈ ms, span'.containsLine m.down.lineNumber = true) :
    undeclaredNames span' declared (ms.map .down) = undeclaredNames span declared ms := by
  induction ms generalizing declared with
  | nil => rfl
  | cons m ms ih =>
      obtain ⟨hm, hms⟩ := List.forall_mem_cons.mp h
      obtain ⟨hm', hms'⟩ := List.forall_mem_cons.mp h'
      have hsame : m.down.RefersIn span' ↔ m.RefersIn span :=
        ⟨fun hr => ⟨hr.isReference, hm⟩, fun hr => ⟨hr.isReference, hm'⟩⟩
      rw [List.map_cons]
      by_cases hr : m.RefersIn span ∧ Text.fold m.name ∉ declared
      · rw [undeclaredNames_cons_of_new hr.1 hr.2,
          undeclaredNames_cons_of_new (hsame.mpr hr.1) hr.2, ← ih hms hms']
        rfl
      · have hr' : ¬(m.down.RefersIn span' ∧ Text.fold m.down.name ∉ declared) :=
          fun hnew => hr ⟨hsame.mp hnew.1, hnew.2⟩
        rw [undeclaredNames_cons_of_not hr, undeclaredNames_cons_of_not hr', ih hms hms']

end

theorem filter_fold_ne {before after : List String} {name : String}
    (h : ((before ++ name :: after).map Text.fold).Nodup) :
    (before ++ name :: after).filter (fun other => Text.fold other != Text.fold name) =
      before ++ after := by
  rw [List.map_append, List.map_cons, List.nodup_middle, List.nodup_cons, ← List.map_append] at h
  have hothers : ∀ other ∈ before ++ after, (Text.fold other != Text.fold name) = true :=
    fun other hother => bne_iff_ne.mpr fun hsame => h.1 (hsame ▸ List.mem_map_of_mem hother)
  rw [List.forall_mem_append] at hothers
  rw [List.filter_append, List.filter_cons_of_neg (by simp), List.filter_eq_self.mpr hothers.1,
    List.filter_eq_self.mpr hothers.2]

/-- Every line of a document is in a span. -/
def Span.Holds (s : Span) (d : Document) : Prop :=
  ∀ i < d.lineCount, s.containsLine (i + 1 : Nat) = true

namespace Document
variable {c : Configuration} {d : Document} {span span' : Span} {ms : List Marker}
  {name : String}

theorem holds_fixSpan_unset (d : Document) : (d.fixSpan .unset).Holds d := by
  intro i hi
  rw [fixSpan, if_pos ⟨rfl, rfl⟩, Span.containsLine, Bool.and_eq_true, decide_eq_true_eq,
    decide_eq_true_eq]
  dsimp only
  omega

theorem containsLine_of_mem_mentions (hspan : span.Holds d) {m : ImportMention}
    (hm : m ∈ d.mentions c) : span.containsLine m.lineNumber = true := by
  obtain ⟨i, line, hline, hnumber, -⟩ := mem_mentions_iff.mp hm
  rw [hnumber]
  exact hspan i (List.getElem?_eq_some_iff.mp hline).1

/-- A declaration on top takes away the proposed names that fold like it. -/
theorem importFixes_withFirstLine {line : String} {p : Step.Placeholder}
    (hdeclares : c.mentionsOn 1 line = [⟨1, p, true⟩]) (hspan : span.Holds d)
    (hspan' : span'.Holds (d.withFirstLine line)) :
    (d.withFirstLine line).importFixes c span' =
      ((undeclaredNames span (d.declaredNames c) (d.mentions c)).filter
        fun name => Text.fold name != Text.fold p.inner).map c.importFix := by
  have hmentions : (d.withFirstLine line).mentions c =
      ⟨1, p, true⟩ :: (d.mentions c).map .down := by
    rw [mentions_withFirstLine, hdeclares]
    rfl
  have hdeclared : (d.withFirstLine line).declaredNames c =
      Text.fold p.inner :: d.declaredNames c := by
    rw [declaredNames, hmentions, List.filter_cons_of_pos rfl, List.filter_map, List.map_cons,
      List.map_map]
    rfl
  have hin : ∀ m ∈ d.mentions c, span'.containsLine m.down.lineNumber = true := by
    intro m hm
    refine containsLine_of_mem_mentions (c := c) hspan' ?_
    rw [hmentions]
    exact List.mem_cons_of_mem _ (List.mem_map_of_mem hm)
  have htop : ¬((⟨1, p, true⟩ : ImportMention).RefersIn span' ∧
      Text.fold p.inner ∉ (d.withFirstLine line).declaredNames c) :=
    fun h => Bool.noConfusion h.1.isReference
  have hnames : undeclaredNames span' ((d.withFirstLine line).declaredNames c)
      ((d.withFirstLine line).mentions c) =
        (undeclaredNames span (d.declaredNames c) (d.mentions c)).filter
          fun name => Text.fold name != Text.fold p.inner := by
    rw [hmentions, undeclaredNames_cons_of_not htop,
      undeclaredNames_down (fun m hm => containsLine_of_mem_mentions hspan hm) hin, hdeclared]
    exact undeclaredNames_more fun k => List.mem_cons
  exact congrArg (List.map c.importFix) hnames

theorem text_withFirstLine (h : d.lines ≠ []) (line : String) :
    (d.withFirstLine line).text = line ++ "\n" ++ d.text :=
  String.intercalate_cons_of_ne_nil h

theorem lines_ne_nil_of_undeclared {declared : List String}
    (h : name ∈ undeclaredNames span declared (d.mentions c)) : d.lines ≠ [] := by
  obtain ⟨m, hm, -, -⟩ := exists_mention_of_undeclared h
  obtain ⟨i, line, hline, -⟩ := mem_mentions_iff.mp hm
  exact List.ne_nil_of_mem (List.mem_of_getElem? hline)

/-- Adding a proposed declaration settles it. The line goes before the first one; it is an import
line and declares the proposed name alone, and over the whole document the other declarations
are proposed as before. The directive is a word, and the name can be read back from between
double quotes after it. -/
theorem importFix_settles {word : String} (hword : c.directives.head? = some word)
    (hone : Text.words word = [word]) (hwhole : (d.fixSpan span).Holds d) {f : Fix}
    (hf : f ∈ d.fixes c span ms) (htitle : f.title = "Add import " ++ inQuotes name)
    (hname : Declarable word name) :
    ∃ line, f.edits = [⟨.onLine 1 1 1, line ++ "\n"⟩] ∧
      (d.withFirstLine line).text = line ++ "\n" ++ d.text ∧ c.isImportLine line = true ∧
      (∃ p, c.mentionsOn 1 line = [⟨1, p, true⟩] ∧ p.inner = name) ∧
      ∃ before after, (d.fixes c span ms).filter Fix.addsImport = before ++ f :: after ∧
        f ∉ before ++ after ∧
        ∀ span' ms', ((d.withFirstLine line).fixSpan span').Holds (d.withFirstLine line) →
          ((d.withFirstLine line).fixes c span' ms').filter Fix.addsImport = before ++ after := by
  obtain ⟨rfl, hmem⟩ := importFix_of_mem_fixes hf htitle
  obtain ⟨before, after, hnames⟩ := List.append_of_mem hmem
  have hdistinct := nodup_map_fold_undeclaredNames (d.fixSpan span) (d.declaredNames c)
    (d.mentions c)
  rw [hnames] at hdistinct
  obtain ⟨himport, hdeclares⟩ :=
    Configuration.mentionsOn_declaration (List.mem_of_head? hword) hone hname 1
  have hedits : (c.importFix name).edits =
      [⟨.onLine 1 1 1, word ++ " " ++ inQuotes name ++ "\n"⟩] := by
    rw [Configuration.importFix, Configuration.declarationWord, List.headD_eq_head?_getD, hword]
    rfl
  refine ⟨_, hedits, text_withFirstLine (lines_ne_nil_of_undeclared hmem) _, himport,
    ⟨_, hdeclares, rfl⟩, before.map c.importFix, after.map c.importFix, ?_, ?_, ?_⟩
  · rw [filter_addsImport_fixes, importFixes_eq, hnames, List.map_append, List.map_cons]
  · rw [← List.map_append]
    intro hagain
    obtain ⟨other, hother, hsame⟩ := List.mem_map.mp hagain
    obtain rfl := Configuration.eq_of_importFix_title (congrArg Fix.title hsame)
    exact (List.nodup_cons.mp (List.nodup_middle.mp hdistinct.of_map)).1 hother
  · intro span' ms' hspan'
    rw [filter_addsImport_fixes, importFixes_withFirstLine hdeclares hwhole hspan', hnames,
      filter_fold_ne hdistinct, List.map_append]

/-- A name in single quotes, after a directive with an apostrophe. -/
theorem importFix_settles_apostrophe :
    let c := (Configuration.ofImports [⟨"users", "/users", 0⟩, ⟨"base", "/base", 0⟩]).withDirectives
      ["l'import"]
    let d : Document := ⟨"inmemory:a", 1, 1, ["Given 'Users' \"base\" \"USERS\""]⟩
    c.directives.head? = some "l'import" ∧ Text.words "l'import" = ["l'import"] ∧
      (d.fixSpan .unset).Holds d ∧ c.importFix "Users" ∈ d.fixes c .unset [] ∧
      Declarable "l'import" "Users" ∧
      ∃ line before after, (c.importFix "Users").edits = [⟨.onLine 1 1 1, line ++ "\n"⟩] ∧
        c.isImportLine line = true ∧
        (d.fixes c .unset []).filter Fix.addsImport = before ++ c.importFix "Users" :: after ∧
        ((d.withFirstLine line).fixes c .unset []).filter Fix.addsImport = before ++ after := by
  intro c d
  have hword : c.directives.head? = some "l'import" := rfl
  have hone : Text.words "l'import" = ["l'import"] := by decide
  have hwhole := holds_fixSpan_unset d
  have hf : c.importFix "Users" ∈ d.fixes c .unset [] := by decide +kernel
  have hname : Declarable "l'import" "Users" := by
    refine ⟨by decide +kernel, by decide, fun e _ => ?_⟩
    cases e <;> decide
  obtain ⟨line, hedits, -, himport, -, before, after, hnames, -, hrest⟩ :=
    importFix_settles hword hone hwhole hf rfl hname
  exact ⟨hword, hone, hwhole, hf, hname, line, before, after, hedits, himport, hnames,
    hrest .unset [] (holds_fixSpan_unset _)⟩

/-- A name with a double quote is cut short when it is read back, and proposed again. So is a
name after a directive with a quote. -/
theorem importFix_proposed_again :
    (let c := Configuration.ofImports [⟨"a\"b", "/a", 0⟩]
     let d : Document := ⟨"inmemory:a", 1, 1, ["Given 'a\"b'"]⟩
     let line := "import \"a\"b\""
     c.directives.head? = some "import" ∧ Text.words "import" = ["import"] ∧
       (d.fixes c .unset []).filter Fix.addsImport = [c.importFix "a\"b"] ∧
       (c.importFix "a\"b").edits = [⟨.onLine 1 1 1, line ++ "\n"⟩] ∧
       c.mentionsOn 1 line = [⟨1, ⟨.double, "a", 8⟩, true⟩] ∧
       ((d.withFirstLine line).fixes c .unset []).filter Fix.addsImport =
         [c.importFix "a\"b"]) ∧
    (let c := (Configuration.ofImports [⟨"ab", "/a", 0⟩]).withDirectives ["import\""]
     let d : Document := ⟨"inmemory:a", 1, 1, ["Given \"ab\""]⟩
     let line := "import\" \"ab\""
     c.directives.head? = some "import\"" ∧ Text.words "import\"" = ["import\""] ∧
       (d.fixes c .unset []).filter Fix.addsImport = [c.importFix "ab"] ∧
       (c.importFix "ab").edits = [⟨.onLine 1 1 1, line ++ "\n"⟩] ∧
       ((d.withFirstLine line).fixes c .unset []).filter Fix.addsImport =
         [c.importFix "ab"]) := by
  decide +kernel

end Document

end Stepwise
