import Stepwise.Proofs.MentionedNames
import Stepwise.Proofs.RepairedLines

/-!
# Imports that a document lacks

The declarations to add are worked out in one pass over the mentions. A reference is passed
over when its name is declared or was proposed before, and for this names are compared by
full case folding: what is proposed are the folded names of the references in the span,
less those that are declared, each once.

The import table compares names by their simple lower case, which is another comparison. An
entry of the table is proposed as it should be when the two do not differ on the names that
the document mentions: once if a reference in the span denotes it and no declaration does,
and else not at all.
-/
namespace Stepwise

def Fix.addsImport (f : Fix) : Bool :=
  Text.startsWith "Add import " f.title

section
variable {c : Configuration} {f : Fix}

theorem Configuration.addsImport_importFix (c : Configuration) (name : String) :
    (c.importFix name).addsImport = true := by
  rw [Fix.addsImport, importFix, Text.startsWith, List.isPrefixOf_iff_prefix,
    String.toList_append]
  exact List.prefix_append _ _

theorem Configuration.eq_of_importFix_title {name name' : String}
    (h : (c.importFix name).title = "Add import " ++ inQuotes name') : name = name' := by
  simpa [importFix, inQuotes, ← String.toList_inj] using h

theorem Configuration.FixOf.addsImport {line : String} {m : Marker} (h : c.FixOf line m f) :
    f.addsImport = false := by
  cases h <;> simp [Fix.addsImport, Text.startsWith, List.isPrefixOf]

theorem Document.filter_addsImport_fixes (c : Configuration) (d : Document) (span : Span)
    (ms : List Marker) :
    (d.fixes c span ms).filter Fix.addsImport = d.importFixes c (d.fixSpan span) := by
  rw [fixes, List.filter_append]
  have hlines : ∀ found : List Marker, ((found.flatMap fun m =>
      c.lineFixes (d.line m.span.startLine) m).filter Fix.addsImport) = [] := by
    intro found
    rw [List.filter_eq_nil_iff]
    intro f hf
    obtain ⟨m, -, hf⟩ := List.mem_flatMap.mp hf
    rw [(Configuration.fixOf_of_mem hf).addsImport]
    exact Bool.false_ne_true
  have himports : (d.importFixes c (d.fixSpan span)).filter Fix.addsImport =
      d.importFixes c (d.fixSpan span) := by
    rw [List.filter_eq_self]
    intro f hf
    obtain ⟨name, -, rfl⟩ := List.mem_map.mp hf
    exact c.addsImport_importFix name
  rw [hlines, himports, List.nil_append]

end

/-! ## Names without a declaration -/

structure ImportMention.RefersIn (m : ImportMention) (span : Span) : Prop where
  isReference : m.isDeclaration = false
  within : span.containsLine m.lineNumber = true

section
variable {span : Span} {declared : List String} {m : ImportMention} {ms : List ImportMention}
  {name key : String}

theorem undeclaredNames_cons_of_new (h : m.RefersIn span) (hnew : Text.fold m.name ∉ declared) :
    undeclaredNames span declared (m :: ms) =
      m.name :: undeclaredNames span (Text.fold m.name :: declared) ms := by
  simp [undeclaredNames, h.isReference, h.within, hnew]

theorem undeclaredNames_cons_of_not (h : ¬(m.RefersIn span ∧ Text.fold m.name ∉ declared)) :
    undeclaredNames span declared (m :: ms) = undeclaredNames span declared ms := by
  rw [undeclaredNames]
  split
  · rfl
  · rename_i hnew
    simp only [Bool.or_eq_true, Bool.not_eq_true', List.contains_iff_mem, not_or,
      Bool.not_eq_true, Bool.not_eq_false] at hnew
    exact absurd ⟨⟨hnew.1.1, hnew.2⟩, hnew.1.2⟩ h

theorem exists_mention_of_undeclared (h : name ∈ undeclaredNames span declared ms) :
    ∃ m ∈ ms, m.RefersIn span ∧ m.name = name := by
  induction ms generalizing declared with
  | nil => cases h
  | cons m ms ih =>
      have hrest : ∀ {declared}, name ∈ undeclaredNames span declared ms →
          ∃ m' ∈ m :: ms, m'.RefersIn span ∧ m'.name = name := by
        intro declared h
        obtain ⟨m', hm', hname⟩ := ih h
        exact ⟨m', List.mem_cons_of_mem m hm', hname⟩
      by_cases hm : m.RefersIn span ∧ Text.fold m.name ∉ declared
      · rw [undeclaredNames_cons_of_new hm.1 hm.2] at h
        rcases List.mem_cons.mp h with rfl | h
        · exact ⟨m, List.mem_cons_self, hm.1, rfl⟩
        · exact hrest h
      · rw [undeclaredNames_cons_of_not hm] at h
        exact hrest h

/-- The folded names that are proposed are those of the references in the span, less the
declared ones. -/
theorem mem_map_fold_undeclaredNames : key ∈ (undeclaredNames span declared ms).map Text.fold ↔
    key ∉ declared ∧ ∃ m ∈ ms, m.RefersIn span ∧ Text.fold m.name = key := by
  induction ms generalizing declared with
  | nil => simp [undeclaredNames]
  | cons m ms ih =>
      by_cases hm : m.RefersIn span ∧ Text.fold m.name ∉ declared
      · rw [undeclaredNames_cons_of_new hm.1 hm.2, List.map_cons, List.mem_cons, ih]
        by_cases hkey : key = Text.fold m.name
        · subst hkey
          simp [hm.1, hm.2]
        · simp [hkey, Ne.symm hkey]
      · rw [undeclaredNames_cons_of_not hm, ih]
        refine and_congr_right fun hfree => ?_
        have hhead : ¬(m.RefersIn span ∧ Text.fold m.name = key) :=
          fun h => hm ⟨h.1, h.2 ▸ hfree⟩
        simp [hhead]

theorem nodup_map_fold_undeclaredNames (span : Span) (declared : List String)
    (ms : List ImportMention) : ((undeclaredNames span declared ms).map Text.fold).Nodup := by
  induction ms generalizing declared with
  | nil => exact List.nodup_nil
  | cons m ms ih =>
      by_cases hm : m.RefersIn span ∧ Text.fold m.name ∉ declared
      · rw [undeclaredNames_cons_of_new hm.1 hm.2, List.map_cons, List.nodup_cons]
        refine ⟨fun hmem => ?_, ih _⟩
        exact (mem_map_fold_undeclaredNames.mp hmem).1 List.mem_cons_self
      · rw [undeclaredNames_cons_of_not hm]
        exact ih declared

end

def Document.declaredNames (c : Configuration) (d : Document) : List String :=
  ((d.mentions c).filter (·.isDeclaration)).map fun m => Text.fold m.name

theorem Document.importFixes_eq (c : Configuration) (d : Document) (span : Span) :
    d.importFixes c span =
      (undeclaredNames span (d.declaredNames c) (d.mentions c)).map c.importFix := rfl

/-- A fix with the title of a declaration to add is that declaration, and its name is one of
those that are proposed. -/
theorem Document.importFix_of_mem_fixes {c : Configuration} {d : Document} {span : Span}
    {ms : List Marker} {f : Fix} {name : String} (hf : f ∈ d.fixes c span ms)
    (htitle : f.title = "Add import " ++ inQuotes name) : f = c.importFix name ∧
      name ∈ undeclaredNames (d.fixSpan span) (d.declaredNames c) (d.mentions c) := by
  have hadds : f.addsImport = true := by
    rw [Fix.addsImport, htitle]
    exact c.addsImport_importFix name
  have hproposed := List.mem_filter.mpr ⟨hf, hadds⟩
  rw [filter_addsImport_fixes, importFixes_eq] at hproposed
  obtain ⟨proposed, hmem, rfl⟩ := List.mem_map.mp hproposed
  obtain rfl := Configuration.eq_of_importFix_title htitle
  exact ⟨rfl, hmem⟩

/-! ## Entries of the import table -/

/-- A name is that of an entry of the import table, as the table compares names. -/
def Imports.Denotes (name : String) (e : String × Target) : Prop :=
  key name = key e.1

instance (name : String) (e : String × Target) : Decidable (Imports.Denotes name e) :=
  inferInstanceAs (Decidable (_ = _))

theorem Imports.find?_isSome_of_denotes {im : Imports} {name : String} {e : String × Target}
    (he : e ∈ im.all) (h : Denotes name e) : (im.find? name).isSome = true := by
  rw [find?, Option.isSome_map, List.find?_isSome]
  exact ⟨e, he, beq_iff_eq.mpr h.symm⟩

namespace Document
variable {c : Configuration} {d : Document} {span : Span} {e : String × Target}

/-- A quoted token of a step line in a span denotes an entry. -/
def RefersTo (c : Configuration) (d : Document) (span : Span) (e : String × Target) : Prop :=
  ∃ (i : Nat) (line : String) (p : Step.Placeholder), d.lines[i]? = some line ∧
    span.containsLine (i + 1 : Nat) = true ∧ c.isImportLine line = false ∧
    (StepLine.of? c.lexicon line).isSome = true ∧ p ∈ quotedTokens line ∧
    Imports.Denotes p.inner e

/-- The first quoted token of an import line denotes an entry. -/
def Declares (c : Configuration) (d : Document) (e : String × Target) : Prop :=
  ∃ (i : Nat) (line : String) (p : Step.Placeholder), d.lines[i]? = some line ∧
    c.isImportLine line = true ∧ (quotedTokens line).head? = some p ∧ Imports.Denotes p.inner e

/-- Full case folding takes the mentions of an entry for one name, and for no other. -/
def FoldsApart (c : Configuration) (d : Document) (e : String × Target) : Prop :=
  ∀ m ∈ d.mentions c, Imports.Denotes m.name e → ∀ m' ∈ d.mentions c,
    (Text.fold m'.name = Text.fold m.name ↔ Imports.Denotes m'.name e)

theorem refersTo_iff (he : e ∈ c.imports.all) : d.RefersTo c span e ↔
    ∃ m ∈ d.mentions c, m.RefersIn span ∧ Imports.Denotes m.name e := by
  constructor
  · rintro ⟨i, line, p, hline, hspan, himport, hstep, hquoted, hdenotes⟩
    have hknown := Imports.find?_isSome_of_denotes he hdenotes
    have hmention : c.Mentions line p false := .reference himport hstep hquoted hknown
    exact ⟨⟨i + 1, p, false⟩, mem_mentions_iff.mpr ⟨i, line, hline, rfl, hmention⟩, ⟨rfl, hspan⟩,
      hdenotes⟩
  · rintro ⟨⟨n, p, role⟩, hm, ⟨hrole, hspan⟩, hdenotes⟩
    obtain ⟨i, line, hline, hnumber, hmention⟩ := mem_mentions_iff.mp hm
    cases hmention with
    | declaration => cases hrole
    | reference himport hstep hquoted _ =>
        exact ⟨i, line, p, hline, hnumber ▸ hspan, himport, hstep, hquoted, hdenotes⟩

theorem declares_iff : d.Declares c e ↔
    ∃ m ∈ d.mentions c, m.isDeclaration = true ∧ Imports.Denotes m.name e := by
  constructor
  · rintro ⟨i, line, p, hline, himport, hfirst, hdenotes⟩
    have hmention : c.Mentions line p true := .declaration himport hfirst
    exact ⟨⟨i + 1, p, true⟩, mem_mentions_iff.mpr ⟨i, line, hline, rfl, hmention⟩, rfl, hdenotes⟩
  · rintro ⟨⟨n, p, role⟩, hm, hrole, hdenotes⟩
    obtain ⟨i, line, hline, _, hmention⟩ := mem_mentions_iff.mp hm
    cases hmention with
    | declaration himport hfirst => exact ⟨i, line, p, hline, himport, hfirst, hdenotes⟩
    | reference => cases hrole

theorem foldsApart_of_fold_eq_key (e : String × Target)
    (h : ∀ m ∈ d.mentions c, Text.fold m.name = Imports.key m.name) : d.FoldsApart c e := by
  intro m hm hdenotes m' hm'
  rw [h m hm, h m' hm', hdenotes]
  rfl

theorem mem_declaredNames_iff (hfolds : d.FoldsApart c e) {m : ImportMention}
    (hm : m ∈ d.mentions c) (hdenotes : Imports.Denotes m.name e) :
    Text.fold m.name ∈ d.declaredNames c ↔ d.Declares c e := by
  rw [declares_iff, declaredNames, List.mem_map]
  constructor
  · rintro ⟨m', hm', hfold⟩
    obtain ⟨hmention, hrole⟩ := List.mem_filter.mp hm'
    exact ⟨m', hmention, hrole, (hfolds m hm hdenotes m' hmention).mp hfold⟩
  · rintro ⟨m', hmention, hrole, hdenotes'⟩
    exact ⟨m', List.mem_filter.mpr ⟨hmention, hrole⟩,
      (hfolds m hm hdenotes m' hmention).mpr hdenotes'⟩

/-- The declarations to add that are proposed in a span propose an entry of the import table
once when a step line in the span refers to it and no import line declares it, and else not at
all. For this the mentions of the entry have to be told from all others by full case folding
as they are by the table. -/
theorem fixes_add_missing_import (c : Configuration) (d : Document) (span : Span)
    (ms : List Marker) {e : String × Target} (he : e ∈ c.imports.all) (hfolds : d.FoldsApart c e) :
    ∃ names : List String, (d.fixes c span ms).filter Fix.addsImport = names.map c.importFix ∧
      (d.RefersTo c (d.fixSpan span) e ∧ ¬d.Declares c e →
        names.countP (fun name => Imports.key name == Imports.key e.1) = 1) ∧
      (¬(d.RefersTo c (d.fixSpan span) e ∧ ¬d.Declares c e) →
        names.countP (fun name => Imports.key name == Imports.key e.1) = 0) := by
  let names := undeclaredNames (d.fixSpan span) (d.declaredNames c) (d.mentions c)
  refine ⟨names, filter_addsImport_fixes c d span ms, ?_, ?_⟩
  · rintro ⟨hrefers, hfree⟩
    obtain ⟨m, hm, hin, hdenotes⟩ := (refersTo_iff he).mp hrefers
    have hundeclared : Text.fold m.name ∉ d.declaredNames c := by
      rwa [mem_declaredNames_iff hfolds hm hdenotes]
    have hproposed : Text.fold m.name ∈ names.map Text.fold :=
      mem_map_fold_undeclaredNames.mpr ⟨hundeclared, m, hm, hin, rfl⟩
    -- among the proposed names those of the entry are those that fold alike
    have hsame : ∀ name ∈ names, (Imports.key name == Imports.key e.1) = true ↔
        (Text.fold name == Text.fold m.name) = true := by
      intro name hname
      obtain ⟨m', hm', -, rfl⟩ := exists_mention_of_undeclared hname
      rw [beq_iff_eq, beq_iff_eq]
      exact (hfolds m hm hdenotes m' hm').symm
    calc names.countP (fun name => Imports.key name == Imports.key e.1)
        = names.countP (fun name => Text.fold name == Text.fold m.name) :=
          List.countP_congr hsame
      _ = (names.map Text.fold).count (Text.fold m.name) := by
          rw [List.count, List.countP_map, Function.comp_def]
      _ = 1 := List.count_eq_one_of_mem (nodup_map_fold_undeclaredNames _ _ _) hproposed
  · intro hnot
    rw [List.countP_eq_zero]
    intro name hname hkey
    obtain ⟨m, hm, hin, rfl⟩ := exists_mention_of_undeclared hname
    have hdenotes : Imports.Denotes m.name e := beq_iff_eq.mp hkey
    have hfree := (mem_map_fold_undeclaredNames.mp (List.mem_map_of_mem hname)).1
    rw [mem_declaredNames_iff hfolds hm hdenotes] at hfree
    exact hnot ⟨(refersTo_iff he).mpr ⟨m, hm, hin, hdenotes⟩, hfree⟩

/-- Two references to one entry, and a reference to one that is declared. -/
theorem fixes_add_missing_import_users :
    let c := Configuration.ofImports [⟨"Base", "/base", 0⟩, ⟨"users", "/users", 0⟩]
    let d : Document :=
      ⟨"inmemory:a", 1, 1, ["import \"Base\"", "Given \"base\" \"Users\" \"USERS\""]⟩
    let e : String × Target := ("users", ⟨"file:///users", 0⟩)
    e ∈ c.imports.all ∧ d.FoldsApart c e ∧ d.RefersTo c (d.fixSpan .unset) e ∧ ¬d.Declares c e ∧
      ∃ names : List String, (d.fixes c .unset []).filter Fix.addsImport = names.map c.importFix ∧
        names.countP (fun name => Imports.key name == Imports.key e.1) = 1 := by
  intro c d e
  have he : e ∈ c.imports.all := by decide +kernel
  have hmentions : d.mentions c = [⟨1, ⟨.double, "Base", 8⟩, true⟩,
      ⟨2, ⟨.double, "base", 7⟩, false⟩, ⟨2, ⟨.double, "Users", 14⟩, false⟩,
      ⟨2, ⟨.double, "USERS", 22⟩, false⟩] := by
    decide +kernel
  have hfolds : d.FoldsApart c e := by
    refine foldsApart_of_fold_eq_key e ?_
    rw [hmentions]
    decide +kernel
  have hrefers : d.RefersTo c (d.fixSpan .unset) e := by
    rw [refersTo_iff he, hmentions]
    refine ⟨⟨2, ⟨.double, "Users", 14⟩, false⟩, by simp, ⟨rfl, by decide⟩, ?_⟩
    decide +kernel
  have hfree : ¬d.Declares c e := by
    rw [declares_iff, hmentions]
    decide +kernel
  obtain ⟨names, hnames, hone, -⟩ := fixes_add_missing_import c d .unset [] he hfolds
  exact ⟨he, hfolds, hrefers, hfree, names, hnames, hone ⟨hrefers, hfree⟩⟩

/-- Names that fold alike are two entries of a table: a reference to the second of them is
passed over. A dotted capital I has two letters when it is folded: two references to one
entry are both proposed. -/
theorem fixes_add_import_by_folding :
    (let c := Configuration.ofImports [⟨"Straße", "/a", 0⟩, ⟨"Strasse", "/b", 0⟩]
     let d : Document := ⟨"inmemory:a", 1, 1, ["Given \"Straße\" \"Strasse\""]⟩
     ∃ e ∈ c.imports.all, d.RefersTo c (d.fixSpan .unset) e ∧ ¬d.Declares c e ∧
       (d.fixes c .unset []).filter Fix.addsImport = [c.importFix "Straße"] ∧
       ¬Imports.Denotes "Straße" e) ∧
    (let c := Configuration.ofImports [⟨"izmir", "/a", 0⟩]
     let d : Document := ⟨"inmemory:a", 1, 1, ["Given \"İzmir\" \"izmir\""]⟩
     ∃ e ∈ c.imports.all, (d.fixes c .unset []).filter Fix.addsImport =
         [c.importFix "İzmir", c.importFix "izmir"] ∧
       Imports.Denotes "İzmir" e ∧ Imports.Denotes "izmir" e) := by
  constructor
  · intro c d
    have he : ("Strasse", ⟨"file:///b", 0⟩) ∈ c.imports.all := by decide +kernel
    have hmentions : d.mentions c =
        [⟨1, ⟨.double, "Straße", 7⟩, false⟩, ⟨1, ⟨.double, "Strasse", 16⟩, false⟩] := by
      decide +kernel
    refine ⟨_, he, ?_, ?_, ?_, ?_⟩
    · rw [refersTo_iff he, hmentions]
      exact ⟨⟨1, ⟨.double, "Strasse", 16⟩, false⟩, by simp, ⟨rfl, by decide⟩, rfl⟩
    · rw [declares_iff, hmentions]
      decide
    · rw [filter_addsImport_fixes, importFixes_eq, declaredNames, hmentions]
      decide +kernel
    · decide +kernel
  · intro c d
    have hmentions : d.mentions c =
        [⟨1, ⟨.double, "İzmir", 7⟩, false⟩, ⟨1, ⟨.double, "izmir", 15⟩, false⟩] := by
      decide +kernel
    refine ⟨("izmir", ⟨"file:///a", 0⟩), by decide +kernel, ?_, by decide +kernel, rfl⟩
    rw [filter_addsImport_fixes, importFixes_eq, declaredNames, hmentions]
    decide +kernel

end Document
end Stepwise
