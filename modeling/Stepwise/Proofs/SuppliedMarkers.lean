import Mathlib.Data.List.Nodup
import Mathlib.Data.List.Perm.Subperm
import Stepwise.Editor.Server
import Stepwise.Proofs.TypedSteps

/-!
# Fixes for markers that a host supplies

A host may send the markers of a document back when it asks for fixes. It need not send
all of them, only those of the lines it asks about, and an editor sends them as its own
diagnostics among those of other tools. The fixes are the same as without any markers:
then the document is checked anew.

Markers stand on different lines, so the markers of a span are decided by their lines. On
their way through an editor they lose nothing as long as lines and columns fit 32 bits,
because a marker covers content and so begins at the first line and column or later.
-/
namespace Stepwise

namespace Document
variable {c : Configuration} {d : Document} {m : Marker}

/-- Flagged lines have content, in every configuration. -/
theorem exists_line_of_mem_diagnostics (h : m ∈ d.diagnostics c) :
    ∃ i line, d.lines[i]? = some line ∧ Text.trim line ≠ "" ∧
      m = .flag c.syntaxMessage (i + 1) line := by
  obtain ⟨⟨cls, n, line⟩, hmem, hm⟩ := List.mem_filterMap.mp h
  obtain ⟨i, hi⟩ := List.mem_iff_getElem?.mp hmem
  obtain ⟨hline, hcls, rfl⟩ := (getElem?_classified_iff cls n).mp hi
  dsimp only at hm
  split at hm
  · cases hm
  · rename_i haccepts
    refine ⟨i, line, hline, ?_, (Option.some.inj hm).symm⟩
    refine trim_ne_empty_of_classAt? hline hcls ?_ ?_
    · rintro rfl
      exact haccepts rfl
    · rintro rfl
      exact haccepts rfl

/-- Some markers, among them all that pass a test, are the same as all markers under it. -/
theorem filter_eq_of_sublist {ms : List Marker} (hsub : ms.Sublist (d.diagnostics c))
    {p : Marker → Bool} (hall : ∀ m ∈ d.diagnostics c, p m = true → m ∈ ms) :
    ms.filter p = (d.diagnostics c).filter p := by
  have hnodup : (d.diagnostics c).Nodup :=
    (diagnostics_pairwise c d).imp fun {a b} hlt hab => by
      rw [hab] at hlt
      exact Int.lt_irrefl _ hlt
  have hmem : (d.diagnostics c).filter p ⊆ ms.filter p := by
    intro m hm
    obtain ⟨hm, hp⟩ := List.mem_filter.mp hm
    exact List.mem_filter.mpr ⟨hall m hm hp, hp⟩
  have hlength := (List.subperm_of_subset (hnodup.filter p) hmem).length_le
  exact (hsub.filter p).eq_of_length_le hlength

/-- Markers that hold all those of a span give the fixes of a fresh check. -/
theorem fixes_eq_of_sublist {span : Span} {ms : List Marker}
    (hsub : ms.Sublist (d.diagnostics c))
    (hall : ∀ m ∈ d.diagnostics c, (d.fixSpan span).containsLine m.span.startLine → m ∈ ms) :
    d.fixes c span ms = d.fixes c span [] := by
  unfold fixes
  cases hempty : ms.isEmpty with
  | true => rfl
  | false =>
      simp only [Bool.false_eq_true, if_false, List.isEmpty_nil, if_true]
      rw [filter_eq_of_sublist hsub hall]

end Document

namespace Editor

theorem indexOf_add_one {n : Int} (hlow : 1 ≤ n) (hhigh : n ≤ Number.wordCount32) :
    (indexOf n : Int) + 1 = n := by
  have hmod : (n - 1).toNat % Number.wordCount32 = (n - 1).toNat := Nat.mod_eq_of_lt (by omega)
  rw [indexOf, if_neg (by omega), hmod]
  omega

structure FitsEditor (s : Span) : Prop where
  startLine : 1 ≤ s.startLine ∧ s.startLine ≤ Number.wordCount32
  startColumn : 1 ≤ s.startColumn ∧ s.startColumn ≤ Number.wordCount32
  endLine : 1 ≤ s.endLine ∧ s.endLine ≤ Number.wordCount32
  endColumn : 1 ≤ s.endColumn ∧ s.endColumn ≤ Number.wordCount32

theorem Range.toSpan_ofSpan {s : Span} (h : FitsEditor s) : (Range.ofSpan s).toSpan = s := by
  obtain ⟨⟨hsl, hsl'⟩, ⟨hsc, hsc'⟩, ⟨hel, hel'⟩, ⟨hec, hec'⟩⟩ := h
  unfold ofSpan toSpan
  dsimp only
  rw [indexOf_add_one hsl hsl', indexOf_add_one hsc hsc', indexOf_add_one hel hel',
    indexOf_add_one hec hec']

theorem fitsEditor_of_mem_diagnostics {c : Configuration} {d : Document} {m : Marker}
    (hm : m ∈ d.diagnostics c) (hlines : d.lines.length < Number.wordCount32)
    (hcolumns : ∀ line ∈ d.lines, line.length < Number.wordCount32) : FitsEditor m.span := by
  obtain ⟨i, line, hi, hcontent, rfl⟩ := Document.exists_line_of_mem_diagnostics hm
  obtain ⟨hmin, hlt, hmax, _⟩ := Text.columns_span_content hcontent
  have hline := hcolumns line (List.mem_of_getElem? hi)
  have hnumber : i < d.lines.length := (List.getElem?_eq_some_iff.mp hi).1
  simp only [Marker.flag, Span.onLine]
  constructor <;> dsimp only <;> omega

namespace Diagnostic

/-- The diagnostics of this tool in their order, with those of other tools among them. -/
inductive Mixed : List Diagnostic → List Diagnostic → Prop
  | nil : Mixed [] []
  | own {ds all : List Diagnostic} (d : Diagnostic) : Mixed ds all → Mixed (d :: ds) (d :: all)
  | foreign {ds all : List Diagnostic} {d : Diagnostic} : d.source ≠ sourceName → Mixed ds all →
      Mixed ds (d :: all)

/-- A marker of a document comes back from an editor as it was. -/
theorem toMarker_ofMarker {m : Marker} (hfits : FitsEditor m.span)
    (hseverity : m.severity = Severity.error) : (ofMarker m).toMarker = m := by
  obtain ⟨severity, message, span⟩ := m
  change severity = Severity.error at hseverity
  subst hseverity
  have hspan := Range.toSpan_ofSpan hfits
  change Marker.mk Severity.error message (Range.ofSpan span).toSpan = _
  rw [hspan]

/-- Only the diagnostics of this tool are read back. -/
theorem ownMarkers_of_mixed {ms : List Marker} {all : List Diagnostic}
    (h : Mixed (ms.map ofMarker) all) (hback : ∀ m ∈ ms, (ofMarker m).toMarker = m) :
    ownMarkers all = ms := by
  generalize hds : ms.map ofMarker = ds at h
  induction h generalizing ms with
  | nil => simpa [ownMarkers] using hds.symm
  | @own ds all d _ ih =>
      obtain ⟨m, ms, rfl, rfl, rfl⟩ := List.map_eq_cons_iff.mp hds
      have hrest := ih (fun m hm => hback m (List.mem_cons_of_mem _ hm)) rfl
      have hsource : ((ofMarker m).source == sourceName) = true := beq_self_eq_true sourceName
      unfold ownMarkers at hrest ⊢
      rw [List.filter_cons, if_pos hsource, List.map_cons, hrest, hback m List.mem_cons_self]
  | @foreign ds all d hsource _ ih =>
      have hrest := ih hback hds
      unfold ownMarkers at hrest ⊢
      rw [List.filter_cons, if_neg (by simpa using hsource), hrest]

end Diagnostic

/-- The fixes that an editor is sent for a document that is open. -/
theorem Server.actions_eq {s : Server} {p : ActionParams} {d : Document}
    (hd : s.session.store.get? p.uri = some d) :
    s.actions p = s.result (.array ((d.fixes s.session.configuration p.range.toSpan
      (Diagnostic.ownMarkers p.diagnostics)).map (fixJson p.uri))) [.processing] := by
  simp [actions, ask, Session.process, Session.ask, Query.uri?, hd, Session.resolve]

end Editor

namespace Document

/-- Fixes do not depend on who worked out the markers. Some markers of a document, among
them all on the lines of a span, give the fixes that a fresh check gives. So they do when
an editor sends them back as its diagnostics mixed with those of other tools, in a
document whose lines and columns fit 32 bits, and the editor is answered as if it had
sent none. -/
theorem fixes_of_supplied_markers (c : Configuration) (d : Document) (span : Span)
    {ms : List Marker} (hsub : ms.Sublist (d.diagnostics c))
    (hall : ∀ m ∈ d.diagnostics c, (d.fixSpan span).containsLine m.span.startLine → m ∈ ms) :
    d.fixes c span ms = d.fixes c span [] ∧
    (d.lines.length < Number.wordCount32 →
      (∀ line ∈ d.lines, line.length < Number.wordCount32) →
      ∀ all, Editor.Diagnostic.Mixed (ms.map .ofMarker) all →
        d.fixes c span (Editor.Diagnostic.ownMarkers all) = d.fixes c span [] ∧
        ∀ (s : Editor.Server) (p : Editor.ActionParams), s.session.configuration = c →
          s.session.store.get? p.uri = some d → p.range.toSpan = span → p.diagnostics = all →
          s.actions p = s.actions { p with diagnostics := [] }) := by
  have hfixes := fixes_eq_of_sublist hsub hall
  refine ⟨hfixes, fun hlines hcolumns all hmixed => ?_⟩
  have hback : ∀ m ∈ ms, (Editor.Diagnostic.ofMarker m).toMarker = m := by
    intro m hm
    have hm := hsub.subset hm
    obtain ⟨i, line, _, _, rfl⟩ := exists_line_of_mem_diagnostics hm
    exact Editor.Diagnostic.toMarker_ofMarker
      (Editor.fitsEditor_of_mem_diagnostics hm hlines hcolumns) rfl
  have hown := Editor.Diagnostic.ownMarkers_of_mixed hmixed hback
  refine ⟨by rw [hown, hfixes], fun s p hc hd hspan hdiagnostics => ?_⟩
  have hnone : Editor.Diagnostic.ownMarkers [] = [] := rfl
  subst hc
  rw [Editor.Server.actions_eq hd, Editor.Server.actions_eq (p := { p with diagnostics := [] }) hd,
    hspan, hdiagnostics, hown, hnone, hfixes]

/-- A step that a line can name without its keyword. -/
def waitStep : StepDefinition :=
  { StepDefinition.blank with key := "I wait", keyword := "Given" }

/-- A document with two flagged lines, of which the second is the text of a step. -/
def waitDocument : Document := ⟨"inmemory:a", 1, 1, ["oops", "I wait"]⟩

/-- The marker of the second line is enough for the fixes of that line, also when an editor
sends it after a diagnostic of another tool. -/
theorem fixes_of_supplied_markers_second :
    let c := ((Configuration.ofStep waitStep).withMetatags []).withDirectives []
    let m : Marker := ⟨Severity.error, "Syntax error", ⟨2, 1, 2, 7⟩⟩
    let span : Span := ⟨2, 1, 2, 1⟩
    let other : Editor.Diagnostic := { Editor.Diagnostic.blank with source := "spelling" }
    let fix : Fix := ⟨"Insert keyword \"Given\"", [m], [⟨⟨2, 1, 2, 1⟩, "Given "⟩], true⟩
    (waitDocument.diagnostics c).length = 2 ∧ waitDocument.fixes c span [] = [fix] ∧
      waitDocument.fixes c span [m] = [fix] ∧
      waitDocument.fixes c span (Editor.Diagnostic.ownMarkers [other, .ofMarker m]) = [fix] := by
  intro c m span other fix
  have hdiagnostics : waitDocument.diagnostics c =
      [⟨Severity.error, "Syntax error", ⟨1, 1, 1, 5⟩⟩, m] := by decide +kernel
  have hfixes : waitDocument.fixes c span [] = [fix] := by decide +kernel
  have hsub : [m].Sublist (waitDocument.diagnostics c) := by
    rw [hdiagnostics]
    exact .cons _ (.refl [m])
  have hall : ∀ m' ∈ waitDocument.diagnostics c,
      (waitDocument.fixSpan span).containsLine m'.span.startLine → m' ∈ [m] := by
    rw [hdiagnostics]
    decide +kernel
  obtain ⟨hsame, heditor⟩ := fixes_of_supplied_markers c waitDocument span hsub hall
  have hmixed : Editor.Diagnostic.Mixed ([m].map .ofMarker) [other, .ofMarker m] :=
    .foreign (by decide) (.own _ .nil)
  have hback := (heditor (by decide) (by decide) _ hmixed).1
  exact ⟨by rw [hdiagnostics]; rfl, hfixes, hsame.trans hfixes, hback.trans hfixes⟩

end Document
end Stepwise
