import Stepwise.Proofs.RenderedPayloads
import Stepwise.Proofs.ValidPayloads

/-!
# Valid values in requests

A value that passes its schema is sent as text, read back as a tree and decoded. The
schema bounds how deep the value is nested, so the reader's own limit is never met.
Everything else a reader can stumble over is listed in one place: what is written on
one line, has doubles for numbers, allowed characters, short names without repeats,
plain whole numbers and known keyword kinds comes through.
-/
namespace Stepwise

open Yaml (Node)

/-! ## The depth of accepted values -/

namespace Json

theorem fitsDepth_of_isScalar {v : Json} (h : v.IsScalar) (depth : Nat) :
    fitsDepth depth v = true := by
  cases v with
  | array _ => exact h.elim
  | object _ => exact h.elim
  | _ => cases depth <;> rfl

end Json

namespace Schema
open Json

section
variable {s : Schema} {v : Json} {depth : Nat} (hd : v.DistinctNames) (hpos : 0 < depth)
include hd hpos

theorem Accepts.fitsDepth_items {least : Nat} (h : (arrayOf s least).Accepts v)
    (hs : ∀ w, w.DistinctNames → s.Accepts w → fitsDepth (depth - 1) w = true) :
    fitsDepth depth v = true := by
  obtain ⟨items, rfl, hitems⟩ := h.isArray
  cases hd with
  | array hd =>
      exact fitsDepth_array.mpr ⟨hpos, fun w hw => hs w (hd w hw) (hitems w hw)⟩

theorem Accepts.fitsDepth_map (h : (mapOf s).Accepts v)
    (hs : ∀ w, w.DistinctNames → s.Accepts w → fitsDepth (depth - 1) w = true) :
    fitsDepth depth v = true := by
  obtain ⟨members, rfl, hmembers⟩ := h.isMap
  cases hd with
  | object hnodup hd =>
      rw [lastMembers_of_nodup hnodup] at hmembers
      exact fitsDepth_object.mpr ⟨hpos, fun m hm => hs m.2 (hd m hm) (hmembers m hm)⟩

theorem Accepts.fitsDepth_record {properties : List (String × Schema)} {required : List String}
    {alternatives : List Schema} (h : (record properties required alternatives).Accepts v)
    (hs : ∀ p ∈ properties, ∀ w, w.DistinctNames → p.2.Accepts w →
      fitsDepth (depth - 1) w = true) : fitsDepth depth v = true := by
  obtain ⟨members, rfl, hnames, hproperties⟩ := h.isRecord
  cases hd with
  | object hnodup hd =>
      rw [lastMembers_of_nodup hnodup] at hnames hproperties
      refine fitsDepth_object.mpr ⟨hpos, fun m hm => ?_⟩
      obtain ⟨p, hp, hname⟩ := hnames m hm
      refine hs p hp m.2 (hd m hm) (hproperties p hp m.2 ?_)
      rw [hname]
      exact lookup_of_mem hnodup hm

end

theorem Accepts.fitsDepth_types {types : List JsonType} {v : Json} (h : (ofTypes types).Accepts v)
    (htypes : types ≠ [] ∧ JsonType.array ∉ types ∧ JsonType.object ∉ types) (depth : Nat) :
    fitsDepth depth v = true :=
  fitsDepth_of_isScalar (h.isScalar htypes.1 htypes.2.1 htypes.2.2) depth

end Schema

namespace ConfigKind
open Json Schema

theorem phraseSchema_fitsDepth {v : Json} (hd : v.DistinctNames) (h : phraseSchema.Accepts v)
    {depth : Nat} (hpos : 0 < depth) : fitsDepth depth v = true := by
  rcases h.either with h | h
  · exact h.fitsDepth_types (by decide) depth
  · exact h.fitsDepth_items hd hpos fun w _ hw => hw.fitsDepth_types (by decide) _

theorem keywordEntrySchema_fitsDepth {v : Json} (hd : v.DistinctNames)
    (h : keywordEntrySchema.Accepts v) {depth : Nat} (hdepth : 1 < depth) :
    fitsDepth depth v = true := by
  refine h.fitsDepth_record hd (by omega) ?_
  simp only [List.mem_cons, List.not_mem_nil, or_false]
  rintro p (rfl | rfl | rfl) w hw hp
  · exact hp.fitsDepth_types (by decide) _
  · exact hp.fitsDepth_types (by decide) _
  · exact hp.fitsDepth_items hw (by omega) fun u _ hu => hu.fitsDepth_types (by decide) _

theorem stepSchema_fitsDepth {v : Json} (hd : v.DistinctNames) (h : stepSchema.Accepts v)
    {depth : Nat} (hpos : 0 < depth) : fitsDepth depth v = true := by
  refine h.fitsDepth_record hd hpos ?_
  simp only [List.mem_cons, List.not_mem_nil, or_false]
  rintro p (rfl | rfl | rfl | rfl | rfl | rfl | rfl | rfl) w _ hp <;>
    exact hp.fitsDepth_types (by decide) _

theorem variable_fitsDepth {v : Json} (hd : v.DistinctNames)
    (h : (Schema.oneOf [ofTypes [.string, .number, .boolean],
      record [("name", ofTypes [.string]),
        ("value", ofTypes [.string, .number, .boolean, .null])] ["name"] []]).Accepts v)
    {depth : Nat} (hpos : 0 < depth) : fitsDepth depth v = true := by
  rcases h.either with h | h
  · exact h.fitsDepth_types (by decide) depth
  · refine h.fitsDepth_record hd hpos ?_
    simp only [List.mem_cons, List.not_mem_nil, or_false]
    rintro p (rfl | rfl) w _ hp <;> exact hp.fitsDepth_types (by decide) _

theorem import_fitsDepth {v : Json} (hd : v.DistinctNames)
    (h : (Schema.oneOf [Schema.text 1,
      record [("uri", ofTypes [.string]), ("path", ofTypes [.string]),
        ("lineNumber", wholeFrom 1)] [] [requiring ["uri"], requiring ["path"]]]).Accepts v)
    {depth : Nat} (hpos : 0 < depth) : fitsDepth depth v = true := by
  rcases h.either with h | h
  · exact fitsDepth_of_isScalar (Payload.isScalar_of_text h) depth
  · refine h.fitsDepth_record hd hpos ?_
    simp only [List.mem_cons, List.not_mem_nil, or_false]
    rintro p (rfl | rfl | rfl) w _ hp
    · exact hp.fitsDepth_types (by decide) _
    · exact hp.fitsDepth_types (by decide) _
    · obtain ⟨text, rfl⟩ := hp.isWhole
      have hscalar : (Json.number text).IsScalar := trivial
      exact fitsDepth_of_isScalar hscalar _

/-- No schema accepts a scalar. -/
theorem not_isScalar_of_accepts {kind : ConfigKind} {v : Json} (h : kind.schema.Accepts v) :
    ¬v.IsScalar := by
  have harray : ∀ {s : Schema} {least : Nat}, (arrayOf s least).Accepts v → ¬v.IsScalar := by
    intro s least h
    obtain ⟨items, rfl, -⟩ := h.isArray
    exact id
  have hmap : ∀ {s : Schema}, (mapOf s).Accepts v → ¬v.IsScalar := by
    intro s h
    obtain ⟨members, rfl, -⟩ := h.isMap
    exact id
  cases kind with
  | keywords =>
      rcases Accepts.either h with h | h
      · exact harray h
      · exact hmap h
  | metatags => exact harray h
  | steps =>
      rcases Accepts.either h with h | h
      · exact hmap h
      · exact harray h
  | vars => exact hmap h
  | imports => exact hmap h
  | messages => exact hmap h

/-- No schema accepts a value that is nested deeper than three levels. -/
theorem fitsDepth_of_accepts {kind : ConfigKind} {v : Json} (hd : v.DistinctNames)
    (h : kind.schema.Accepts v) {depth : Nat} (hdepth : 2 < depth) : fitsDepth depth v = true := by
  have hpos : 0 < depth := by omega
  have hitem : 0 < depth - 1 := by omega
  cases kind with
  | keywords =>
      rcases Accepts.either h with h | h
      · -- the deepest value of all: a list of entries with lists of phrases
        refine h.fitsDepth_items hd hpos fun w hw ha => ?_
        rcases ha.either with ha | ha
        · exact phraseSchema_fitsDepth hw ha hitem
        · exact keywordEntrySchema_fitsDepth hw ha (by omega)
      · exact h.fitsDepth_map hd hpos fun w hw ha =>
          ha.fitsDepth_map hw hitem fun u hu ha => phraseSchema_fitsDepth hu ha (by omega)
  | metatags =>
      exact Accepts.fitsDepth_items hd hpos h fun w _ ha =>
        fitsDepth_of_isScalar (Payload.isScalar_of_text ha) _
  | steps =>
      rcases Accepts.either h with h | h
      · exact h.fitsDepth_map hd hpos fun w hw ha => stepSchema_fitsDepth hw ha hitem
      · exact h.fitsDepth_items hd hpos fun w hw ha =>
          stepSchema_fitsDepth hw (ha.everyPart stepSchema (by simp)) hitem
  | vars => exact Accepts.fitsDepth_map hd hpos h fun w hw ha => variable_fitsDepth hw ha hitem
  | imports => exact Accepts.fitsDepth_map hd hpos h fun w hw ha => import_fitsDepth hw ha hitem
  | messages =>
      exact Accepts.fitsDepth_map hd hpos h fun w _ ha => ha.fitsDepth_types (by decide) _

end ConfigKind

/-! ## Requests -/

namespace Configuration

theorem install_snd {α : Type} (content : Except Refusal α) (empty : α)
    (put : α → Configuration) : (install content empty put).2 = none ↔ ∃ a, content = .ok a := by
  cases content with
  | ok a => exact ⟨fun _ => ⟨a, rfl⟩, fun _ => rfl⟩
  | error e => exact ⟨nofun, fun ⟨a, ha⟩ => nomatch ha⟩

/-- A request refuses its data if the data yields no content. -/
theorem apply_snd (c : Configuration) (kind : ConfigKind) (data : Option String) :
    (c.apply kind data).2 = none ↔ ∃ content, kind.Yields data content := by
  simp only [← kind.decodeWith_eq_ok_iff]
  unfold apply
  cases kind <;> exact install_snd _ _ _

end Configuration

namespace ConfigKind
open Json

theorem yields_render {kind : ConfigKind} {v : Json} (hw : v.Writable) (hline : v.OnOneLine)
    (hcarries : v.Carries) (hv : kind.violation? v = none) {content : kind.Content}
    (hdecode : kind.decoder (some v.tree) = .ok content) :
    kind.Yields (some v.render) content := by
  have hscalar := not_isScalar_of_accepts (accepts_of_violation?_eq_none hv)
  exact ⟨some v.tree,
    (kind.admits_render_iff hw hscalar hline _).mpr ⟨hcarries, hv, rfl⟩, hdecode⟩

/-- A value of a kind comes through a request: its text is read back as the value, whole
numbers are plain integers in range, and keyword entries name known kinds. -/
structure Transmits (kind : ConfigKind) (v : Json) : Prop where
  oneLine : v.OnOneLine
  doubles : v.hasDoubles = true
  allowed : v.render.toList.all Yaml.isAllowed = true
  shortNames : v.hasShortNames = true
  distinctNames : v.DistinctNames
  wholeMembers : ∀ name ∈ kind.wholeMembers, ∀ part ∈ v.parts, part.PlainMember name
  knownKinds : kind = .keywords → ∀ entry ∈ v.parts, ∀ name, ¬Payload.NamesUnknownKind entry name

theorem Transmits.decoder_tree {kind : ConfigKind} {v : Json} (h : kind.Transmits v)
    (hv : kind.violation? v = none) : ∃ content, kind.decoder (some v.tree) = .ok content := by
  have ha := accepts_of_violation?_eq_none hv
  have ht := v.hasTree_tree
  have hd := h.distinctNames
  cases kind with
  | keywords =>
      refine (Payload.keywords_cases ht hd ha).resolve_right ?_
      rintro ⟨entry, hentry, name, line, hname, -⟩
      exact h.knownKinds rfl entry hentry name hname
  | metatags => exact Payload.metatags_ok ht ha
  | steps =>
      exact Payload.steps_ok ht hd ha
        (h.wholeMembers "kind" (by simp [ConfigKind.wholeMembers]))
  | vars => exact Payload.vars_ok ht hd ha
  | imports =>
      exact Payload.imports_ok ht hd ha
        (h.wholeMembers "lineNumber" (by simp [ConfigKind.wholeMembers]))
  | messages => exact Payload.messages_ok ht hd ha

/-- A valid value that comes through is not refused. -/
theorem Transmits.yields {kind : ConfigKind} {v : Json} (h : kind.Transmits v)
    (hw : v.Writable) (hv : kind.violation? v = none) :
    ∃ content, kind.Yields (some v.render) content := by
  have ha := accepts_of_violation?_eq_none hv
  have hdepth : fitsDepth maxDepth v = true := fitsDepth_of_accepts h.distinctNames ha (by decide)
  obtain ⟨content, hdecode⟩ := h.decoder_tree hv
  exact ⟨content, yields_render hw h.oneLine
    ⟨h.doubles, hdepth, h.allowed, h.shortNames, h.distinctNames⟩ hv hdecode⟩

end ConfigKind

end Stepwise
