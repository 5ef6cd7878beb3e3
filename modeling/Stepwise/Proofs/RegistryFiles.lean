import Stepwise.Proofs.SpelledTrees
import Stepwise.Proofs.TransmittedValues
import Stepwise.Session.RegistryFile

/-!
# Registry files

A registry file is applied section by section, each as a request with the JSON form of
the section for its data. Section and request never disagree about the schema, because
both check the same value. They can disagree after that: the request reads its data
once more as YAML and decodes it, and what it refuses then is logged and not reported.

What a section installs is decoded from the text of its JSON form, where every scalar
is written by its meaning and not as in the file.
-/
namespace Stepwise

open Yaml (Node)

namespace Payload

theorem sectionJson_eq_some {p : Payload} {path : List String} {j : Json}
    (h : p.sectionJson path = .ok (some j)) : ∃ n, p.find? path = some n ∧ n.toJson? = some j := by
  unfold sectionJson at h
  split at h
  · cases h
  · rename_i n hn
    split at h
    · rename_i json hjson
      obtain rfl : json = j := by simpa using h
      exact ⟨n, hn, hjson⟩
    · cases h

end Payload

theorem ConfigKind.mem_all (kind : ConfigKind) : kind ∈ all := by
  cases kind <;> decide

namespace Session

/-! ## One section -/

section
variable {p : Payload} {before : Loaded} {k : ConfigKind}

/-- A section sets the registry of its kind and no other. -/
theorem loadSection_registry (kind : ConfigKind) :
    (loadSection p before k).session.configuration.registry kind =
      match p.sectionJson [k.name] with
      | .ok (some j) =>
        if k = kind then kind.registryOf (some j.render)
        else before.session.configuration.registry kind
      | _ => before.session.configuration.registry kind := by
  rw [loadSection]
  cases h : p.sectionJson [k.name] with
  | error e => rfl
  | ok found =>
      cases found with
      | none => rfl
      | some j =>
          simp only [process_configure_configuration, Configuration.apply_fst]
          by_cases hk : k = kind
          · subst hk
            rw [if_pos rfl, Configuration.put_registry_self, ConfigKind.registryOf]
          · rw [if_neg hk, Configuration.put_registry_of_ne _ _ _ (Ne.symm hk)]

/-- The section of a kind is there and its request refuses it. -/
def Refuses (p : Payload) (kind : ConfigKind) : Prop :=
  ∃ j, p.sectionJson [kind.name] = .ok (some j) ∧
    ∀ content, ¬kind.Yields (some j.render) content

/-- The section of a kind is not there, or it can be written and passes its schema. -/
def Passes (p : Payload) (kind : ConfigKind) : Prop :=
  ∃ found, p.sectionJson [kind.name] = .ok found ∧ ∀ j ∈ found, kind.violation? j = none

theorem loadSection_errors :
    (loadSection p before k).errors = [] ↔ before.errors = [] ∧ Passes p k := by
  rw [loadSection, Passes]
  cases hj : p.sectionJson [k.name] with
  | error e => simp
  | ok found =>
      cases found with
      | none => simp
      | some json =>
          cases hv : k.violation? json with
          | none => simp [hv]
          | some v => simp [hv]

theorem rejected_mem_loadSection :
    LogEvent.rejected ∈ (loadSection p before k).log ↔
      LogEvent.rejected ∈ before.log ∨ Refuses p k := by
  rw [loadSection, Refuses]
  cases hj : p.sectionJson [k.name] with
  | error e => simp
  | ok found =>
      cases found with
      | none => simp
      | some json =>
          have hsnd := before.session.configuration.apply_snd k (some json.render)
          -- the request logs a rejection just when applying it reports a refusal
          have hlog : LogEvent.rejected ∈
              (before.session.process (.configure k (some json.render))).log ↔
                (before.session.configuration.apply k (some json.render)).2 ≠ none := by
            generalize before.session = s
            rw [process]
            rcases s.configuration.apply k (some json.render) with ⟨c, _ | refusal⟩ <;> simp
          simp only [List.mem_append, hlog, ne_eq, hsnd, List.mem_singleton]
          simp

end

/-! ## All sections -/

theorem foldl_loadSection_errors {p : Payload} (kinds : List ConfigKind) (before : Loaded) :
    (kinds.foldl (loadSection p) before).errors = [] ↔
      before.errors = [] ∧ ∀ kind ∈ kinds, Passes p kind := by
  induction kinds generalizing before with
  | nil => simp
  | cons k kinds ih =>
      rw [List.foldl_cons, ih, loadSection_errors, and_assoc, List.forall_mem_cons]

theorem rejected_mem_foldl {p : Payload} (kinds : List ConfigKind) (before : Loaded) :
    LogEvent.rejected ∈ (kinds.foldl (loadSection p) before).log ↔
      LogEvent.rejected ∈ before.log ∨ ∃ kind ∈ kinds, Refuses p kind := by
  induction kinds generalizing before with
  | nil => simp
  | cons k kinds ih =>
      rw [List.foldl_cons, ih, rejected_mem_loadSection, or_assoc]
      simp

/-- After a section the registry of its kind is what its data stands for, whatever comes
later. -/
theorem foldl_loadSection_registry {p : Payload} {kind : ConfigKind} {j : Json}
    (hj : p.sectionJson [kind.name] = .ok (some j)) (kinds : List ConfigKind) (before : Loaded)
    (h : kind ∈ kinds ∨
      before.session.configuration.registry kind = kind.registryOf (some j.render)) :
    (kinds.foldl (loadSection p) before).session.configuration.registry kind =
      kind.registryOf (some j.render) := by
  -- the section is still to come, or it has set the registry already
  induction kinds generalizing before with
  | nil => exact h.resolve_left List.not_mem_nil
  | cons k kinds ih =>
      rw [List.foldl_cons]
      by_cases hk : k = kind
      · subst hk
        refine ih _ (.inr ?_)
        rw [loadSection_registry, hj]
        exact if_pos rfl
      · refine ih _ ?_
        rcases h with hmem | hbefore
        · exact .inl ((List.mem_cons.mp hmem).resolve_left (Ne.symm hk))
        · right
          rw [loadSection_registry, ← hbefore]
          split
          · exact if_neg hk
          · rfl

section
variable (s : Session) {text : String} {p : Payload} (hp : Payload.parse text = .ok p)
include hp

theorem loadRegistry_errors : (s.loadRegistry text).errors = [] ↔ ∀ kind, Passes p kind := by
  rw [loadRegistry, hp]
  simp [foldl_loadSection_errors, ConfigKind.mem_all]

theorem rejected_mem_loadRegistry :
    LogEvent.rejected ∈ (s.loadRegistry text).log ↔ ∃ kind, Refuses p kind := by
  rw [loadRegistry, hp]
  simp [rejected_mem_foldl, ConfigKind.mem_all]

theorem loadRegistry_registry {kind : ConfigKind} {j : Json}
    (hj : p.sectionJson [kind.name] = .ok (some j)) :
    (s.loadRegistry text).session.configuration.registry kind =
      kind.registryOf (some j.render) := by
  rw [loadRegistry, hp]
  exact foldl_loadSection_registry hj ConfigKind.all _ (.inl kind.mem_all)

end

/-! ## What is not reported -/

/-- A registry file without errors has only valid sections. Such a section is installed if
it comes through its request, and if all do, no request refuses its data. -/
theorem loadRegistry_installs_valid (s : Session) {text : String} {p : Payload}
    (hp : Payload.parse text = .ok p) (he : (s.loadRegistry text).errors = []) :
    (∀ (kind : ConfigKind) (j : Json), p.sectionJson [kind.name] = .ok (some j) →
      kind.violation? j = none ∧ (kind.Transmits j →
        ∃ content, kind.Yields (some j.render) content ∧
          (s.loadRegistry text).session.configuration.registry kind = kind.holding content)) ∧
      ((∀ (kind : ConfigKind) (j : Json), p.sectionJson [kind.name] = .ok (some j) →
        kind.Transmits j) → LogEvent.rejected ∉ (s.loadRegistry text).log) := by
  have hvalid : ∀ (kind : ConfigKind) (j : Json), p.sectionJson [kind.name] = .ok (some j) →
      kind.violation? j = none := by
    intro kind j hj
    obtain ⟨found, hfound, hv⟩ := (s.loadRegistry_errors hp).mp he kind
    rw [hj] at hfound
    exact hv j (Except.ok.inj hfound).symm
  have hyields : ∀ (kind : ConfigKind) (j : Json), p.sectionJson [kind.name] = .ok (some j) →
      kind.Transmits j →
      ∃ content, kind.Yields (some j.render) content := by
    intro kind j hj ht
    obtain ⟨n, -, hjson⟩ := Payload.sectionJson_eq_some hj
    exact ht.yields (n.writable_toJson? j hjson) (hvalid kind j hj)
  refine ⟨fun kind j hj => ⟨hvalid kind j hj, fun ht => ?_⟩, fun ht hrejected => ?_⟩
  · obtain ⟨content, hcontent⟩ := hyields kind j hj ht
    refine ⟨content, hcontent, ?_⟩
    rw [s.loadRegistry_registry hp hj, ConfigKind.registryOf_of_yields hcontent]
  · obtain ⟨kind, j, hj, hrefused⟩ := (s.rejected_mem_loadRegistry hp).mp hrejected
    obtain ⟨content, hcontent⟩ := hyields kind j hj (ht kind j hj)
    exact hrefused content hcontent

def fileOf (kind : ConfigKind) (v : Json) : Json :=
  .object [(kind.name, v)]

def payloadOf (kind : ConfigKind) (v : Json) : Payload :=
  ⟨some (fileOf kind v).tree, fileOf kind v⟩

theorem name_ne {kind k : ConfigKind} (h : k ≠ kind) : (kind.name == k.name) = false := by
  cases kind <;> cases k <;> first | exact absurd rfl h | decide

section
variable {kind : ConfigKind} {v : Json} (hv : v.tree.toJson? = some v)
include hv

theorem sectionJson_payloadOf (k : ConfigKind) :
    (payloadOf kind v).sectionJson [k.name] = .ok (if k = kind then some v else none) := by
  have hfind : (payloadOf kind v).find? [k.name] = if k = kind then some v.tree else none := by
    by_cases hk : k = kind
    · subst hk
      simp [Payload.find?, payloadOf, fileOf, Json.tree, Json.memberTrees, Node.find?, Node.value]
    · simp [Payload.find?, payloadOf, fileOf, Json.tree, Json.memberTrees, Node.find?, Node.value,
        hk, name_ne hk]
  rw [Payload.sectionJson, hfind]
  by_cases hk : k = kind
  · simp only [hk, if_true, hv]
  · simp only [hk, if_false]

theorem eq_of_sectionJson_payloadOf {k : ConfigKind} {j : Json}
    (h : (payloadOf kind v).sectionJson [k.name] = .ok (some j)) : k = kind ∧ j = v := by
  rw [sectionJson_payloadOf hv] at h
  by_cases hk : k = kind
  · rw [if_pos hk] at h
    exact ⟨hk, (Option.some.inj (Except.ok.inj h)).symm⟩
  · rw [if_neg hk] at h
    cases h

theorem loadRegistry_fileOf_errors (s : Session) (hvalid : kind.violation? v = none)
    (hp : Payload.parse (fileOf kind v).render = .ok (payloadOf kind v)) :
    (s.loadRegistry (fileOf kind v).render).errors = [] := by
  refine (s.loadRegistry_errors hp).mpr fun k => ?_
  have hsection : (payloadOf kind v).sectionJson [k.name] = _ := sectionJson_payloadOf hv k
  refine ⟨_, hsection, fun j hj => ?_⟩
  rw [Option.mem_def.mp hj] at hsection
  obtain ⟨rfl, rfl⟩ := eq_of_sectionJson_payloadOf hv hsection
  exact hvalid

end

theorem parse_fileOf {kind : ConfigKind} {v : Json} {value : Yaml.Value} (hw : v.Writable)
    (hline : (fileOf kind v).OnOneLine)
    (hread : ((fileOf kind v).render.toList.all Yaml.isAllowed &&
      (fileOf kind v).hasShortNames) = true)
    (hdepth : Json.fitsDepth Json.maxDepth (fileOf kind v) = true)
    (hvalue : (fileOf kind v).tree.documentValue = .ok value)
    (hjson : value.toJson? = some (fileOf kind v)) :
    Payload.parse (fileOf kind v).render = .ok (payloadOf kind v) := by
  have hwritable : (fileOf kind v).Writable := by
    refine .object fun m hm => ?_
    obtain rfl := List.mem_singleton.mp hm
    exact hw
  refine (hwritable.payload_render id hline hdepth _).mpr ⟨hread, ?_⟩
  rw [Payload.ofRoot, hvalue]
  simp only [hjson, payloadOf]

def numbered (n : Nat) : Json :=
  .object [("x", .number (toString (n : Int)))]

theorem writable_numbered (n : Nat) : (numbered n).Writable := by
  refine .object fun m hm => ?_
  obtain rfl := List.mem_singleton.mp hm
  exact .number (Number.isNumber_int n)

theorem distinctNames_numbered (n : Nat) : (numbered n).DistinctNames := by
  refine .object (List.nodup_singleton _) fun m hm => ?_
  obtain rfl := List.mem_singleton.mp hm
  exact .number

theorem parse_numbered :
    Payload.parse (fileOf .vars (numbered 5)).render = .ok (payloadOf .vars (numbered 5)) := by
  have hvalue : (fileOf .vars (numbered 5)).tree.documentValue =
      .ok (.map [("variables", .map [("x", .scalar (.int 5))])]) := rfl
  exact parse_fileOf (writable_numbered 5) (by decide) (by decide) (by decide) hvalue (by cbv)

theorem loadRegistry_installs_valid_numbered :
    (initial.loadRegistry (fileOf .vars (numbered 5)).render).errors = [] ∧
      LogEvent.rejected ∉ (initial.loadRegistry (fileOf .vars (numbered 5)).render).log ∧
      ∃ content, ConfigKind.vars.Yields (some (numbered 5).render) content ∧
        (initial.loadRegistry (fileOf .vars (numbered 5)).render).session.configuration.registry
          .vars = ConfigKind.vars.holding content := by
  have htree : (numbered 5).tree.toJson? = some (numbered 5) := rfl
  have htransmits : ConfigKind.vars.Transmits (numbered 5) := {
    oneLine := by decide
    doubles := by decide
    allowed := by decide
    shortNames := by decide
    distinctNames := distinctNames_numbered 5
    wholeMembers := by simp [ConfigKind.wholeMembers]
    knownKinds := nofun }
  have herrors := loadRegistry_fileOf_errors htree initial (by decide) parse_numbered
  obtain ⟨hinstalled, hlog⟩ := loadRegistry_installs_valid initial parse_numbered herrors
  have hsection : (payloadOf .vars (numbered 5)).sectionJson [ConfigKind.vars.name] =
      .ok (some (numbered 5)) := sectionJson_payloadOf htree .vars
  refine ⟨herrors, hlog ?_, (hinstalled .vars _ hsection).2 htransmits⟩
  intro kind j hj
  obtain ⟨rfl, rfl⟩ := eq_of_sectionJson_payloadOf htree hj
  exact htransmits

/-- A keyword entry of a kind that is not known. -/
def unknownKind : Json :=
  .array [.object [("kind", .string "q"), ("phrases", .array [.string "x"])]]

theorem writable_unknownKind : unknownKind.Writable := by
  refine .array fun v hv => ?_
  obtain rfl := List.mem_singleton.mp hv
  refine .object fun m hm => ?_
  simp only [List.mem_cons, List.not_mem_nil, or_false] at hm
  rcases hm with rfl | rfl
  · exact .string
  · refine .array fun w hw => ?_
    obtain rfl := List.mem_singleton.mp hw
    exact .string

theorem parse_unknownKind :
    Payload.parse (fileOf .keywords unknownKind).render =
      .ok (payloadOf .keywords unknownKind) := by
  have hvalue : (fileOf .keywords unknownKind).tree.documentValue = .ok (.map [("keywords",
      .list [.map [("kind", .scalar (.text "q")), ("phrases", .list [.scalar (.text "x")])]])]) :=
    rfl
  exact parse_fileOf writable_unknownKind (by decide) (by decide) (by decide) hvalue (by cbv)

/-- The request refuses the entry, whose kind the schema does not look at. -/
theorem refused_unknownKind (content : List Phrase) :
    ¬ConfigKind.keywords.Yields (some unknownKind.render) content := by
  rintro ⟨root, hadmit, hdecode⟩
  have hline : unknownKind.OnOneLine := by decide
  obtain ⟨-, -, rfl⟩ :=
    (ConfigKind.keywords.admits_render_iff writable_unknownKind id hline root).mp hadmit
  have herror : ConfigKind.keywords.decoder (some unknownKind.tree) =
      .error (.shape (.keywordKind "q") 1) := rfl
  rw [herror] at hdecode
  cases hdecode

/-- The file has no error, yet its keywords are refused and emptied. -/
theorem loadRegistry_empties_silently : ∃ text p, Payload.parse text = .ok p ∧
    (∃ j, p.sectionJson ["keywords"] = .ok (some j) ∧
      ConfigKind.keywords.violation? j = none) ∧
    ∀ s : Session, (s.loadRegistry text).errors = [] ∧
      LogEvent.rejected ∈ (s.loadRegistry text).log ∧
      (s.loadRegistry text).session.configuration.registry .keywords =
        ConfigKind.keywords.emptyRegistry := by
  have htree : unknownKind.tree.toJson? = some unknownKind := rfl
  have hvalid : ConfigKind.keywords.violation? unknownKind = none := by decide
  have hsection : (payloadOf .keywords unknownKind).sectionJson [ConfigKind.keywords.name] =
      .ok (some unknownKind) := sectionJson_payloadOf htree .keywords
  refine ⟨_, _, parse_unknownKind, ⟨unknownKind, hsection, hvalid⟩, fun s => ⟨?_, ?_, ?_⟩⟩
  · exact loadRegistry_fileOf_errors htree s hvalid parse_unknownKind
  · exact (s.rejected_mem_loadRegistry parse_unknownKind).mpr
      ⟨.keywords, unknownKind, hsection, refused_unknownKind⟩
  · rw [s.loadRegistry_registry parse_unknownKind hsection]
    exact ConfigKind.registryOf_of_refused refused_unknownKind

/-! ## What is installed -/

/-- A section is decoded as if every scalar in it were written like its JSON form. Where
the file writes them so, it is decoded as it stands. -/
theorem loadRegistry_decodes_respelled (s : Session) {text : String} {p : Payload}
    (hp : Payload.parse text = .ok p) {kind : ConfigKind} {n : Node}
    (hn : p.find? [kind.name] = some n) {j : Json} (hj : p.sectionJson [kind.name] = .ok (some j))
    (hv : kind.violation? j = none) {content : kind.Content}
    (hy : kind.Yields (some j.render) content) (hline : j.OnOneLine) :
    (s.loadRegistry text).session.configuration.registry kind = kind.holding content ∧
      kind.decoder (some n.respelled) = .ok content ∧
      (j.SpelledAs n → kind.decoder (some n) = .ok content) := by
  obtain ⟨n', hn', hjson⟩ := Payload.sectionJson_eq_some hj
  obtain rfl : n' = n := by simpa [hn'] using hn
  have hscalar := ConfigKind.not_isScalar_of_accepts (ConfigKind.accepts_of_violation?_eq_none hv)
  have hregistry : (s.loadRegistry text).session.configuration.registry kind =
      kind.holding content := by
    rw [s.loadRegistry_registry hp hj, ConfigKind.registryOf_of_yields hy]
  obtain ⟨root, hadmit, hdecode⟩ := hy
  obtain ⟨hcarries, -, rfl⟩ :=
    (kind.admits_render_iff (n'.writable_toJson? j hjson) hscalar hline root).mp hadmit
  -- the request decodes one writing of the value, and all writings decode alike
  have hwritings : ∀ m, j.SpelledAs m → kind.decoder (some m) = .ok content := fun m hm =>
    kind.decoder_alike hv hcarries.distinctNames hm j.hasTree_tree.spelledAs hdecode
  exact ⟨hregistry, hwritings _ (n'.spelledAs_respelled j hjson), hwritings n'⟩

theorem loadRegistry_decodes_respelled_numbered :
    (initial.loadRegistry (fileOf .vars (numbered 5)).render).session.configuration.registry .vars =
        ConfigKind.vars.holding ⟨[⟨"x", "x", "5"⟩]⟩ ∧
      ConfigKind.vars.decoder (some (numbered 5).tree.respelled) = .ok ⟨[⟨"x", "x", "5"⟩]⟩ ∧
      ConfigKind.vars.decoder (some (numbered 5).tree) = .ok ⟨[⟨"x", "x", "5"⟩]⟩ := by
  have hfind : (payloadOf .vars (numbered 5)).find? [ConfigKind.vars.name] =
      some (numbered 5).tree := by
    simp [Payload.find?, payloadOf, fileOf, Json.tree, Json.memberTrees, Node.find?, Node.value]
  have hvalid : ConfigKind.vars.violation? (numbered 5) = none := by decide
  have hline : (numbered 5).OnOneLine := by decide
  have hcarries : (numbered 5).Carries :=
    ⟨by decide, by decide, by decide, by decide, distinctNames_numbered 5⟩
  have hyields : ConfigKind.vars.Yields (some (numbered 5).render) ⟨[⟨"x", "x", "5"⟩]⟩ :=
    ConfigKind.yields_render (writable_numbered 5) hline hcarries hvalid rfl
  obtain ⟨hregistry, hrespelled, hdirect⟩ := loadRegistry_decodes_respelled initial
    parse_numbered hfind (sectionJson_payloadOf rfl .vars) hvalid hyields hline
  exact ⟨hregistry, hrespelled, hdirect (numbered 5).hasTree_tree.spelledAs⟩

/-- A variable with a number in base sixteen. -/
def hexText : String := "variables: \x7bx: 0x10\x7d"

def hexNode : Node :=
  .mapping 1 .map [(.scalar 1 .str .plain "x", .scalar 1 .int .plain "0x10")]

def hexRoot : Node :=
  .mapping 1 .map [(.scalar 1 .str .plain "variables", hexNode)]

theorem parse_hexText :
    Payload.parse hexText = .ok ⟨some hexRoot, .object [("variables", numbered 16)]⟩ := by
  have hscan : Yaml.scan hexText = ⟨[⟨.blockMappingStart, 0⟩, ⟨.key, 0⟩,
      ⟨.scalar .plain "variables", 0⟩, ⟨.value, 0⟩, ⟨.flowMappingStart, 0⟩, ⟨.key, 0⟩,
      ⟨.scalar .plain "x", 0⟩, ⟨.value, 0⟩, ⟨.scalar .plain "0x10", 0⟩, ⟨.flowMappingEnd, 0⟩,
      ⟨.blockEnd, 1⟩, ⟨.streamEnd, 1⟩], none⟩ := by
    cbv
  have hroot : Yaml.parse hexText = .ok (.root hexRoot) := by
    rw [Yaml.parse, hscan]
    rfl
  have hvalue : hexRoot.documentValue =
      .ok (.map [("variables", .map [("x", .scalar (.int 16))])]) := rfl
  have hjson : Yaml.Value.toJson? (.map [("variables", .map [("x", .scalar (.int 16))])]) =
      some (.object [("variables", numbered 16)]) := by
    cbv
  rw [Payload.parse, hroot]
  simp only [Payload.ofRoot, hvalue, hjson]

/-- The number is installed in base ten, where the section itself keeps its text. -/
theorem loadRegistry_rewrites_scalar : ∃ p, Payload.parse hexText = .ok p ∧
    p.find? ["variables"] = some hexNode ∧ p.sectionJson ["variables"] = .ok (some (numbered 16)) ∧
    ConfigKind.vars.violation? (numbered 16) = none ∧
    ConfigKind.vars.Yields (some (numbered 16).render) ⟨[⟨"x", "x", "16"⟩]⟩ ∧
    ∃ direct, ConfigKind.vars.decoder (some hexNode) = .ok direct ∧
      ∀ s : Session, (s.loadRegistry hexText).session.configuration.registry .vars ≠
        ConfigKind.vars.holding direct := by
  have hfind : Payload.find? ⟨some hexRoot, .object [("variables", numbered 16)]⟩ ["variables"] =
      some hexNode := by
    simp [Payload.find?, hexRoot, Node.find?, Node.value]
  have hsection : Payload.sectionJson ⟨some hexRoot, .object [("variables", numbered 16)]⟩
      [ConfigKind.vars.name] = .ok (some (numbered 16)) := by
    have hjson : hexNode.toJson? = some (numbered 16) := rfl
    rw [Payload.sectionJson, ConfigKind.name, hfind]
    simp only [hjson]
  have hvalid : ConfigKind.vars.violation? (numbered 16) = none := by decide
  have hline : (numbered 16).OnOneLine := by decide
  have hcarries : (numbered 16).Carries :=
    ⟨by decide, by decide, by decide, by decide, distinctNames_numbered 16⟩
  have hyields : ConfigKind.vars.Yields (some (numbered 16).render) ⟨[⟨"x", "x", "16"⟩]⟩ :=
    ConfigKind.yields_render (writable_numbered 16) hline hcarries hvalid rfl
  refine ⟨_, parse_hexText, hfind, hsection, hvalid, hyields, ⟨[⟨"x", "x", "0x10"⟩]⟩, rfl, ?_⟩
  intro s
  have hne : (⟨[⟨"x", "x", "16"⟩]⟩ : Variables) ≠ ⟨[⟨"x", "x", "0x10"⟩]⟩ := by decide
  rw [s.loadRegistry_registry parse_hexText hsection, ConfigKind.registryOf_of_yields hyields]
  exact hne

end Session

end Stepwise
