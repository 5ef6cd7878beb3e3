import Stepwise.Proofs.JsonTree
import Stepwise.Proofs.RegistryReplacement
import Stepwise.Proofs.SchemaAcceptance

/-!
# Valid payloads can be decoded

The schema of a kind and its decoder are written apart, and the decoder reads nodes
where the schema reads values. A value that the schema accepts has a tree that the
decoder reads, with two gaps that no schema can close: a whole number may be out of
range or written with an exponent, and a keyword entry may name an unknown kind.
-/
namespace Stepwise

open Yaml (Node)

namespace Json

def IsMember (m : String × Json) (n : Node × Node) : Prop :=
  IsName m.1 n.1 ∧ m.2.HasTree n.2

theorem isMember_of_parts {members : List (String × Json)} {nodes : List (Node × Node)}
    (hk : List.Forall₂ IsName (members.map Prod.fst) (nodes.map Prod.fst))
    (hv : List.Forall₂ HasTree (members.map Prod.snd) (nodes.map Prod.snd)) :
    List.Forall₂ IsMember members nodes := by
  rw [List.forall₂_map_left_iff, List.forall₂_map_right_iff] at hk hv
  exact List.forall₂_iff_zip.mpr ⟨hk.length_eq, fun hz =>
    ⟨(List.forall₂_iff_zip.mp hk).2 hz, (List.forall₂_iff_zip.mp hv).2 hz⟩⟩

/-- A member that is a number is a plain integer in range. -/
def PlainMember (name : String) (v : Json) : Prop :=
  ∀ text, v.get? name = some (.number text) → ∃ n, PlainInteger text n

end Json

namespace Schema
open Json

theorem Accepts.isScalar {types : List JsonType} {v : Json} (h : (ofTypes types).Accepts v)
    (hne : types ≠ []) (ha : JsonType.array ∉ types) (ho : JsonType.object ∉ types) :
    v.IsScalar := by
  obtain ⟨t, ht, hmem⟩ := h.hasType hne
  cases v with
  | array items =>
      rw [List.mem_singleton.mp ht] at hmem
      exact absurd hmem ha
  | object members =>
      rw [List.mem_singleton.mp ht] at hmem
      exact absurd hmem ho
  | _ => trivial

theorem Accepts.isNumberOrNull {types : List JsonType} {v : Json}
    (h : (ofTypes types).Accepts v) (hne : types ≠ [])
    (hsub : ∀ t ∈ types, t = .integer ∨ t = .null) : v = .null ∨ ∃ text, v = .number text := by
  obtain ⟨t, ht, hmem⟩ := h.hasType hne
  have hkind := hsub t hmem
  cases v with
  | null => exact .inl rfl
  | number text => exact .inr ⟨text, rfl⟩
  | _ =>
      rw [Json.types, List.mem_singleton] at ht
      subst ht
      rcases hkind with hk | hk <;> cases hk

theorem Accepts.isWhole {least : Nat} {v : Json} (h : (wholeFrom least).Accepts v) :
    ∃ text, v = .number text := by
  have hfits := h.rules.1
  cases v with
  | number text => exact ⟨text, rfl⟩
  | _ => simp [typeFits, Json.types] at hfits

end Schema

namespace Payload
open Json Schema ConfigKind

/-- Decoding all of some nodes succeeds, or fails with the fault of one of them. -/
theorem mapM_cases {α β ε : Type} (f : α → Except ε β) (xs : List α) :
    (∃ ys, xs.mapM f = .ok ys) ∨ ∃ x ∈ xs, ∃ e, f x = .error e ∧ xs.mapM f = .error e := by
  induction xs with
  | nil => exact .inl ⟨[], rfl⟩
  | cons x xs ih =>
      rw [List.mapM_cons]
      cases hx : f x with
      | error e => exact .inr ⟨x, List.mem_cons_self, e, hx, rfl⟩
      | ok y =>
          rcases ih with ⟨ys, hys⟩ | ⟨z, hz, e, he, hfail⟩
          · exact .inl ⟨y :: ys, by rw [hys]; rfl⟩
          · exact .inr ⟨z, List.mem_cons_of_mem x hz, e, he, by rw [hfail]; rfl⟩

theorem mapM_ok {α β γ ε : Type} {r : α → β → Prop} {as : List α} {bs : List β}
    (h : List.Forall₂ r as bs) {f : β → Except ε γ}
    (hf : ∀ a ∈ as, ∀ b, r a b → ∃ y, f b = .ok y) : ∃ ys, bs.mapM f = .ok ys := by
  rcases mapM_cases f bs with hok | ⟨b, hb, e, he, -⟩
  · exact hok
  · obtain ⟨a, ha, hab⟩ := exists_of_mem_right h hb
    obtain ⟨y, hy⟩ := hf a ha b hab
    rw [hy] at he
    cases he

section
variable {v : Json} {n : Node} (ht : v.HasTree n)
include ht

theorem itemText_ok (hs : v.IsScalar) : ∃ text, itemText n = .ok text := by
  cases ht with
  | array _ => exact hs.elim
  | object _ _ => exact hs.elim
  | _ => exact ⟨_, rfl⟩

theorem writtenTexts_items {s : Schema} {least : Nat} (ha : (Schema.arrayOf s least).Accepts v)
    (hs : ∀ w, s.Accepts w → w.IsScalar) : ∃ texts, writtenTexts n = .ok texts := by
  obtain ⟨items, rfl, hitems⟩ := ha.isArray
  cases ht with
  | array hnodes =>
      exact mapM_ok hnodes fun w hw node htree => itemText_ok htree (hs w (hitems w hw))

end

theorem isScalar_of_string {v : Json} (h : (ofTypes [.string]).Accepts v) : v.IsScalar := by
  obtain ⟨text, rfl⟩ := h.isString
  trivial

theorem isScalar_of_text {least : Nat} {v : Json} (h : (Schema.text least).Accepts v) :
    v.IsScalar := by
  obtain ⟨text, rfl⟩ := h.isText
  trivial

theorem metatags_ok {v : Json} {n : Node} (ht : v.HasTree n) (ha : metatagsSchema.Accepts v) :
    ∃ tags, metatags (some n) = .ok tags :=
  writtenTexts_items ht ha fun _ => isScalar_of_text

/-! ## Records -/

structure RecordOf (properties : List (String × Schema)) (members : List (String × Json))
    (entries : List (String × Node)) : Prop where
  nodup : (members.map Prod.fst).Nodup
  isEntry : List.Forall₂ IsEntry members entries
  accepted : ∀ p ∈ properties, ∀ w, members.lookup p.1 = some w → p.2.Accepts w

theorem exists_recordOf {properties : List (String × Schema)} {required : List String}
    {alternatives : List Schema} {v : Json} {n : Node} (ht : v.HasTree n) (hd : v.DistinctNames)
    (ha : (Schema.record properties required alternatives).Accepts v) :
    ∃ members entries, v = .object members ∧ n.entries? = some (some entries) ∧
      RecordOf properties members entries := by
  obtain ⟨members, rfl, -, hproperties⟩ := ha.isRecord
  cases hd with
  | object hnodup _ =>
      rw [lastMembers_of_nodup hnodup] at hproperties
      obtain ⟨entries, hread, hentries⟩ := ht.entries?_object hnodup
      exact ⟨members, entries, rfl, hread, ⟨hnodup, hentries, hproperties⟩⟩

section
variable {properties : List (String × Schema)} {members : List (String × Json)}
  {entries : List (String × Node)} (h : RecordOf properties members entries)
include h

theorem RecordOf.textField (name : String) (types : List JsonType)
    (hp : (name, Schema.ofTypes types) ∈ properties)
    (htypes : types ≠ [] ∧ JsonType.array ∉ types ∧ JsonType.object ∉ types) :
    ∃ text, Yaml.textField entries name = some text :=
  textField_eq h.isEntry fun w hw =>
    (h.accepted _ hp w hw).isScalar htypes.1 htypes.2.1 htypes.2.2

theorem RecordOf.textsField (name : String) (least : Nat)
    (hp : (name, Schema.arrayOf (Schema.ofTypes [.string]) least) ∈ properties) :
    ∃ texts, Yaml.textsField entries name = some texts :=
  textsField_eq h.isEntry fun w hw => by
    obtain ⟨items, rfl, hitems⟩ := (h.accepted _ hp w hw).isArray
    exact ⟨items, rfl, fun i hi => (hitems i hi).isString⟩

/-- A field that is a whole number or a null where the schema allows it. -/
theorem RecordOf.intField {name : String}
    (hcount : ∀ w, members.lookup name = some w →
      w = .null ∨ ∃ text, w = .number text)
    (hplain : PlainMember name (.object members)) :
    ∃ k, Yaml.intField entries name = some k :=
  intField_eq h.isEntry fun w hw => by
    rcases hcount w hw with rfl | ⟨text, rfl⟩
    · exact .null
    · obtain ⟨k, hk⟩ := hplain text ((get?_object h.nodup name).trans hw)
      exact .integer hk

end

/-! ## Steps, variables, imports and messages -/

theorem stepDefinition_ok {v : Json} {n : Node} (ht : v.HasTree n) (hd : v.DistinctNames)
    (ha : stepSchema.Accepts v) (hplain : PlainMember "kind" v) :
    ∃ d, stepDefinition n = .ok d := by
  obtain ⟨members, entries, rfl, hread, hrecord⟩ := exists_recordOf ht hd ha
  obtain ⟨key, hkey⟩ := hrecord.textField "key" [.string] (by simp) (by decide)
  obtain ⟨label, hlabel⟩ := hrecord.textField "label" [.string] (by simp) (by decide)
  obtain ⟨keyword, hkeyword⟩ := hrecord.textField "keyword" [.string] (by simp) (by decide)
  obtain ⟨insertText, hinsert⟩ := hrecord.textField "insertText" [.string] (by simp) (by decide)
  obtain ⟨documentation, hdocumentation⟩ :=
    hrecord.textField "documentation" [.string, .null] (by simp) (by decide)
  obtain ⟨group, hgroup⟩ := hrecord.textField "section" [.string, .null] (by simp) (by decide)
  obtain ⟨sortText, hsort⟩ := hrecord.textField "sortText" [.string, .null] (by simp) (by decide)
  have hcount : ∀ w, members.lookup "kind" = some w → w = .null ∨ ∃ text, w = .number text := by
    intro w hw
    have hkind := hrecord.accepted ("kind", ofTypes [.integer, .null]) (by simp) w hw
    exact hkind.isNumberOrNull (by simp) (by simp)
  obtain ⟨kind, hkind⟩ := hrecord.intField hcount hplain
  refine ⟨{ key, label, keyword, insertText, documentation, group, sortText, kind }, ?_⟩
  simp only [stepDefinition, hread, Option.getD_some, hkey, hlabel, hkeyword, hinsert,
    hdocumentation, hgroup, hsort, hkind, orField, bind, Except.bind, pure, Except.pure]

/-- The members of an object and of its tree, where names are distinct. -/
theorem members_of_tree {members : List (String × Json)} {n : Node}
    (ht : (Json.object members).HasTree n) (hd : (Json.object members).DistinctNames) :
    ∃ line nodes, n = .mapping line .map nodes ∧ List.Forall₂ IsMember members nodes ∧
      lastMembers members = members ∧ ∀ m ∈ members, m.2.DistinctNames := by
  cases ht with
  | @object line _ nodes hk hv =>
      cases hd with
      | object hnodup hdeep =>
          exact ⟨line, nodes, rfl, isMember_of_parts hk hv, lastMembers_of_nodup hnodup, hdeep⟩

theorem items_of_tree {items : List Json} {n : Node} (ht : (Json.array items).HasTree n)
    (hd : (Json.array items).DistinctNames) :
    ∃ line nodes, n = .sequence line .seq nodes ∧ List.Forall₂ HasTree items nodes ∧
      ∀ w ∈ items, w.DistinctNames := by
  cases ht with
  | @array line _ nodes hnodes =>
      cases hd with
      | array hdeep => exact ⟨line, nodes, rfl, hnodes, hdeep⟩

theorem steps_ok {v : Json} {n : Node} (ht : v.HasTree n) (hd : v.DistinctNames)
    (ha : stepsSchema.Accepts v) (hplain : ∀ w ∈ v.parts, PlainMember "kind" w) :
    ∃ found, steps (some n) = .ok found := by
  rcases ha.either with ha | ha
  · obtain ⟨members, rfl, hmembers⟩ := ha.isMap
    obtain ⟨line, nodes, rfl, hnodes, hlast, hdeep⟩ := members_of_tree ht hd
    rw [hlast] at hmembers
    obtain ⟨defs, hdefs⟩ := mapM_ok hnodes (f := fun m : Node × Node => do
      let d ← stepDefinition m.2
      return { d with key := m.1.value }) fun m hm node hnode => by
        obtain ⟨d, hdef⟩ := stepDefinition_ok hnode.2 (hdeep m hm) (hmembers m hm)
          (hplain m.2 (List.mem_map_of_mem hm))
        exact ⟨{ d with key := node.1.value }, by rw [hdef]; rfl⟩
    exact ⟨Steps.ofList defs, by rw [steps, hdefs]; rfl⟩
  · obtain ⟨items, rfl, hitems⟩ := ha.isArray
    obtain ⟨line, nodes, rfl, hnodes, hdeep⟩ := items_of_tree ht hd
    obtain ⟨defs, hdefs⟩ := mapM_ok hnodes fun w hw node htree =>
      stepDefinition_ok htree (hdeep w hw) ((hitems w hw).everyPart stepSchema (by simp))
        (hplain w hw)
    exact ⟨Steps.ofList defs, by rw [steps, hdefs]; rfl⟩

theorem variableEntry_ok {m : String × Json} {node : Node × Node} (h : IsMember m node)
    (hd : m.2.DistinctNames)
    (ha : (Schema.oneOf [ofTypes [.string, .number, .boolean],
      record [("name", ofTypes [.string]),
        ("value", ofTypes [.string, .number, .boolean, .null])] ["name"] []]).Accepts m.2) :
    ∃ found, variableEntry node = .ok found := by
  obtain ⟨k, n⟩ := node
  obtain ⟨name, v⟩ := m
  obtain ⟨hname, ht⟩ := h
  rcases ha.either with ha | ha
  · have hscalar : v.IsScalar := ha.isScalar (by simp) (by simp) (by simp)
    cases ht with
    | array _ => exact hscalar.elim
    | object _ _ => exact hscalar.elim
    | _ => exact ⟨_, rfl⟩
  · obtain ⟨members, entries, rfl, hread, hrecord⟩ := exists_recordOf ht hd ha
    obtain ⟨text, htext⟩ := hrecord.textField "name" [.string] (by simp) (by decide)
    obtain ⟨value, hvalue⟩ :=
      hrecord.textField "value" [.string, .number, .boolean, .null] (by simp) (by decide)
    obtain ⟨line, nodes, rfl, -⟩ := members_of_tree ht hd
    refine ⟨⟨k.value, if text.isEmpty then k.value else text, value⟩, ?_⟩
    simp only [variableEntry, hread, Option.getD_some, htext, hvalue, orField, bind, Except.bind,
      pure, Except.pure]

theorem vars_ok {v : Json} {n : Node} (ht : v.HasTree n) (hd : v.DistinctNames)
    (ha : variablesSchema.Accepts v) : ∃ found, vars (some n) = .ok found := by
  obtain ⟨members, rfl, hmembers⟩ := ha.isMap
  obtain ⟨line, nodes, rfl, hnodes, hlast, hdeep⟩ := members_of_tree ht hd
  rw [hlast] at hmembers
  obtain ⟨found, hfound⟩ := mapM_ok hnodes fun m hm node hnode =>
    variableEntry_ok hnode (hdeep m hm) (hmembers m hm)
  exact ⟨Variables.ofList found, by rw [vars, hfound]; rfl⟩

theorem importEntry_ok {m : String × Json} {node : Node × Node} (h : IsMember m node)
    (hd : m.2.DistinctNames)
    (ha : (Schema.oneOf [Schema.text 1,
      record [("uri", ofTypes [.string]), ("path", ofTypes [.string]),
        ("lineNumber", wholeFrom 1)] [] [requiring ["uri"], requiring ["path"]]]).Accepts m.2)
    (hplain : PlainMember "lineNumber" m.2) : ∃ found, importEntry node = .ok found := by
  obtain ⟨k, n⟩ := node
  obtain ⟨name, v⟩ := m
  obtain ⟨hname, ht⟩ := h
  rcases ha.either with ha | ha
  · obtain ⟨text, rfl⟩ := ha.isText
    cases ht
    exact ⟨_, rfl⟩
  · obtain ⟨members, entries, rfl, hread, hrecord⟩ := exists_recordOf ht hd ha
    obtain ⟨uri, huri⟩ := hrecord.textField "uri" [.string] (by simp) (by decide)
    obtain ⟨path, hpath⟩ := hrecord.textField "path" [.string] (by simp) (by decide)
    have hcount : ∀ w, members.lookup "lineNumber" = some w →
        w = .null ∨ ∃ text, w = .number text := fun w hw =>
      .inr (hrecord.accepted ("lineNumber", wholeFrom 1) (by simp) w hw).isWhole
    obtain ⟨lineNumber, hline⟩ := hrecord.intField hcount hplain
    obtain ⟨line, nodes, rfl, -⟩ := members_of_tree ht hd
    refine ⟨⟨k.value, if uri.isEmpty then path else uri, lineNumber⟩, ?_⟩
    simp only [importEntry, hread, Option.getD_some, huri, hpath, hline, orField, bind,
      Except.bind, pure, Except.pure]

theorem imports_ok {v : Json} {n : Node} (ht : v.HasTree n) (hd : v.DistinctNames)
    (ha : importsSchema.Accepts v) (hplain : ∀ w ∈ v.parts, PlainMember "lineNumber" w) :
    ∃ found, imports (some n) = .ok found := by
  obtain ⟨members, rfl, hmembers⟩ := ha.isMap
  obtain ⟨line, nodes, rfl, hnodes, hlast, hdeep⟩ := members_of_tree ht hd
  rw [hlast] at hmembers
  obtain ⟨found, hfound⟩ := mapM_ok hnodes fun m hm node hnode =>
    importEntry_ok hnode (hdeep m hm) (hmembers m hm) (hplain m.2 (List.mem_map_of_mem hm))
  exact ⟨Imports.ofList found, by rw [imports, hfound]; rfl⟩

theorem entryTexts_eq {members : List (String × Json)} {entries : List (String × Node)}
    (h : List.Forall₂ IsEntry members entries) (hs : ∀ m ∈ members, m.2.IsScalar) :
    ∃ texts, (entries.mapM fun e => e.2.text?.map fun t => (e.1, t.getD "")) = some texts := by
  induction h with
  | nil => exact ⟨[], rfl⟩
  | @cons m e members entries hm _ ih =>
      obtain ⟨hscalar, hrest⟩ := List.forall_mem_cons.mp hs
      obtain ⟨text, htext⟩ := hm.2.text?_eq hscalar
      obtain ⟨texts, htexts⟩ := ih hrest
      exact ⟨(e.1, text.getD "") :: texts, by rw [List.mapM_cons, htext, htexts]; rfl⟩

theorem messages_ok {v : Json} {n : Node} (ht : v.HasTree n) (hd : v.DistinctNames)
    (ha : messagesSchema.Accepts v) : ∃ found, messages (some n) = .ok found := by
  obtain ⟨members, rfl, hmembers⟩ := ha.isMap
  cases hd with
  | object hnodup hdeep =>
      rw [lastMembers_of_nodup hnodup] at hmembers
      obtain ⟨entries, hread, hentries⟩ := ht.entries?_object hnodup
      obtain ⟨texts, htexts⟩ := entryTexts_eq hentries fun m hm =>
        isScalar_of_string (hmembers m hm)
      refine ⟨texts, ?_⟩
      rw [messages, hread]
      exact congrArg orField htexts

/-! ## Keywords -/

/-- An entry names a kind that is not known. -/
def NamesUnknownKind (entry : Json) (name : String) : Prop :=
  entry.get? "kind" = some (.string name) ∧ name ≠ "" ∧ Kind.ofCategory? name = none

theorem phrase_ok {v : Json} {n : Node} (ht : v.HasTree n) (ha : phraseSchema.Accepts v) :
    ∃ texts, writtenTexts n = .ok texts := by
  rcases ha.either with ha | ha
  · obtain ⟨text, rfl⟩ := ha.isString
    cases ht
    exact ⟨_, rfl⟩
  · exact writtenTexts_items ht ha fun _ => isScalar_of_string

theorem kindField_eq {members : List (String × Json)} {entries : List (String × Node)}
    (h : RecordOf [("language", ofTypes [.string]), ("kind", ofTypes [.string]),
      ("phrases", Schema.arrayOf (ofTypes [.string]) 1)] members entries) :
    Yaml.textField entries "kind" = some "" ∨ ∃ name,
      (Json.object members).get? "kind" = some (.string name) ∧
        Yaml.textField entries "kind" = some name := by
  rcases lookup_of_forall₂ h.isEntry "kind" with ⟨-, he⟩ | ⟨v, n, hv, he, ht⟩
  · exact .inl (by rw [Yaml.textField, he])
  · obtain ⟨name, rfl⟩ := (h.accepted ("kind", ofTypes [.string]) (by simp) v hv).isString
    refine .inr ⟨name, (get?_object h.nodup "kind").trans hv, ?_⟩
    rw [Yaml.textField, he]
    simp only [ht.text?_string, Option.map_some, Option.getD_some]

/-- The kind of an entry is the one thing about it that the schema does not settle. -/
theorem entryPhrases_cases {v : Json} {n : Node} (ht : v.HasTree n) (hd : v.DistinctNames)
    (ha : keywordEntrySchema.Accepts v) :
    (∃ phrases, entryPhrases n = .ok phrases) ∨ ∃ name, NamesUnknownKind v name ∧
      entryPhrases n = .error (.shape (.keywordKind name) n.line) := by
  obtain ⟨members, entries, rfl, hread, hrecord⟩ := exists_recordOf ht hd ha
  obtain ⟨language, hlanguage⟩ := hrecord.textField "language" [.string] (by simp) (by decide)
  obtain ⟨texts, htexts⟩ := hrecord.textsField "phrases" 1 (by simp)
  have hentry : ∀ name, Yaml.textField entries "kind" = some name → entryPhrases n =
      (entryKind name n.line).map fun kind => texts.map fun p => ⟨language, kind, [p]⟩ := by
    intro name hname
    simp only [entryPhrases, hread, Option.getD_some, hlanguage, hname, htexts, orField, bind,
      Except.bind, pure, Except.pure, Except.map]
  rcases kindField_eq hrecord with hempty | ⟨name, hget, hname⟩
  · exact .inl ⟨_, hentry "" hempty⟩
  · rw [hentry name hname]
    unfold entryKind
    by_cases hne : name = ""
    · simp only [hne]
      exact .inl ⟨_, rfl⟩
    · have hempty : name.isEmpty = false := by simpa using hne
      rw [hempty]
      cases hk : Kind.ofCategory? name with
      | some kind => exact .inl ⟨_, rfl⟩
      | none => exact .inr ⟨name, ⟨hget, hne, hk⟩, rfl⟩

theorem listedPhrases_cases {v : Json} {n : Node} (ht : v.HasTree n) (hd : v.DistinctNames)
    (ha : (Schema.oneOf [phraseSchema, keywordEntrySchema]).Accepts v) :
    (∃ phrases, listedPhrases n = .ok phrases) ∨ ∃ name, NamesUnknownKind v name ∧
      listedPhrases n = .error (.shape (.keywordKind name) n.line) := by
  rcases ha.either with ha | ha
  · left
    obtain ⟨texts, htexts⟩ := phrase_ok ht ha
    cases n with
    | scalar line tag style text => exact ⟨_, rfl⟩
    | sequence line tag items => exact ⟨_, by rw [listedPhrases, htexts]; rfl⟩
    | mapping line tag members => cases htexts
    | reference line name target => cases htexts
  · have hcases := entryPhrases_cases ht hd ha
    obtain ⟨members, rfl, -⟩ := ha.isRecord
    obtain ⟨line, nodes, rfl, -⟩ := members_of_tree ht hd
    exact hcases

theorem languagePhrases_ok {m : String × Json} {node : Node × Node} (h : IsMember m node)
    (hd : m.2.DistinctNames) (ha : (Schema.mapOf phraseSchema).Accepts m.2) :
    ∃ phrases, languagePhrases node = .ok phrases := by
  obtain ⟨k, n⟩ := node
  obtain ⟨name, v⟩ := m
  obtain ⟨hname, ht⟩ := h
  obtain ⟨members, rfl, hmembers⟩ := ha.isMap
  obtain ⟨line, nodes, rfl, hnodes, hlast, -⟩ := members_of_tree ht hd
  rw [hlast] at hmembers
  obtain ⟨phrases, hphrases⟩ := mapM_ok hnodes (f := categoryPhrases k.value)
    fun category hc node hnode => by
      unfold categoryPhrases
      cases hk : Kind.ofCategory? node.1.value with
      | none => exact ⟨[], rfl⟩
      | some kind =>
          obtain ⟨texts, htexts⟩ := phrase_ok hnode.2 (hmembers category hc)
          exact ⟨_, by rw [htexts]; rfl⟩
  exact ⟨phrases.flatten, by simp only [languagePhrases, hphrases, Except.map]⟩

theorem keywords_cases {v : Json} {n : Node} (ht : v.HasTree n) (hd : v.DistinctNames)
    (ha : keywordsSchema.Accepts v) :
    (∃ phrases, keywords (some n) = .ok phrases) ∨ ∃ entry ∈ v.parts, ∃ name line,
      NamesUnknownKind entry name ∧
        keywords (some n) = .error (.shape (.keywordKind name) line) := by
  rcases ha.either with ha | ha
  · obtain ⟨items, rfl, hitems⟩ := ha.isArray
    obtain ⟨line, nodes, rfl, hnodes, hdeep⟩ := items_of_tree ht hd
    rcases mapM_cases listedPhrases nodes with ⟨phrases, hphrases⟩ | ⟨node, hnode, e, he, hfail⟩
    · exact .inl ⟨phrases.flatten, by simp only [keywords, hphrases, Except.map]⟩
    · right
      obtain ⟨entry, hentry, htree⟩ := exists_of_mem_right hnodes hnode
      rcases listedPhrases_cases htree (hdeep entry hentry) (hitems entry hentry) with
        ⟨phrases, hok⟩ | ⟨name, hunknown, herror⟩
      · rw [he] at hok
        cases hok
      · rw [he, Except.error.injEq] at herror
        refine ⟨entry, hentry, name, node.line, hunknown, ?_⟩
        simp only [keywords, hfail, Except.map, herror]
  · left
    obtain ⟨members, rfl, hmembers⟩ := ha.isMap
    obtain ⟨line, nodes, rfl, hnodes, hlast, hdeep⟩ := members_of_tree ht hd
    rw [hlast] at hmembers
    obtain ⟨phrases, hphrases⟩ := mapM_ok hnodes fun m hm node hnode =>
      languagePhrases_ok hnode (hdeep m hm) (hmembers m hm)
    exact ⟨phrases.flatten, by simp only [keywords, hphrases, Except.map]⟩

end Payload

namespace ConfigKind

/-- The members that the decoder of a kind reads as whole numbers. -/
def wholeMembers : ConfigKind → List String
  | steps => ["kind"]
  | imports => ["lineNumber"]
  | _ => []

/-- A value without repeated names that the schema of a kind accepts has a tree that the
decoder of the kind reads. Whole numbers have to be written as plain integers in the
range of 64 bits; and a list of keywords is refused for one reason only, an entry that
names a kind that is not known. -/
theorem decoder_reads_accepted (kind : ConfigKind) (v : Json) (n : Node) (hd : v.DistinctNames)
    (hv : kind.violation? v = none) (ht : v.HasTree n)
    (hplain : ∀ name ∈ kind.wholeMembers, ∀ part ∈ v.parts, part.PlainMember name) :
    (∃ content, kind.decoder (some n) = .ok content) ∨
      kind = .keywords ∧ ∃ entry ∈ v.parts, ∃ name line, Payload.NamesUnknownKind entry name ∧
        kind.decoder (some n) = .error (.shape (.keywordKind name) line) := by
  have ha := accepts_of_violation?_eq_none hv
  cases kind with
  | keywords => exact (Payload.keywords_cases ht hd ha).imp_right fun h => ⟨rfl, h⟩
  | metatags => exact .inl (Payload.metatags_ok ht ha)
  | steps => exact .inl (Payload.steps_ok ht hd ha (hplain "kind" (by simp [wholeMembers])))
  | vars => exact .inl (Payload.vars_ok ht hd ha)
  | imports =>
      exact .inl (Payload.imports_ok ht hd ha (hplain "lineNumber" (by simp [wholeMembers])))
  | messages => exact .inl (Payload.messages_ok ht hd ha)

/-- One step whose kind is written as a negative number. -/
def storedStep : Json :=
  .object [("s", .object [("label", .string "a"), ("insertText", .string ""),
    ("kind", .number "-3")])]

def storedStepNode : Node :=
  let text := fun t => Node.scalar 1 .str .doubleQuoted t
  .mapping 1 .map [(text "s", .mapping 1 .map [(text "label", text "a"),
    (text "insertText", text ""), (text "kind", .scalar 1 (Yaml.Scalar.plainTag "-3") .plain "-3")])]

theorem decoder_reads_storedStep :
    (∃ content, steps.decoder (some storedStepNode) = .ok content) ∨
      steps = .keywords ∧ ∃ entry ∈ storedStep.parts, ∃ name line,
        Payload.NamesUnknownKind entry name ∧
          steps.decoder (some storedStepNode) = .error (.shape (.keywordKind name) line) := by
  have hnames : storedStep.DistinctNames := by
    refine .object (by decide) fun m hm => ?_
    obtain rfl := List.mem_singleton.mp hm
    refine .object (by decide) fun k hk => ?_
    simp only [List.mem_cons, List.not_mem_nil, or_false] at hk
    rcases hk with rfl | rfl | rfl
    · exact .string
    · exact .string
    · exact .number
  have hname : ∀ name, Json.IsName name (.scalar 1 .str .doubleQuoted name) := fun _ => ⟨1, rfl⟩
  have htree : storedStep.HasTree storedStepNode := by
    refine .object (.cons (hname "s") .nil) (.cons (.object ?_ ?_) .nil)
    · exact .cons (hname "label") (.cons (hname "insertText") (.cons (hname "kind") .nil))
    · exact .cons .string (.cons .string (.cons .number .nil))
  have hplain : ∀ name ∈ steps.wholeMembers, ∀ part ∈ storedStep.parts,
      part.PlainMember name := by
    intro name hn part hp text htext
    obtain rfl := List.mem_singleton.mp hn
    obtain rfl := List.mem_singleton.mp hp
    obtain rfl : "-3" = text := by simpa [Json.get?] using htext
    have hdigits : Json.IsDigits ['3'] := ⟨List.cons_ne_nil _ _, List.all_eq_true.mp rfl⟩
    exact ⟨-3, .written (.inr rfl) (.digits (by decide) hdigits) (by decide)⟩
  exact decoder_reads_accepted steps storedStep storedStepNode hnames (by decide) htree hplain

end ConfigKind
end Stepwise
