import Stepwise.Proofs.FlowTree
import Stepwise.Proofs.SectionValues
import Stepwise.Proofs.ValidPayloads

/-!
# Writings of a JSON value

A value can be written in many ways: nulls have several spellings, a text may be plain
or quoted or carry a tag, and lines and the tags of collections are free. Where every
scalar other than a null has the text that the value has, the decoders cannot tell one
writing from another, as long as the schema keeps nulls out of the places that are
read as they are written.
-/
namespace Stepwise

open Yaml (Node Scalar Tag Style)

namespace Json

/-- A key reads as a name, and is written like it. -/
def NamedBy (name : String) (k : Node) : Prop :=
  k.IsOwnKey ∧ k.value = name

/-- A node is a writing of a value: a null in any spelling, any other scalar by the text
of the value, and no alias or merge anywhere. -/
inductive SpelledAs : Json → Node → Prop
  | null {line : Nat} {tag : Tag} {style : Style} {text : String} :
      Yaml.scalarValue? tag text = some .null → SpelledAs .null (.scalar line tag style text)
  | bool {line : Nat} {style : Style} {b : Bool} :
      SpelledAs (.bool b) (.scalar line .bool style (if b then "true" else "false"))
  | number {line : Nat} {style : Style} {text : String} :
      SpelledAs (.number text) (.scalar line (Scalar.plainTag text) style text)
  | string {line : Nat} {tag : Tag} {style : Style} {text : String} :
      (Yaml.scalarValue? tag text).bind Scalar.toJson? = some (.string text) →
      SpelledAs (.string text) (.scalar line tag style text)
  | array {line : Nat} {tag : Tag} {items : List Json} {nodes : List Node} :
      List.Forall₂ SpelledAs items nodes → SpelledAs (.array items) (.sequence line tag nodes)
  | object {line : Nat} {tag : Tag} {members : List (String × Json)}
      {nodes : List (Node × Node)} :
      List.Forall₂ NamedBy (members.map Prod.fst) (nodes.map Prod.fst) →
      List.Forall₂ SpelledAs (members.map Prod.snd) (nodes.map Prod.snd) →
      SpelledAs (.object members) (.mapping line tag nodes)

theorem IsName.namedBy {name : String} {k : Node} (h : IsName name k) : NamedBy name k :=
  ⟨h.isOwnKey, h.value⟩

theorem forall₂_imp_of_mem {α β : Type} {r s : α → β → Prop} {as : List α} {bs : List β}
    (h : List.Forall₂ r as bs) (hrs : ∀ a ∈ as, ∀ b, r a b → s a b) : List.Forall₂ s as bs := by
  induction h with
  | nil => exact .nil
  | @cons a b as bs hab _ ih =>
      rw [List.forall_mem_cons] at hrs
      exact .cons (hrs.1 b hab) (ih hrs.2)

/-- The tree of a value is a writing of it. -/
theorem HasTree.spelledAs {v : Json} : ∀ {n : Node}, v.HasTree n → v.SpelledAs n := by
  induction v using Json.induct with
  | null =>
      intro n h
      cases h
      exact .null rfl
  | bool b =>
      intro n h
      cases h
      exact .bool
  | number text =>
      intro n h
      cases h
      exact .number
  | string text =>
      intro n h
      cases h
      exact .string rfl
  | array items ih =>
      intro n h
      cases h with
      | array hnodes => exact .array (forall₂_imp_of_mem hnodes fun v hv _ => ih v hv)
  | object members ih =>
      intro n h
      cases h with
      | object hnames hvalues =>
          refine .object (hnames.imp fun _ _ => IsName.namedBy) ?_
          refine forall₂_imp_of_mem hvalues fun v hv _ => ?_
          obtain ⟨m, hm, rfl⟩ := List.mem_map.mp hv
          exact ih m hm

/-! ## Scalars -/

/-- Two nodes are writings of one value. -/
def Alike (n m : Node) : Prop :=
  ∃ v : Json, v.SpelledAs n ∧ v.SpelledAs m

/-- A scalar with a text for its JSON form is a text, or a time. -/
theorem scalarValue?_of_string {tag : Tag} {text : String}
    (h : (Yaml.scalarValue? tag text).bind Scalar.toJson? = some (.string text)) :
    Yaml.scalarValue? tag text = some (.text text) ∨
      ∃ t, Yaml.scalarValue? tag text = some (.time t) := by
  obtain ⟨s, hs, hj⟩ := Option.bind_eq_some_iff.mp h
  cases s with
  | text value =>
      obtain rfl : value = text := by simpa [Scalar.toJson?] using hj
      exact .inl hs
  | time t => exact .inr ⟨t, hs⟩
  | _ => simp [Scalar.toJson?, Json.ofInt] at hj

section
variable {n m : Node} (h : Alike n m)
include h

theorem Alike.text?_eq : n.text? = m.text? := by
  obtain ⟨v, hn, hm⟩ := h
  cases hn with
  | null hn =>
      cases hm with
      | null hm => rw [Node.text?, Node.text?, hn, hm]
  | bool => cases hm; rfl
  | number => cases hm; rfl
  | string hn =>
      cases hm with
      | string hm =>
          rcases scalarValue?_of_string hn with hn | ⟨_, hn⟩ <;>
            rcases scalarValue?_of_string hm with hm | ⟨_, hm⟩ <;>
            rw [Node.text?, Node.text?, hn, hm]
  | array _ => cases hm; rfl
  | object _ _ => cases hm; rfl

theorem Alike.int?_eq : n.int? = m.int? := by
  obtain ⟨v, hn, hm⟩ := h
  cases hn with
  | null hn =>
      cases hm with
      | null hm => rw [Node.int?, Node.int?, hn, hm]
  | bool => cases hm; rfl
  | number => cases hm; rfl
  | string hn =>
      cases hm with
      | string hm =>
          rcases scalarValue?_of_string hn with hn | ⟨_, hn⟩ <;>
            rcases scalarValue?_of_string hm with hm | ⟨_, hm⟩ <;>
            rw [Node.int?, Node.int?, hn, hm]
  | array _ => cases hm; rfl
  | object _ _ => cases hm; rfl

end

/-! ## Collections -/

theorem forall₂_join {α β γ : Type} {r : α → β → Prop} {s : α → γ → Prop} {t : β → γ → Prop}
    {as : List α} {bs : List β} {cs : List γ} (hb : List.Forall₂ r as bs)
    (hc : List.Forall₂ s as cs) (ht : ∀ a ∈ as, ∀ b c, r a b → s a c → t b c) :
    List.Forall₂ t bs cs := by
  induction hb generalizing cs with
  | nil => cases hc; exact .nil
  | @cons a b as bs hab _ ih =>
      cases hc with
      | @cons _ c _ cs hac hrest =>
          rw [List.forall_mem_cons] at ht
          exact .cons (ht.1 b c hab hac) (ih hrest ht.2)

theorem textItems?_of_alike {ns ms : List Node} (h : List.Forall₂ Alike ns ms) :
    Node.textItems? ns = Node.textItems? ms := by
  induction h with
  | nil => rfl
  | cons hnm _ ih => rw [Node.textItems?, Node.textItems?, hnm.text?_eq, ih]

theorem Alike.texts?_eq {n m : Node} (h : Alike n m) : n.texts? = m.texts? := by
  obtain ⟨v, hn, hm⟩ := h
  cases hn with
  | null hn =>
      cases hm with
      | null hm => rw [Node.texts?, Node.texts?, hn, hm]
  | bool => cases hm; rfl
  | number => cases hm; rfl
  | string hn =>
      cases hm with
      | string hm =>
          rcases scalarValue?_of_string hn with hn | ⟨_, hn⟩ <;>
            rcases scalarValue?_of_string hm with hm | ⟨_, hm⟩ <;>
            rw [Node.texts?, Node.texts?, hn, hm]
  | array hns =>
      cases hm with
      | array hms =>
          rw [Node.texts?, Node.texts?]
          exact textItems?_of_alike (forall₂_join hns hms fun v _ _ _ hn hm => ⟨v, hn, hm⟩)
  | object _ _ => cases hm; rfl

/-- A node and its key are a writing of a member. -/
def SpelledMember (m : String × Json) (node : Node × Node) : Prop :=
  NamedBy m.1 node.1 ∧ m.2.SpelledAs node.2

theorem SpelledAs.members {members : List (String × Json)} {n : Node}
    (h : (Json.object members).SpelledAs n) :
    ∃ line tag nodes, n = .mapping line tag nodes ∧ List.Forall₂ SpelledMember members nodes := by
  cases h with
  | @object line tag _ nodes hk hv =>
      refine ⟨line, tag, nodes, rfl, ?_⟩
      rw [List.forall₂_map_left_iff, List.forall₂_map_right_iff] at hk hv
      exact List.forall₂_iff_zip.mpr ⟨hk.length_eq, fun hz =>
        ⟨(List.forall₂_iff_zip.mp hk).2 hz, (List.forall₂_iff_zip.mp hv).2 hz⟩⟩

/-- Two entries of one name with values that are written alike. -/
def EntriesAlike (a b : String × Node) : Prop :=
  a.1 = b.1 ∧ Alike a.2 b.2

/-- A writing of an object is a record with the names of the object. -/
theorem SpelledAs.entries? {members : List (String × Json)} {n : Node}
    (h : (Json.object members).SpelledAs n) (hn : (members.map Prod.fst).Nodup) :
    ∃ entries, n.entries? = some (some entries) ∧
      List.Forall₂ (fun m e => m.1 = e.1 ∧ m.2.SpelledAs e.2) members entries := by
  obtain ⟨line, tag, nodes, rfl, hnodes⟩ := h.members
  have hown : ∀ node ∈ nodes, node.1.IsOwnKey := by
    intro node hnode
    obtain ⟨m, -, hm⟩ := exists_of_mem_right hnodes hnode
    exact hm.1.1
  have hvalues : (nodes.map fun node => node.1.value) = members.map Prod.fst := by
    clear hown hn h
    induction hnodes with
    | nil => rfl
    | cons hm _ ih => rw [List.map_cons, List.map_cons, ih, hm.1.2]
  refine ⟨_, Node.entries?_of_own hown (Node.keysDistinct_of_nodup (hvalues ▸ hn)) line tag, ?_⟩
  rw [Node.ownEntries, List.forall₂_map_right_iff]
  exact hnodes.imp fun m node hm => ⟨hm.1.2.symm, hm.2⟩

theorem entries?_alike {members : List (String × Json)} {n m : Node}
    (hn : (Json.object members).SpelledAs n) (hm : (Json.object members).SpelledAs m)
    (hd : (Json.object members).DistinctNames) :
    ∃ es es', n.entries? = some (some es) ∧ m.entries? = some (some es') ∧
      List.Forall₂ EntriesAlike es es' := by
  cases hd with
  | object hnodup _ =>
      obtain ⟨es, hread, hes⟩ := hn.entries? hnodup
      obtain ⟨es', hread', hes'⟩ := hm.entries? hnodup
      refine ⟨es, es', hread, hread', forall₂_join hes hes' ?_⟩
      intro m _ e e' he he'
      exact ⟨he.1.symm.trans he'.1, m.2, he.2, he'.2⟩

section
variable {es es' : List (String × Node)} (h : List.Forall₂ EntriesAlike es es')
include h

theorem textField_alike (name : String) : Yaml.textField es name = Yaml.textField es' name := by
  rw [Yaml.textField, Yaml.textField]
  rcases lookup_of_forall₂ h name with ⟨he, he'⟩ | ⟨n, m, he, he', hnm⟩
  · rw [he, he']
  · rw [he, he']
    simp only [hnm.text?_eq]

theorem intField_alike (name : String) : Yaml.intField es name = Yaml.intField es' name := by
  rw [Yaml.intField, Yaml.intField]
  rcases lookup_of_forall₂ h name with ⟨he, he'⟩ | ⟨n, m, he, he', hnm⟩
  · rw [he, he']
  · rw [he, he']
    simp only [hnm.int?_eq]

theorem textsField_alike (name : String) : Yaml.textsField es name = Yaml.textsField es' name := by
  rw [Yaml.textsField, Yaml.textsField]
  rcases lookup_of_forall₂ h name with ⟨he, he'⟩ | ⟨n, m, he, he', hnm⟩
  · rw [he, he']
  · rw [he, he']
    exact hnm.texts?_eq

end

end Json

namespace Payload
open Json Schema ConfigKind

theorem mapM_congr {α β ε : Type} {f : α → Except ε β} {xs ys : List α}
    (h : List.Forall₂ (fun x y => f x = f y) xs ys) : xs.mapM f = ys.mapM f := by
  induction h with
  | nil => rfl
  | cons hxy _ ih => rw [List.mapM_cons, List.mapM_cons, hxy, ih]

section
variable {v : Json} {n m : Node} (hn : v.SpelledAs n) (hm : v.SpelledAs m)
include hn hm

theorem itemText_alike (hs : ∃ text, v = .string text) : itemText n = itemText m := by
  obtain ⟨text, rfl⟩ := hs
  cases hn with
  | string _ => cases hm; rfl

theorem writtenTexts_array {s : Schema} {least : Nat} (ha : (Schema.arrayOf s least).Accepts v)
    (hs : ∀ w, s.Accepts w → ∃ text, w = .string text) : writtenTexts n = writtenTexts m := by
  obtain ⟨items, rfl, hitems⟩ := ha.isArray
  cases hn with
  | array hns =>
      cases hm with
      | array hms =>
          rw [writtenTexts, writtenTexts]
          exact mapM_congr (forall₂_join hns hms fun w hw _ _ hn hm =>
            itemText_alike hn hm (hs w (hitems w hw)))

theorem metatags_alike (ha : metatagsSchema.Accepts v) : metatags (some n) = metatags (some m) :=
  writtenTexts_array hn hm ha fun _ => Accepts.isText

theorem phrase_alike (ha : phraseSchema.Accepts v) : writtenTexts n = writtenTexts m := by
  rcases ha.either with ha | ha
  · obtain ⟨text, rfl⟩ := ha.isString
    cases hn with
    | string _ => cases hm; rfl
  · exact writtenTexts_array hn hm ha fun _ => Accepts.isString

theorem stepDefinition_alike (hd : v.DistinctNames) (ha : stepSchema.Accepts v) :
    stepDefinition n = stepDefinition m := by
  obtain ⟨members, rfl, -⟩ := ha.isRecord
  obtain ⟨es, es', hread, hread', hes⟩ := entries?_alike hn hm hd
  simp only [stepDefinition, hread, hread', textField_alike hes, intField_alike hes, orField, bind,
    Except.bind, Option.getD_some]

end

/-- The members of two writings of an object whose names are distinct. -/
theorem members_alike {members : List (String × Json)} {n m : Node}
    (hn : (Json.object members).SpelledAs n) (hm : (Json.object members).SpelledAs m) :
    ∃ line tag nodes line' tag' nodes', n = .mapping line tag nodes ∧
      m = .mapping line' tag' nodes' ∧ List.Forall₂ SpelledMember members nodes ∧
      List.Forall₂ SpelledMember members nodes' := by
  obtain ⟨line, tag, nodes, rfl, hnodes⟩ := hn.members
  obtain ⟨line', tag', nodes', rfl, hnodes'⟩ := hm.members
  exact ⟨line, tag, nodes, line', tag', nodes', rfl, rfl, hnodes, hnodes'⟩

theorem steps_alike {v : Json} {n m : Node} (hn : v.SpelledAs n) (hm : v.SpelledAs m)
    (hd : v.DistinctNames) (ha : stepsSchema.Accepts v) : steps (some n) = steps (some m) := by
  rcases ha.either with ha | ha
  · obtain ⟨members, rfl, hmembers⟩ := ha.isMap
    obtain ⟨_, _, nodes, _, _, nodes', rfl, rfl, hnodes, hnodes'⟩ := members_alike hn hm
    cases hd with
    | object hnodup hdeep =>
        rw [lastMembers_of_nodup hnodup] at hmembers
        have hdefs := mapM_congr (f := fun m : Node × Node => do
          let d ← stepDefinition m.2
          return { d with key := m.1.value }) (forall₂_join hnodes hnodes' fun m hm a b ha hb => by
            rw [stepDefinition_alike ha.2 hb.2 (hdeep m hm) (hmembers m hm), ha.1.2, hb.1.2])
        rw [steps, steps, hdefs]
  · obtain ⟨items, rfl, hitems⟩ := ha.isArray
    cases hd with
    | array hdeep =>
        cases hn with
        | array hns =>
            cases hm with
            | array hms =>
                rw [steps, steps, mapM_congr (forall₂_join hns hms fun w hw _ _ hn hm =>
                  stepDefinition_alike hn hm (hdeep w hw)
                    ((hitems w hw).everyPart stepSchema (by simp)))]

theorem variableEntry_alike {m : String × Json} {a b : Node × Node} (ha : SpelledMember m a)
    (hb : SpelledMember m b) (hd : m.2.DistinctNames)
    (hs : (Schema.oneOf [ofTypes [.string, .number, .boolean],
      record [("name", ofTypes [.string]),
        ("value", ofTypes [.string, .number, .boolean, .null])] ["name"] []]).Accepts m.2) :
    variableEntry a = variableEntry b := by
  obtain ⟨name, v⟩ := m
  obtain ⟨k, n⟩ := a
  obtain ⟨l, m⟩ := b
  obtain ⟨⟨-, hk⟩, hn⟩ := ha
  obtain ⟨⟨-, hl⟩, hm⟩ := hb
  simp only at hk hl hn hm hd hs
  rcases hs.either with hs | hs
  · obtain ⟨t, ht, hmem⟩ := hs.hasType (by simp)
    cases hn with
    | null _ =>
        rw [List.mem_singleton.mp ht] at hmem
        simp at hmem
    | bool => cases hm; simp only [variableEntry, hk, hl]
    | number => cases hm; simp only [variableEntry, hk, hl]
    | string _ => cases hm; simp only [variableEntry, hk, hl]
    | array _ =>
        rw [List.mem_singleton.mp ht] at hmem
        simp at hmem
    | object _ _ =>
        rw [List.mem_singleton.mp ht] at hmem
        simp at hmem
  · obtain ⟨members, rfl, -⟩ := hs.isRecord
    obtain ⟨es, es', hread, hread', hes⟩ := entries?_alike hn hm hd
    obtain ⟨_, _, _, _, _, _, rfl, rfl, -⟩ := members_alike hn hm
    simp only [variableEntry, hread, hread', textField_alike hes, hk, hl, orField, bind,
      Except.bind, Option.getD_some]

theorem vars_alike {v : Json} {n m : Node} (hn : v.SpelledAs n) (hm : v.SpelledAs m)
    (hd : v.DistinctNames) (ha : variablesSchema.Accepts v) : vars (some n) = vars (some m) := by
  obtain ⟨members, rfl, hmembers⟩ := ha.isMap
  obtain ⟨_, _, nodes, _, _, nodes', rfl, rfl, hnodes, hnodes'⟩ := members_alike hn hm
  cases hd with
  | object hnodup hdeep =>
      rw [lastMembers_of_nodup hnodup] at hmembers
      rw [vars, vars, mapM_congr (forall₂_join hnodes hnodes' fun m hm _ _ ha hb =>
        variableEntry_alike ha hb (hdeep m hm) (hmembers m hm))]

theorem importEntry_alike {m : String × Json} {a b : Node × Node} (ha : SpelledMember m a)
    (hb : SpelledMember m b) (hd : m.2.DistinctNames)
    (hs : (Schema.oneOf [Schema.text 1,
      record [("uri", ofTypes [.string]), ("path", ofTypes [.string]),
        ("lineNumber", wholeFrom 1)] [] [requiring ["uri"], requiring ["path"]]]).Accepts m.2) :
    importEntry a = importEntry b := by
  obtain ⟨name, v⟩ := m
  obtain ⟨k, n⟩ := a
  obtain ⟨l, m⟩ := b
  obtain ⟨⟨-, hk⟩, hn⟩ := ha
  obtain ⟨⟨-, hl⟩, hm⟩ := hb
  simp only at hk hl hn hm hd hs
  rcases hs.either with hs | hs
  · obtain ⟨text, rfl⟩ := hs.isText
    cases hn with
    | string _ => cases hm; simp only [importEntry, hk, hl]
  · obtain ⟨members, rfl, -⟩ := hs.isRecord
    obtain ⟨es, es', hread, hread', hes⟩ := entries?_alike hn hm hd
    obtain ⟨_, _, _, _, _, _, rfl, rfl, -⟩ := members_alike hn hm
    simp only [importEntry, hread, hread', textField_alike hes, intField_alike hes, hk, hl, orField,
      bind, Except.bind, Option.getD_some]

theorem imports_alike {v : Json} {n m : Node} (hn : v.SpelledAs n) (hm : v.SpelledAs m)
    (hd : v.DistinctNames) (ha : importsSchema.Accepts v) :
    imports (some n) = imports (some m) := by
  obtain ⟨members, rfl, hmembers⟩ := ha.isMap
  obtain ⟨_, _, nodes, _, _, nodes', rfl, rfl, hnodes, hnodes'⟩ := members_alike hn hm
  cases hd with
  | object hnodup hdeep =>
      rw [lastMembers_of_nodup hnodup] at hmembers
      rw [imports, imports, mapM_congr (forall₂_join hnodes hnodes' fun m hm _ _ ha hb =>
        importEntry_alike ha hb (hdeep m hm) (hmembers m hm))]

theorem messages_alike {v : Json} {n m : Node} (hn : v.SpelledAs n) (hm : v.SpelledAs m)
    (hd : v.DistinctNames) (ha : messagesSchema.Accepts v) :
    messages (some n) = messages (some m) := by
  obtain ⟨members, rfl, -⟩ := ha.isMap
  obtain ⟨es, es', hread, hread', hes⟩ := entries?_alike hn hm hd
  have htexts : (es.mapM fun e => e.2.text?.map fun t => (e.1, t.getD "")) =
      es'.mapM fun e => e.2.text?.map fun t => (e.1, t.getD "") := by
    clear hread hread'
    induction hes with
    | nil => rfl
    | cons he _ ih => rw [List.mapM_cons, List.mapM_cons, he.1, he.2.text?_eq, ih]
  simp only [messages, hread, hread', htexts, orField, bind, Except.bind, Option.getD_some]

/-! ## Keywords -/

-- The line of an entry shows in its error, so that only successes are the same.

theorem mapM_ok_of_forall₂ {α β ε : Type} {f : α → Except ε β} {xs ys : List α}
    (h : List.Forall₂ (fun x y => ∀ b, f y = .ok b → f x = .ok b) xs ys) {bs : List β}
    (hy : ys.mapM f = .ok bs) : xs.mapM f = .ok bs := by
  induction h generalizing bs with
  | nil => exact hy
  | cons hxy _ ih =>
      rw [List.mapM_cons] at hy ⊢
      obtain ⟨b, hb, hy⟩ := Yaml.exists_of_bind_eq_ok hy
      obtain ⟨rest, hrest, hy⟩ := Yaml.exists_of_bind_eq_ok hy
      rw [hxy b hb, ih hrest]
      exact hy

theorem entryKind_line {name : String} {line : Nat} {kind : Kind}
    (h : entryKind name line = .ok kind) (other : Nat) : entryKind name other = .ok kind := by
  unfold entryKind at h ⊢
  cases hempty : name.isEmpty with
  | true =>
      rw [hempty] at h
      exact h
  | false =>
      rw [hempty] at h
      cases hk : Kind.ofCategory? name with
      | some found =>
          rw [hk] at h
          exact h
      | none =>
          rw [hk] at h
          cases h

theorem entryPhrases_alike {v : Json} {n m : Node} (hn : v.SpelledAs n) (hm : v.SpelledAs m)
    (hd : v.DistinctNames) (ha : keywordEntrySchema.Accepts v) {phrases : List Phrase}
    (h : entryPhrases m = .ok phrases) : entryPhrases n = .ok phrases := by
  obtain ⟨members, rfl, -⟩ := ha.isRecord
  obtain ⟨es, es', hread, hread', hes⟩ := entries?_alike hn hm hd
  unfold entryPhrases at h
  rw [hread'] at h
  obtain ⟨found, hfound, h⟩ := Yaml.exists_of_bind_eq_ok h
  obtain rfl := Except.ok.inj hfound
  obtain ⟨language, hlanguage, h⟩ := Yaml.exists_of_bind_eq_ok h
  obtain ⟨name, hname, h⟩ := Yaml.exists_of_bind_eq_ok h
  obtain ⟨texts, htexts, h⟩ := Yaml.exists_of_bind_eq_ok h
  obtain ⟨kind, hkind, h⟩ := Yaml.exists_of_bind_eq_ok h
  rw [Option.getD_some, ← textField_alike hes] at hlanguage hname
  rw [Option.getD_some, ← textsField_alike hes] at htexts
  rw [entryPhrases, hread]
  simp only [orField, bind, Except.bind, Option.getD_some] at hlanguage hname htexts ⊢
  simp only [hlanguage, hname, htexts, entryKind_line hkind n.line]
  exact h

theorem listedPhrases_alike {v : Json} {n m : Node} (hn : v.SpelledAs n) (hm : v.SpelledAs m)
    (hd : v.DistinctNames) (ha : (Schema.oneOf [phraseSchema, keywordEntrySchema]).Accepts v)
    {phrases : List Phrase} (h : listedPhrases m = .ok phrases) :
    listedPhrases n = .ok phrases := by
  rcases ha.either with ha | ha
  · have htexts := phrase_alike hn hm ha
    rcases ha.either with ha | ha
    · obtain ⟨text, rfl⟩ := ha.isString
      cases hn with
      | string _ => cases hm; exact h
    · obtain ⟨items, rfl, -⟩ := ha.isArray
      cases hn with
      | array _ =>
          cases hm with
          | array _ =>
              rw [listedPhrases, htexts]
              exact h
  · obtain ⟨members, rfl, -⟩ := ha.isRecord
    obtain ⟨_, _, _, _, _, _, rfl, rfl, -⟩ := members_alike hn hm
    exact entryPhrases_alike hn hm hd ha h

theorem languagePhrases_alike {m : String × Json} {a b : Node × Node} (ha : SpelledMember m a)
    (hb : SpelledMember m b) (hd : m.2.DistinctNames)
    (hs : (Schema.mapOf phraseSchema).Accepts m.2) : languagePhrases a = languagePhrases b := by
  obtain ⟨name, v⟩ := m
  obtain ⟨k, n⟩ := a
  obtain ⟨l, m⟩ := b
  obtain ⟨⟨-, hk⟩, hn⟩ := ha
  obtain ⟨⟨-, hl⟩, hm⟩ := hb
  simp only at hk hl hn hm hd hs
  obtain ⟨members, rfl, hmembers⟩ := hs.isMap
  obtain ⟨_, _, nodes, _, _, nodes', rfl, rfl, hnodes, hnodes'⟩ := members_alike hn hm
  cases hd with
  | object hnodup _ =>
      rw [lastMembers_of_nodup hnodup] at hmembers
      have hcategories := mapM_congr (f := categoryPhrases name)
        (forall₂_join hnodes hnodes' fun m hm a b ha hb => by
          rw [categoryPhrases, categoryPhrases, ha.1.2, hb.1.2,
            phrase_alike ha.2 hb.2 (hmembers m hm)])
      simp only [languagePhrases, hk, hl, hcategories]

theorem keywords_alike {v : Json} {n m : Node} (hn : v.SpelledAs n) (hm : v.SpelledAs m)
    (hd : v.DistinctNames) (ha : keywordsSchema.Accepts v) {phrases : List Phrase}
    (h : keywords (some m) = .ok phrases) : keywords (some n) = .ok phrases := by
  rcases ha.either with ha | ha
  · obtain ⟨items, rfl, hitems⟩ := ha.isArray
    cases hd with
    | array hdeep =>
        cases hn with
        | array hns =>
            cases hm with
            | array hms =>
                rw [keywords] at h ⊢
                obtain ⟨found, hfound, rfl⟩ := Yaml.exists_of_map_eq_ok h
                rw [mapM_ok_of_forall₂ (forall₂_join hns hms fun w hw _ _ hn hm _ =>
                  listedPhrases_alike hn hm (hdeep w hw) (hitems w hw)) hfound]
                rfl
  · obtain ⟨members, rfl, hmembers⟩ := ha.isMap
    obtain ⟨_, _, nodes, _, _, nodes', rfl, rfl, hnodes, hnodes'⟩ := members_alike hn hm
    cases hd with
    | object hnodup hdeep =>
        rw [lastMembers_of_nodup hnodup] at hmembers
        rw [keywords] at h ⊢
        rw [mapM_congr (forall₂_join hnodes hnodes' fun m hm _ _ ha hb =>
          languagePhrases_alike ha hb (hdeep m hm) (hmembers m hm))]
        exact h

end Payload

/-- What the decoder of a kind reads from one writing of an accepted value, it reads from
every other. -/
theorem ConfigKind.decoder_alike (kind : ConfigKind) {v : Json} {n m : Node}
    (hv : kind.violation? v = none) (hd : v.DistinctNames) (hn : v.SpelledAs n)
    (hm : v.SpelledAs m) {content : kind.Content} (h : kind.decoder (some m) = .ok content) :
    kind.decoder (some n) = .ok content := by
  have ha := accepts_of_violation?_eq_none hv
  cases kind with
  | keywords => exact Payload.keywords_alike hn hm hd ha h
  | metatags => exact (Payload.metatags_alike hn hm ha).trans h
  | steps => exact (Payload.steps_alike hn hm hd ha).trans h
  | vars => exact (Payload.vars_alike hn hm hd ha).trans h
  | imports => exact (Payload.imports_alike hn hm hd ha).trans h
  | messages => exact (Payload.messages_alike hn hm hd ha).trans h

namespace Yaml
open Json

mutual

/-- A node in which every scalar is replaced by the one that its JSON form is read as.
A key becomes its text as a string, and an alias the node it stands for. -/
def Node.respelled : Node → Node
  | .scalar line tag style text =>
    match (Node.scalar line tag style text).toJson? with
    | some j => j.tree
    | none => .scalar line tag style text
  | .sequence line tag items => .sequence line tag (respelledItems items)
  | .mapping line tag members => .mapping line tag (respelledMembers members)
  | .reference _ _ target => target.respelled

/-- Items in which every scalar is replaced. -/
def respelledItems : List Node → List Node
  | [] => []
  | n :: rest => n.respelled :: respelledItems rest

/-- Members in which every scalar is replaced. -/
def respelledMembers : List (Node × Node) → List (Node × Node)
  | [] => []
  | (k, v) :: rest =>
    (.scalar k.line .str .doubleQuoted k.value, v.respelled) :: respelledMembers rest

end

/-- Respelled, a node is a writing of its JSON form. -/
theorem Node.spelledAs_respelled (n : Node) :
    ∀ j, n.toJson? = some j → j.SpelledAs n.respelled := by
  induction n using Node.induct with
  | scalar line tag style text =>
      intro j h
      rw [Node.respelled, h]
      exact j.hasTree_tree.spelledAs
  | sequence line tag items ih =>
      intro j h
      simp only [Node.toJson?] at h
      obtain ⟨js, hjs, rfl⟩ := Option.map_eq_some_iff.mp h
      rw [Node.respelled]
      refine .array ?_
      have hall := nodesToJson?_eq_some.mp hjs
      clear h hjs
      induction hall with
      | nil => exact .nil
      | @cons n j items js hn _ ihitems =>
          rw [List.forall_mem_cons] at ih
          exact .cons (ih.1 j hn) (ihitems ih.2)
  | mapping line tag members ih =>
      intro j h
      simp only [Node.toJson?] at h
      obtain ⟨ms, hms, rfl⟩ := Option.map_eq_some_iff.mp h
      rw [Node.respelled]
      have hparts : List.Forall₂ NamedBy (ms.map Prod.fst)
          ((respelledMembers members).map Prod.fst) ∧ List.Forall₂ SpelledAs (ms.map Prod.snd)
          ((respelledMembers members).map Prod.snd) := by
        have hall := pairsToJson?_eq_some.mp hms
        clear h hms
        induction hall with
        | nil => exact ⟨.nil, .nil⟩
        | @cons e m members ms he _ ihmembers =>
            rw [List.forall_mem_cons] at ih
            obtain ⟨hnames, hvalues⟩ := ihmembers ih.2
            exact ⟨.cons ⟨⟨rfl, rfl⟩, he.1.symm⟩ hnames, .cons (ih.1 m.2 he.2) hvalues⟩
      exact .object hparts.1 hparts.2
  | reference line name target ih =>
      intro j h
      rw [Node.respelled]
      exact ih j h

end Yaml

end Stepwise
