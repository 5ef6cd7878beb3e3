import Stepwise.Proofs.FlowTree
import Stepwise.Proofs.JsonCompaction
import Stepwise.Proofs.RegistryReplacement
import Stepwise.Proofs.SectionValues

/-!
# Rendered values as configuration data

The data of a request is trimmed, compacted, read as JSON, checked, and read again as
YAML. The text of a collection goes through all of this unchanged, so data that was
written by rendering a value is refused or has the tree of that value. What can refuse
it, besides the schema, are its depth, numbers without a double, characters that YAML
does not allow, names that are too long for a key and names that are repeated.
-/
namespace Stepwise

open Yaml (Node Scalar Value Merging Visits)

namespace Json

/-! ## Names -/

/-- A tree is read only if no name is repeated. -/
theorem distinctNames_of_decode (v : Json) : ∀ w, v.tree.decode = .ok w → v.DistinctNames := by
  induction v using Json.induct with
  | null => exact fun _ _ => .null
  | bool b => exact fun _ _ => .bool
  | number text => exact fun _ _ => .number
  | string text => exact fun _ _ => .string
  | array items ih =>
      intro w h
      rw [tree, itemTrees_eq, Node.decode] at h
      obtain ⟨values, hvalues, -⟩ := Yaml.exists_of_map_eq_ok h
      refine .array fun v hv => ?_
      obtain ⟨u, hu⟩ := Yaml.decodeItems_ok_of_mem hvalues (List.mem_map_of_mem hv)
      exact ih v hv u hu
  | object members ih =>
      intro w h
      rw [tree, memberTrees_eq] at h
      obtain ⟨hdistinct, hdecode⟩ := Node.decode_mapping_ok h
      refine .object ?_ fun m hm => ?_
      · have hself : Yaml.ownMembers (members.map fun m =>
            (Node.scalar 1 .str .doubleQuoted m.1, m.2.tree)) = members.map fun m =>
              (Node.scalar 1 .str .doubleQuoted m.1, m.2.tree) := by
          refine Yaml.ownMembers_of_plain fun e he => ?_
          obtain ⟨m, -, rfl⟩ := List.mem_map.mp he
          rfl
        have hnodup := Yaml.nodup_of_keysDistinct hdistinct (by
          rw [hself]
          intro e he
          obtain ⟨m, -, rfl⟩ := List.mem_map.mp he
          exact ⟨1, .str, .doubleQuoted, m.1, rfl⟩)
        rw [hself, List.map_map] at hnodup
        exact hnodup
      · obtain ⟨u, hu⟩ := hdecode _ _ (List.mem_map_of_mem hm) rfl
        exact ih m hm u hu

/-! ## The value of a tree -/

def HasValue (n : Node) : Prop :=
  ∃ w j, n.decode = .ok w ∧ w.toJson? = some j

theorem forall_setMember {p : Value → Prop} {key : String} {w : Value}
    {members : List (String × Value)} (hm : ∀ e ∈ members, p e.2) (hw : p w) :
    ∀ e ∈ Yaml.setMember key w members, p e.2 := by
  induction members with
  | nil => simpa [Yaml.setMember] using hw
  | cons e rest ih =>
      rw [List.forall_mem_cons] at hm
      rw [Yaml.setMember]
      split
      · exact List.forall_mem_cons.mpr ⟨hw, hm.2⟩
      · exact List.forall_mem_cons.mpr ⟨hm.1, ih hm.2⟩

theorem addMembers_own {members : List (Node × Node)} (hk : ∀ e ∈ members, e.1.IsOwnKey)
    (hv : ∀ e ∈ members, HasValue e.2) {m : Merging}
    (hm : ∀ e ∈ m.members, ∃ j, e.2.toJson? = some j) :
    ∃ m', Yaml.addMembers false m members = .ok m' ∧
      ∀ e ∈ m'.members, ∃ j, e.2.toJson? = some j := by
  induction members generalizing m with
  | nil => exact ⟨m, rfl, hm⟩
  | cons e rest ih =>
      obtain ⟨k, v⟩ := e
      rw [List.forall_mem_cons] at hk hv
      obtain ⟨w, j, hw, hj⟩ := hv.1
      have hname : k.keyName = .ok (some k.value) := Yaml.keyName_of_own hk.1
      have hset : ∀ e ∈ (m.set k.value w).members, ∃ j, e.2.toJson? = some j :=
        forall_setMember (p := fun w => ∃ j, w.toJson? = some j) hm ⟨j, hj⟩
      obtain ⟨m', hadd, hm'⟩ := ih hk.2 hv.2 hset
      refine ⟨m', ?_, hm'⟩
      have hmerge : k.isMerge = false := hk.1.isMerge
      simp only at hw
      simp only [Yaml.addMembers, hmerge, hname, Bool.false_eq_true, if_false, Bool.false_and, hw,
        bind, Except.bind]
      exact hadd

theorem membersToJson?_some {members : List (String × Value)}
    (h : ∀ e ∈ members, ∃ j, e.2.toJson? = some j) :
    ∃ js, Yaml.membersToJson? members = some js := by
  induction members with
  | nil => exact ⟨[], rfl⟩
  | cons e rest ih =>
      obtain ⟨k, v⟩ := e
      rw [List.forall_mem_cons] at h
      obtain ⟨j, hj⟩ := h.1
      obtain ⟨js, hjs⟩ := ih h.2
      simp only at hj
      exact ⟨(k, j) :: js, by rw [Yaml.membersToJson?, hj, hjs]⟩

/-- A word with a meaning holds a character that no number has. -/
theorem words_lookup_of_isNumber {text : String} (h : IsNumber text.toList) :
    Scalar.words.lookup text = none := by
  rw [List.lookup_eq_none_iff]
  intro w hw
  have hwords : Scalar.words.all (fun w => w.1.toList.isEmpty ||
      w.1.toList.any fun c => !isNumberChar c) = true := by decide
  have hword := List.all_eq_true.mp hwords w hw
  rw [bne_iff_ne]
  rintro rfl
  rw [Bool.or_eq_true] at hword
  rcases hword with hempty | hany
  · obtain ⟨c, cs, hcons, -⟩ := h.head
    rw [hcons] at hempty
    cases hempty
  · obtain ⟨c, hc, hnot⟩ := List.any_eq_true.mp hany
    rw [h.isNumberChar c hc] at hnot
    cases hnot

theorem number?_eq_some {text : String} {s : Scalar} (h : Scalar.number? text = some s) :
    (∃ n, s = .int n) ∨ ∃ x, s = .float x := by
  unfold Scalar.number? at h
  dsimp only at h
  split at h
  · exact .inl ⟨_, (Option.some.inj h).symm⟩
  · split at h
    · exact .inr ⟨_, (Option.some.inj h).symm⟩
    · obtain ⟨n, -, rfl⟩ := Option.map_eq_some_iff.mp h
      exact .inl ⟨n, rfl⟩

/-- The text of a number is read as a number, or as a text if it is out of range. -/
theorem toJson?_of_isNumber {text : String} (h : IsNumber text.toList) :
    ∃ j, (Scalar.ofWriting true text).toJson? = some j := by
  obtain ⟨c, cs, hcons, hc⟩ := h.head
  have hnumber : (c.isDigit || c == '+' || c == '-') = true := by
    rw [Bool.or_eq_true] at hc
    rcases hc with hc | hc <;> simp [hc]
  have htime : Yaml.Timestamp.parse? text = none := by
    have hparse := Scalar.parse?_of_isNumber h
    rwa [String.ofList_toList] at hparse
  rw [Scalar.ofWriting, hcons]
  simp only [List.head?_cons, hnumber, if_true, words_lookup_of_isNumber h, htime]
  cases hn : Scalar.number? text with
  | none => exact ⟨_, rfl⟩
  | some s =>
      rcases number?_eq_some hn with ⟨n, rfl⟩ | ⟨x, rfl⟩
      · exact ⟨_, rfl⟩
      · exact ⟨_, rfl⟩

theorem hasValue_number {text : String} (h : IsNumber text.toList) (line : Nat) :
    HasValue (.scalar line (Scalar.plainTag text) .plain text) := by
  have hdecode : ∀ s, Yaml.scalarValue? (Scalar.plainTag text) text = some s →
      (Node.scalar line (Scalar.plainTag text) .plain text).decode = .ok (.scalar s) := by
    intro s hs
    rw [Node.decode, Yaml.scalarValue, hs]
    rfl
  rcases Scalar.scalarValue?_plainTag text with hs | hs
  · exact ⟨_, .string text, hdecode _ hs, rfl⟩
  · obtain ⟨j, hj⟩ := toJson?_of_isNumber h
    exact ⟨_, j, hdecode _ hs, hj⟩

theorem hasValue_sequence {items : List Node} (h : ∀ n ∈ items, HasValue n) (line : Nat)
    (tag : Yaml.Tag) : HasValue (.sequence line tag items) := by
  have hitems : ∃ ws js, Yaml.decodeItems items = .ok ws ∧ Yaml.itemsToJson? ws = some js := by
    induction items with
    | nil => exact ⟨[], [], rfl, rfl⟩
    | cons n items ih =>
        rw [List.forall_mem_cons] at h
        obtain ⟨w, j, hw, hj⟩ := h.1
        obtain ⟨ws, js, hws, hjs⟩ := ih h.2
        refine ⟨w :: ws, j :: js, ?_, by rw [Yaml.itemsToJson?, hj, hjs]⟩
        rw [Yaml.decodeItems, hw, hws]
        rfl
  obtain ⟨ws, js, hws, hjs⟩ := hitems
  refine ⟨.list ws, .array js, by rw [Node.decode, hws]; rfl, ?_⟩
  rw [Value.toJson?, hjs]
  rfl

theorem hasValue_mapping {members : List (Node × Node)} (hd : Node.keysDistinct members = true)
    (hk : ∀ e ∈ members, e.1.IsOwnKey ∧ e.1.tag = .str) (hv : ∀ e ∈ members, HasValue e.2)
    (line : Nat) (tag : Yaml.Tag) : HasValue (.mapping line tag members) := by
  have htexts : Node.keysAreTexts members = true := by
    rw [Node.keysAreTexts, List.all_eq_true]
    intro e he
    rw [(hk e he).2]
    rfl
  obtain ⟨m, hadd, hm⟩ := addMembers_own (m := ⟨["<<"], []⟩) (fun e he => (hk e he).1) hv
    fun _ h => absurd h List.not_mem_nil
  obtain ⟨js, hjs⟩ := membersToJson?_some hm
  refine ⟨.map m.members, _, ?_, by rw [Value.toJson?, hjs]; rfl⟩
  have hmerge := Yaml.addMerges_of_plain m fun e he => (hk e he).1.isMerge
  rw [Node.decode, Yaml.checkKeys, hd]
  simp only [if_true, htexts, hadd, hmerge, bind, Except.bind]
  rfl

/-- Every tree of a value that can be written has a value with a JSON form. -/
theorem Writable.hasValue_tree {v : Json} (h : v.Writable) (hd : v.DistinctNames) :
    HasValue v.tree := by
  induction v using Json.induct with
  | null => exact ⟨_, _, rfl, rfl⟩
  | bool b => cases b <;> exact ⟨_, _, rfl, rfl⟩
  | number text =>
      cases h with
      | number hn => exact hasValue_number hn 1
  | string text => exact ⟨_, _, rfl, rfl⟩
  | array items ih =>
      cases h with
      | array hw =>
          cases hd with
          | array hd =>
              rw [tree, itemTrees_eq]
              refine hasValue_sequence (fun n hn => ?_) 1 .seq
              obtain ⟨v, hv, rfl⟩ := List.mem_map.mp hn
              exact ih v hv (hw v hv) (hd v hv)
  | object members ih =>
      cases h with
      | object hw =>
          cases hd with
          | object hnodup hd =>
              rw [tree, memberTrees_eq]
              refine hasValue_mapping (Node.keysDistinct_of_nodup ?_) ?_ ?_ 1 .map
              · rwa [List.map_map]
              · intro e he
                obtain ⟨m, -, rfl⟩ := List.mem_map.mp he
                exact ⟨⟨rfl, rfl⟩, rfl⟩
              · intro e he
                obtain ⟨m, hm, rfl⟩ := List.mem_map.mp he
                exact ih m hm (hw m hm) (hd m hm)

/-! ## Visits -/

theorem add_outside {u : Visits} (h : u.viaAlias = 0) :
    ∃ u', u.add 0 = some u' ∧ u'.viaAlias = 0 := by
  refine ⟨⟨u.all + 1, 0⟩, ?_, rfl⟩
  simp [Visits.add, Visits.isExcessive, h]

/-- Reading a tree visits nothing through an alias. -/
theorem visits_tree (v : Json) :
    ∀ u : Visits, u.viaAlias = 0 → ∃ u', v.tree.visits 0 u = some u' ∧ u'.viaAlias = 0 := by
  induction v using Json.induct with
  | null => exact fun _ h => add_outside h
  | bool b => exact fun _ h => add_outside h
  | number text => exact fun _ h => add_outside h
  | string text => exact fun _ h => add_outside h
  | array items ih =>
      have hitems : ∀ u : Visits, u.viaAlias = 0 →
          ∃ u', Yaml.itemVisits 0 u (itemTrees items) = some u' ∧ u'.viaAlias = 0 := by
        induction items with
        | nil => exact fun u h => ⟨u, rfl, h⟩
        | cons v items ihitems =>
            intro u hu
            rw [List.forall_mem_cons] at ih
            obtain ⟨u', hvisit, hu'⟩ := ih.1 u hu
            rw [itemTrees, Yaml.itemVisits, hvisit]
            exact ihitems ih.2 u' hu'
      intro u hu
      obtain ⟨u', hadd, hu'⟩ := add_outside hu
      rw [tree, Node.visits, hadd]
      exact hitems u' hu'
  | object members ih =>
      have hmembers : ∀ u : Visits, u.viaAlias = 0 →
          ∃ u', Yaml.memberVisits 0 u (memberTrees members) = some u' ∧ u'.viaAlias = 0 := by
        induction members with
        | nil => exact fun u h => ⟨u, rfl, h⟩
        | cons m members ihmembers =>
            obtain ⟨name, v⟩ := m
            intro u hu
            rw [List.forall_mem_cons] at ih
            obtain ⟨u', hkey, hu'⟩ := add_outside hu
            obtain ⟨u'', hvisit, hu''⟩ := ih.1 u' hu'
            have hmerge : (Node.scalar 1 .str .doubleQuoted name).isMerge = false := rfl
            simp only at hvisit
            rw [memberTrees, Yaml.memberVisits, hmerge]
            simp only [Node.visits, hkey, hvisit, Bool.false_eq_true, if_false]
            exact ihmembers ih.2 u'' hu''
      -- no key of a rendered object is a merge: the quotes make it a string
      have hmerges : ∀ u : Visits, Yaml.mergeVisits 0 u (memberTrees members) = some u := by
        intro u
        clear hmembers ih
        induction members with
        | nil => rfl
        | cons m members ihmembers =>
            rw [memberTrees]
            exact ihmembers
      intro u hu
      obtain ⟨u', hadd, hu'⟩ := add_outside hu
      obtain ⟨u'', hvisit, hu''⟩ := hmembers u' hu'
      rw [tree, Node.visits, hadd]
      simp only [hvisit, hmerges]
      exact ⟨u'', rfl, hu''⟩

theorem isExpandable_tree (v : Json) : v.tree.isExpandable = true := by
  obtain ⟨u, hu, -⟩ := v.visits_tree ⟨1, 0⟩ rfl
  rw [Node.isExpandable, hu]
  rfl

/-- The tree of a value is a payload if no name is repeated. -/
theorem Writable.ofRoot_tree {v : Json} (h : v.Writable) :
    (∃ p, Payload.ofRoot v.tree = .ok p) ↔ v.DistinctNames := by
  rw [Payload.ofRoot, Node.documentValue, v.isExpandable_tree, if_pos rfl]
  constructor
  · rintro ⟨p, hp⟩
    split at hp
    · cases hp
    · rename_i w hw
      exact v.distinctNames_of_decode w hw
  · intro hd
    obtain ⟨w, j, hw, hj⟩ := h.hasValue_tree hd
    rw [hw]
    simp only [hj]
    exact ⟨_, rfl⟩

end Json

/-! ## Data -/

theorem Text.trim_eq_self {first last : Char} {text : String} {cs : List Char}
    (h : text.toList = first :: (cs ++ [last])) (hf : Text.isBlank first = false)
    (hl : Text.isBlank last = false) : Text.trim text = text := by
  have hstart : Text.trimStart text.toList = text.toList := by
    rw [h, Text.trimStart, List.dropWhile_cons, hf]
    rfl
  have hend : Text.trimEnd text.toList = text.toList := by
    rw [Text.trimEnd, h, Text.trimStart, List.reverse_cons, List.reverse_append]
    simp [hl]
  rw [Text.trim, Text.trimBoth, hstart, hend, String.ofList_toList]

namespace Json

theorem trim_render {v : Json} (h : ¬v.IsScalar) : Text.trim v.render = v.render := by
  cases v with
  | array items =>
      exact Text.trim_eq_self (render_array_toList items) (by decide) (by decide)
  | object members =>
      exact Text.trim_eq_self (render_object_toList members) (by decide) (by decide)
  | _ => exact absurd trivial h

theorem render_ne {v : Json} (h : ¬v.IsScalar) : v.render ≠ "" ∧ v.render ≠ "null" := by
  have hhead : ∃ c cs, v.render.toList = c :: cs ∧ (c = '[' ∨ c = '\x7b') := by
    cases v with
    | array items => exact ⟨_, _, render_array_toList items, .inl rfl⟩
    | object members => exact ⟨_, _, render_object_toList members, .inr rfl⟩
    | _ => exact absurd trivial h
  obtain ⟨c, cs, hcons, hc⟩ := hhead
  constructor
  · intro he
    rw [he] at hcons
    cases hcons
  · intro he
    rw [he] at hcons
    cases hcons
    rcases hc with hc | hc <;> cases hc

/-- The text of a collection is the payload of its tree, unless it has a character that
no text may have, a name that is too long, or a name twice. -/
theorem Writable.payload_render {v : Json} (h : v.Writable) (hs : ¬v.IsScalar)
    (hline : v.OnOneLine) (hd : fitsDepth maxDepth v = true) (p : Payload) :
    Payload.parse v.render = .ok p ↔
      (v.render.toList.all Yaml.isAllowed && v.hasShortNames) = true ∧
      Payload.ofRoot v.tree = .ok p := by
  have hparse := h.parse_render hs hline hd
  rw [Payload.parse]
  cases hread : v.render.toList.all Yaml.isAllowed && v.hasShortNames with
  | true =>
      rw [hread] at hparse
      cases hyaml : Yaml.parse v.render with
      | error e =>
          rw [hyaml] at hparse
          cases hparse
      | ok document =>
          rw [hyaml] at hparse
          obtain rfl := Option.some.inj hparse
          simp
  | false =>
      rw [hread] at hparse
      cases hyaml : Yaml.parse v.render with
      | error e => simp
      | ok document =>
          rw [hyaml] at hparse
          cases hparse

/-- A value whose text is read back as the value: its numbers have doubles, it is not
nested too deep, all its characters may stand in a text, and its names are short enough
for keys and are not repeated. -/
structure Carries (v : Json) : Prop where
  doubles : v.hasDoubles = true
  depth : fitsDepth maxDepth v = true
  allowed : v.render.toList.all Yaml.isAllowed = true
  shortNames : v.hasShortNames = true
  distinctNames : v.DistinctNames

end Json

theorem Payload.ofRoot_root {root : Node} {p : Payload} (h : ofRoot root = .ok p) :
    p.root = some root := by
  unfold ofRoot at h
  split at h
  · cases h
  · split at h
    · obtain rfl := Except.ok.inj h
      rfl
    · cases h

namespace ConfigKind
open Json

/-- Data that was rendered is admitted if the value is carried over and the schema has
nothing against it, and then its root is the tree of the value. -/
theorem admits_render_iff (kind : ConfigKind) {v : Json} (hw : v.Writable) (hs : ¬v.IsScalar)
    (hline : v.OnOneLine) (root : Option Node) :
    kind.Admits (some v.render) root ↔
      v.Carries ∧ kind.violation? v = none ∧ root = some v.tree := by
  have htrim : Text.trim ((some v.render).getD "") = v.render := trim_render hs
  constructor
  · intro h
    cases h with
    | absent ha =>
        rw [Absent, htrim] at ha
        rcases ha with ha | ha
        · exact absurd ha (render_ne hs).1
        · exact absurd ha (render_ne hs).2
    | @present compact json p _ hc hj hv hp =>
        rw [htrim, hw.compact?_render] at hc
        split at hc
        · rename_i hdoubles
          obtain rfl := Option.some.inj hc
          rw [hw.first?_render] at hj
          split at hj
          · rename_i hdepth
            obtain rfl := Option.some.inj hj
            obtain ⟨hread, hroot⟩ := (hw.payload_render hs hline hdepth p).mp hp
            rw [Bool.and_eq_true] at hread
            exact ⟨⟨hdoubles, hdepth, hread.1, hread.2, hw.ofRoot_tree.mp ⟨p, hroot⟩⟩, hv,
              Payload.ofRoot_root hroot⟩
          · cases hj
        · cases hc
  · rintro ⟨hcarries, hv, rfl⟩
    obtain ⟨p, hp⟩ := hw.ofRoot_tree.mpr hcarries.distinctNames
    have hparse := (hw.payload_render hs hline hcarries.depth p).mpr
      ⟨by rw [hcarries.allowed, hcarries.shortNames]; rfl, hp⟩
    have hpresent : ¬Absent (some v.render) := by
      rw [Absent, htrim]
      simpa [not_or] using render_ne hs
    have hcompact : compact? false (Text.trim ((some v.render).getD "")) = some v.render := by
      rw [htrim, hw.compact?_render, hcarries.doubles, if_pos rfl]
    have hfirst : first? v.render = some v := by
      rw [hw.first?_render, hcarries.depth, if_pos rfl]
    rw [← Payload.ofRoot_root hp]
    exact .present hpresent hcompact hfirst hv hparse

end ConfigKind

end Stepwise
