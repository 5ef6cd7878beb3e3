import Mathlib.Data.List.Forall2
import Mathlib.Data.List.Nodup
import Stepwise.Payload.Decode
import Stepwise.Proofs.PlainScalars
import Stepwise.Schema.Basic

/-!
# The tree of a JSON value

JSON is a part of YAML, so a value has a tree of nodes: strings are quoted scalars,
other scalars are plain ones whose tag follows from their writing, and the members
of an object keep their order. Lines are left open, since a text may break between
any two tokens.

A tree is read field by field. What a field of the tree gives depends on the member
of that name alone, as long as no name is repeated.
-/
namespace Stepwise

open Yaml (Node Scalar Tag)

namespace Json

/-- No object of the value has two members of one name. -/
inductive DistinctNames : Json → Prop
  | null : DistinctNames .null
  | bool {b : Bool} : DistinctNames (.bool b)
  | number {text : String} : DistinctNames (.number text)
  | string {text : String} : DistinctNames (.string text)
  | array {items : List Json} : (∀ v ∈ items, DistinctNames v) → DistinctNames (.array items)
  | object {members : List (String × Json)} : (members.map Prod.fst).Nodup →
      (∀ m ∈ members, DistinctNames m.2) → DistinctNames (.object members)

def IsName (name : String) (n : Node) : Prop :=
  ∃ line, n = .scalar line .str .doubleQuoted name

/-- A node is the tree of a value. -/
inductive HasTree : Json → Node → Prop
  | null {line : Nat} : HasTree .null (.scalar line .null .plain "null")
  | bool {line : Nat} {b : Bool} :
      HasTree (.bool b) (.scalar line .bool .plain (if b then "true" else "false"))
  | number {line : Nat} {text : String} :
      HasTree (.number text) (.scalar line (Scalar.plainTag text) .plain text)
  | string {line : Nat} {text : String} :
      HasTree (.string text) (.scalar line .str .doubleQuoted text)
  | array {line : Nat} {items : List Json} {nodes : List Node} :
      List.Forall₂ HasTree items nodes → HasTree (.array items) (.sequence line .seq nodes)
  | object {line : Nat} {members : List (String × Json)} {nodes : List (Node × Node)} :
      List.Forall₂ IsName (members.map Prod.fst) (nodes.map Prod.fst) →
      List.Forall₂ HasTree (members.map Prod.snd) (nodes.map Prod.snd) →
      HasTree (.object members) (.mapping line .map nodes)

/-- A value that is neither an array nor an object. -/
def IsScalar : Json → Prop
  | array _ => False
  | object _ => False
  | _ => True

/-- The items of an array or the values of an object. -/
def parts : Json → List Json
  | array items => items
  | object members => members.map Prod.snd
  | _ => []

/-! ## Names and look-up -/

theorem exists_of_mem_right {α β : Type} {r : α → β → Prop} {as : List α} {bs : List β}
    (h : List.Forall₂ r as bs) {b : β} (hb : b ∈ bs) : ∃ a ∈ as, r a b := by
  induction h with
  | nil => cases hb
  | @cons a c as bs hac _ ih =>
      rcases List.mem_cons.mp hb with rfl | hb
      · exact ⟨a, List.mem_cons_self, hac⟩
      · obtain ⟨a', ha', hab⟩ := ih hb
        exact ⟨a', List.mem_cons_of_mem a ha', hab⟩

theorem lastMembers_of_nodup {members : List (String × Json)} (h : (members.map Prod.fst).Nodup) :
    lastMembers members = members := by
  have hfold : ∀ rest kept : List (String × Json), ((kept ++ rest).map Prod.fst).Nodup →
      rest.foldl (fun kept m =>
        if kept.any (·.1 == m.1) then kept.map (fun k => if k.1 == m.1 then m else k)
        else kept ++ [m]) kept = kept ++ rest := by
    intro rest
    induction rest with
    | nil => intro kept _; simp
    | cons m rest ih =>
        intro kept hn
        have hnew : kept.any (·.1 == m.1) = false := by
          rw [List.any_eq_false]
          intro k hk he
          rw [List.map_append, List.nodup_append] at hn
          exact hn.2.2 k.1 (List.mem_map_of_mem hk) m.1 (by simp) (by simpa using he)
        rw [List.foldl_cons, hnew]
        simp only [Bool.false_eq_true, if_false]
        rw [ih (kept ++ [m]) (by simpa using hn), List.append_assoc, List.singleton_append]
  exact hfold members [] h

theorem lookup_of_mem {α : Type} {members : List (String × α)} (h : (members.map Prod.fst).Nodup)
    {m : String × α} (hm : m ∈ members) : members.lookup m.1 = some m.2 := by
  induction members with
  | nil => cases hm
  | cons k rest ih =>
      rw [List.map_cons, List.nodup_cons] at h
      rcases List.mem_cons.mp hm with rfl | hm
      · rw [List.lookup_cons, beq_self_eq_true]
      · have hne : (m.1 == k.1) = false := by
          rw [beq_eq_false_iff_ne]
          intro he
          exact h.1 (he ▸ List.mem_map_of_mem hm)
        rw [List.lookup_cons, hne]
        exact ih h.2 hm

theorem mem_of_lookup {α : Type} {members : List (String × α)} {name : String} {v : α}
    (h : members.lookup name = some v) : (name, v) ∈ members := by
  induction members with
  | nil => cases h
  | cons k rest ih =>
      obtain ⟨k, w⟩ := k
      rw [List.lookup_cons] at h
      split at h
      · rename_i hk
        rw [Option.some.injEq] at h
        simp [h, (beq_iff_eq.mp hk)]
      · exact List.mem_cons_of_mem _ (ih h)

/-- Where names are distinct, the last member of a name is the only one. -/
theorem get?_object {members : List (String × Json)} (h : (members.map Prod.fst).Nodup)
    (name : String) : (Json.object members).get? name = members.lookup name := by
  rw [get?]
  cases hf : members.reverse.find? (·.1 == name) with
  | some m =>
      have hm := List.mem_of_find?_eq_some hf
      have hname := List.find?_some hf
      rw [← beq_iff_eq.mp hname, lookup_of_mem h (List.mem_reverse.mp hm)]
      rfl
  | none =>
      cases hl : members.lookup name with
      | none => rfl
      | some v =>
          have hmem := List.mem_reverse.mpr (mem_of_lookup hl)
          exact absurd (List.find?_eq_none.mp hf _ hmem) (by simp)

/-! ## Scalars of a tree -/

theorem HasTree.text?_eq {v : Json} {n : Node} (h : v.HasTree n) (hs : v.IsScalar) :
    ∃ text, n.text? = some text := by
  cases h with
  | null => exact ⟨none, rfl⟩
  | @bool _ b => cases b <;> exact ⟨_, rfl⟩
  | string => exact ⟨_, rfl⟩
  | @number line text =>
      rw [Node.text?]
      rcases Scalar.scalarValue?_plainTag text with hv | hv
      · rw [hv]
        exact ⟨_, rfl⟩
      · rw [hv]
        split
        · rename_i he
          cases he
        · exact ⟨_, rfl⟩
        · exact ⟨_, rfl⟩
        · exact ⟨_, rfl⟩
  | array _ => exact hs.elim
  | object _ _ => exact hs.elim

/-- A value that can be read as a whole number: a null, or a plain integer in range. -/
inductive IsCount : Json → Prop
  | null : IsCount .null
  | integer {text : String} {n : Int} : PlainInteger text n → IsCount (.number text)

theorem HasTree.int?_eq {v : Json} {n : Node} (h : v.HasTree n) (hc : v.IsCount) :
    ∃ k, n.int? = some k := by
  cases hc with
  | null =>
      cases h
      exact ⟨none, rfl⟩
  | @integer text k hk =>
      cases h with
      | number =>
          have hle : k ≤ Number.greatest64 := by
            cases hk with
            | written _ _ hfits =>
                simp only [Number.fits64, Bool.and_eq_true, decide_eq_true_eq] at hfits
                exact hfits.2
          refine ⟨some k, ?_⟩
          rw [Node.int?, Scalar.plainTag_of_plainInteger hk, Scalar.scalarValue?_of_plainInteger hk]
          simp only [hle, if_true]

theorem HasTree.text?_string {text : String} {n : Node} (h : (Json.string text).HasTree n) :
    n.text? = some (some text) := by
  cases h
  rfl

/-! ## Records -/

/-- Two lists with the same names in order, and related values, agree on what a name finds. -/
theorem lookup_of_forall₂ {α β : Type} {r : α → β → Prop} {as : List (String × α)}
    {bs : List (String × β)} (h : List.Forall₂ (fun a b => a.1 = b.1 ∧ r a.2 b.2) as bs)
    (name : String) : as.lookup name = none ∧ bs.lookup name = none ∨
      ∃ a b, as.lookup name = some a ∧ bs.lookup name = some b ∧ r a b := by
  induction h with
  | nil => exact .inl ⟨rfl, rfl⟩
  | @cons a b as bs hab _ ih =>
      rw [List.lookup_cons, List.lookup_cons, ← hab.1]
      cases name == a.1 with
      | true => exact .inr ⟨a.2, b.2, rfl, rfl, hab.2⟩
      | false => exact ih

section
variable {members : List (String × Json)} {entries : List (String × Node)}

/-- The entry of a record that a member gives. -/
def IsEntry (m : String × Json) (e : String × Node) : Prop :=
  m.1 = e.1 ∧ m.2.HasTree e.2

theorem textField_eq (h : List.Forall₂ IsEntry members entries) {name : String}
    (hs : ∀ v, members.lookup name = some v → v.IsScalar) :
    ∃ text, Yaml.textField entries name = some text := by
  rcases lookup_of_forall₂ h name with ⟨-, he⟩ | ⟨v, n, hv, he, ht⟩
  · exact ⟨"", by rw [Yaml.textField, he]⟩
  · obtain ⟨text, htext⟩ := ht.text?_eq (hs v hv)
    exact ⟨text.getD "", by rw [Yaml.textField, he]; simp only [htext, Option.map_some]⟩

theorem intField_eq (h : List.Forall₂ IsEntry members entries) {name : String}
    (hs : ∀ v, members.lookup name = some v → v.IsCount) :
    ∃ n, Yaml.intField entries name = some n := by
  rcases lookup_of_forall₂ h name with ⟨-, he⟩ | ⟨v, n, hv, he, ht⟩
  · exact ⟨0, by rw [Yaml.intField, he]⟩
  · obtain ⟨k, hk⟩ := ht.int?_eq (hs v hv)
    exact ⟨k.getD 0, by rw [Yaml.intField, he]; simp only [hk, Option.map_some]⟩

end

theorem textItems?_eq {items : List Json} {nodes : List Node}
    (h : List.Forall₂ HasTree items nodes) (hs : ∀ v ∈ items, ∃ text, v = .string text) :
    ∃ texts, Node.textItems? nodes = some texts := by
  induction h with
  | nil => exact ⟨[], rfl⟩
  | @cons v n items nodes hv _ ih =>
      obtain ⟨texts, htexts⟩ := ih fun w hw => hs w (List.mem_cons_of_mem v hw)
      obtain ⟨text, rfl⟩ := hs v List.mem_cons_self
      exact ⟨text :: texts, by rw [Node.textItems?, hv.text?_string, htexts]⟩

theorem textsField_eq {members : List (String × Json)} {entries : List (String × Node)}
    (h : List.Forall₂ IsEntry members entries) {name : String}
    (hs : ∀ v, members.lookup name = some v →
      ∃ items, v = .array items ∧ ∀ w ∈ items, ∃ text, w = .string text) :
    ∃ texts, Yaml.textsField entries name = some texts := by
  rcases lookup_of_forall₂ h name with ⟨-, he⟩ | ⟨v, n, hv, he, ht⟩
  · exact ⟨[], by rw [Yaml.textsField, he]⟩
  · obtain ⟨items, rfl, hitems⟩ := hs v hv
    cases ht with
    | array hnodes =>
        obtain ⟨texts, htexts⟩ := textItems?_eq hnodes hitems
        exact ⟨texts, by rw [Yaml.textsField, he]; exact htexts⟩

/-! ## Objects as records -/

end Json

namespace Yaml.Node

/-- The members of a mapping as entries of a record. -/
def ownEntries (members : List (Node × Node)) : List (String × Node) :=
  members.map fun m => (m.1.value, m.2)

/-- A key that is a text of its own: no merge, and read as it is written. -/
structure IsOwnKey (k : Node) : Prop where
  isMerge : k.isMerge = false
  text? : k.text? = some (some k.value)

theorem keysDistinct_of_nodup {members : List (Node × Node)}
    (h : (members.map fun m => m.1.value).Nodup) : keysDistinct members = true := by
  induction members with
  | nil => rfl
  | cons m rest ih =>
      rw [List.map_cons, List.nodup_cons] at h
      rw [keysDistinct, Bool.and_eq_true, List.all_eq_true]
      refine ⟨?_, ih h.2⟩
      intro other hother
      have hne : m.1.value ≠ other.1.value := fun he => h.1 (he ▸ List.mem_map_of_mem hother)
      simp [sameKey, hne]

section
variable {members : List (Node × Node)} (h : ∀ m ∈ members, m.1.IsOwnKey)
include h

theorem addMembers_ownEntries (c : Collected) :
    ∃ seen, Collected.addMembers false c members =
      some ⟨seen, c.entries ++ ownEntries members⟩ := by
  induction members generalizing c with
  | nil => exact ⟨c.seen, by simp [Collected.addMembers, ownEntries]⟩
  | cons m rest ih =>
      obtain ⟨k, v⟩ := m
      obtain ⟨hk, hrest⟩ := List.forall_mem_cons.mp h
      obtain ⟨seen, hseen⟩ := ih hrest ⟨k.value :: c.seen, c.entries ++ [(k.value, v)]⟩
      refine ⟨seen, ?_⟩
      rw [Collected.addMembers]
      simp only [hk.isMerge, hk.text?, Bool.false_eq_true, Bool.false_and, if_false]
      rw [hseen, List.append_assoc]
      rfl

theorem collectMerges_of_own (c : Collected) : collectMerges c members = some c := by
  induction members with
  | nil => rfl
  | cons m rest ih =>
      obtain ⟨k, v⟩ := m
      obtain ⟨hk, hrest⟩ := List.forall_mem_cons.mp h
      rw [collectMerges]
      simp only [hk.isMerge, Bool.false_eq_true, if_false]
      exact ih hrest

/-- A mapping with texts as keys is a record of its members. -/
theorem entries?_of_own (hd : keysDistinct members = true) (line : Nat) (tag : Tag) :
    (mapping line tag members).entries? = some (some (ownEntries members)) := by
  obtain ⟨seen, hseen⟩ := addMembers_ownEntries h ⟨["<<"], []⟩
  rw [entries?, hd, hseen]
  simp only [Bool.not_true, Bool.false_eq_true, if_false]
  rw [collectMerges_of_own h]
  rfl

end

end Yaml.Node

namespace Json

theorem IsName.isOwnKey {name : String} {n : Node} (h : IsName name n) : n.IsOwnKey := by
  obtain ⟨line, rfl⟩ := h
  exact ⟨rfl, rfl⟩

theorem IsName.value {name : String} {n : Node} (h : IsName name n) : n.value = name := by
  obtain ⟨line, rfl⟩ := h
  rfl

theorem map_value_of_names {names : List String} {keys : List Node}
    (h : List.Forall₂ IsName names keys) : keys.map Node.value = names := by
  induction h with
  | nil => rfl
  | cons hname _ ih => rw [List.map_cons, ih, hname.value]

theorem isOwnKey_of_names {names : List String} {keys : List Node}
    (h : List.Forall₂ IsName names keys) : ∀ k ∈ keys, k.IsOwnKey := by
  induction h with
  | nil => exact nofun
  | cons hname _ ih =>
      intro k hk
      rcases List.mem_cons.mp hk with rfl | hk
      · exact hname.isOwnKey
      · exact ih k hk

theorem isEntry_ownEntries {members : List (String × Json)} {nodes : List (Node × Node)}
    (hk : List.Forall₂ IsName (members.map Prod.fst) (nodes.map Prod.fst))
    (hv : List.Forall₂ HasTree (members.map Prod.snd) (nodes.map Prod.snd)) :
    List.Forall₂ IsEntry members (Node.ownEntries nodes) := by
  induction members generalizing nodes with
  | nil =>
      rw [List.map_nil, List.forall₂_nil_left_iff, List.map_eq_nil_iff] at hk
      subst hk
      exact .nil
  | cons m members ih =>
      cases nodes with
      | nil => cases hk
      | cons n nodes =>
          rw [List.map_cons, List.map_cons, List.forall₂_cons] at hk hv
          exact .cons ⟨hk.1.value.symm, hv.1⟩ (ih hk.2 hv.2)

/-- The tree of an object is a record with the same names. -/
theorem HasTree.entries?_object {members : List (String × Json)} {n : Node}
    (h : (Json.object members).HasTree n) (hn : (members.map Prod.fst).Nodup) :
    ∃ entries, n.entries? = some (some entries) ∧ List.Forall₂ IsEntry members entries := by
  cases h with
  | @object line _ nodes hk hv =>
      have hown : ∀ m ∈ nodes, m.1.IsOwnKey := fun m hm =>
        isOwnKey_of_names hk m.1 (List.mem_map_of_mem hm)
      have hvalues : (nodes.map fun m => m.1.value) = members.map Prod.fst := by
        rw [← map_value_of_names hk, List.map_map]
        rfl
      have hd := Node.keysDistinct_of_nodup (hvalues ▸ hn)
      exact ⟨_, Node.entries?_of_own hown hd line .map, isEntry_ownEntries hk hv⟩

end Json
end Stepwise
