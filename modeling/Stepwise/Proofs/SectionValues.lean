import Mathlib
import Stepwise.Proofs.JsonTree
import Stepwise.Proofs.JsonWriting
import Stepwise.Proofs.NumberText
import Stepwise.Proofs.RepeatedKeys

/-!
# Sections and the value of a document

A document has one JSON form as a whole, in which merges are carried out, and one for
each node, which is written member by member. The two agree wherever keys are
written in place: a node is then written with the members of its value, in source
order. A merge key and an alias that stands as a key are what they differ on, because
a node writes the mark of the one and the name of the other.
-/
namespace Stepwise

namespace Yaml

/-- Induction over nodes: a collection has the property when its parts have it. -/
theorem Node.induct {motive : Node → Prop}
    (scalar : ∀ line tag style text, motive (.scalar line tag style text))
    (sequence : ∀ line tag items, (∀ n ∈ items, motive n) → motive (.sequence line tag items))
    (mapping : ∀ line tag members, (∀ m ∈ members, motive m.2) →
      motive (.mapping line tag members))
    (reference : ∀ line name target, motive target → motive (.reference line name target))
    (n : Node) : motive n :=
  @Node.rec motive (fun items => ∀ n ∈ items, motive n) (fun members => ∀ m ∈ members, motive m.2)
    (fun m => motive m.2) scalar sequence mapping reference nofun
    (fun _ _ hn hrest => List.forall_mem_cons.mpr ⟨hn, hrest⟩) nofun
    (fun _ _ hm hrest => List.forall_mem_cons.mpr ⟨hm, hrest⟩) (fun _ _ _ hv => hv) n

def Node.isAlias : Node → Bool
  | reference .. => true
  | _ => false

inductive Node.PlainKeys : Node → Prop
  | scalar {line : Nat} {tag : Tag} {style : Style} {text : String} :
      PlainKeys (.scalar line tag style text)
  | sequence {line : Nat} {tag : Tag} {items : List Node} : (∀ n ∈ items, PlainKeys n) →
      PlainKeys (.sequence line tag items)
  | mapping {line : Nat} {tag : Tag} {members : List (Node × Node)} :
      (∀ m ∈ members, m.1.isMerge = false ∧ m.1.isAlias = false) →
      (∀ m ∈ members, PlainKeys m.2) → PlainKeys (.mapping line tag members)
  | reference {line : Nat} {name : String} {target : Node} : PlainKeys target →
      PlainKeys (.reference line name target)

/-- No mapping on a path has an alias as a key, the path enters no merge, and from its
end on no key is a merge or an alias. -/
def Node.PlainAlong : List String → Node → Prop
  | [], n => n.PlainKeys
  | key :: path, mapping _ _ members =>
    (∀ m ∈ members, m.1.isAlias = false) ∧
      ∀ m, members.find? (fun m => m.1.value == key) = some m →
        m.1.isMerge = false ∧ m.2.PlainAlong path
  | _ :: _, _ => True

/-! ## Keys -/

/-- The members of a mapping other than merges. -/
def ownMembers (members : List (Node × Node)) : List (Node × Node) :=
  members.filter fun m => !m.1.isMerge

theorem ownMembers_of_plain {members : List (Node × Node)}
    (h : ∀ m ∈ members, m.1.isMerge = false) : ownMembers members = members :=
  List.filter_eq_self.mpr fun m hm => by rw [h m hm]; rfl

theorem keyName_of_own {k : Node} (h : k.IsOwnKey) : k.keyName = .ok (some k.value) := by
  rw [Node.keyName, h.text?]

/-- A key that is no alias and no merge, and that reads as a text, reads as written. -/
theorem isOwnKey_of_keyName {k : Node} {name : Option String} (ha : k.isAlias = false)
    (ht : (k.tag == .str || k.tag == .merge) = true) (hm : k.isMerge = false)
    (h : k.keyName = .ok name) :
    k.IsOwnKey ∧ ∃ line tag style text, k = .scalar line tag style text := by
  cases k with
  | scalar line tag style text =>
      refine ⟨⟨hm, ?_⟩, line, tag, style, text, rfl⟩
      rw [Node.tag, Bool.or_eq_true, beq_iff_eq, beq_iff_eq] at ht
      rcases ht with rfl | rfl
      · rfl
      · have hne : (text == "<<") = false := by simpa [Node.isMerge] using hm
        have hnone : (Node.scalar line .merge style text).text? = none := by
          have hs : scalarValue? .merge text = if text == "<<" then some (.text text) else none :=
            rfl
          rw [Node.text?, hs, hne]
          rfl
        rw [Node.keyName, hnone] at h
        cases h
  | sequence line tag items => cases h
  | mapping line tag members => cases h
  | reference line name target => cases ha

theorem mem_ownMembers {members : List (Node × Node)} {m : Node × Node} :
    m ∈ ownMembers members ↔ m ∈ members ∧ m.1.isMerge = false := by
  rw [ownMembers, List.mem_filter, Bool.not_eq_true']

theorem ownMembers_cons (m : Node × Node) (rest : List (Node × Node)) :
    ownMembers (m :: rest) =
      if m.1.isMerge then ownMembers rest else m :: ownMembers rest := by
  rw [ownMembers, List.filter_cons]
  cases m.1.isMerge <;> rfl

theorem isOwnKey_of_addMembers {members : List (Node × Node)} {m m' : Merging}
    (ha : ∀ e ∈ members, e.1.isAlias = false) (ht : Node.keysAreTexts members = true)
    (h : addMembers false m members = .ok m') :
    ∀ e ∈ ownMembers members, e.1.IsOwnKey ∧
      ∃ line tag style text, e.1 = .scalar line tag style text := by
  induction members generalizing m with
  | nil => exact nofun
  | cons e rest ih =>
      obtain ⟨k, v⟩ := e
      rw [List.forall_mem_cons] at ha
      simp only [Node.keysAreTexts, List.all_cons, Bool.and_eq_true] at ht
      simp only [addMembers, Bool.false_and, Bool.false_eq_true, if_false] at h
      rw [ownMembers_cons]
      cases hk : k.isMerge with
      | true =>
          rw [hk] at h
          exact ih ha.2 ht.2 h
      | false =>
          rw [hk] at h
          obtain ⟨name, hname, h⟩ := exists_of_bind_eq_ok h
          have hown := isOwnKey_of_keyName ha.1 ht.1 hk hname
          refine List.forall_mem_cons.mpr ⟨hown, ?_⟩
          rw [keyName_of_own hown.1] at hname
          obtain rfl := Except.ok.inj hname
          obtain ⟨w, -, h⟩ := exists_of_bind_eq_ok h
          exact ih ha.2 ht.2 h

/-- Distinct keys that are scalars have distinct texts. -/
theorem nodup_of_keysDistinct {members : List (Node × Node)}
    (hd : Node.keysDistinct members = true)
    (hs : ∀ e ∈ ownMembers members, ∃ line tag style text, e.1 = .scalar line tag style text) :
    ((ownMembers members).map fun e => e.1.value).Nodup := by
  induction members with
  | nil => exact List.nodup_nil
  | cons e rest ih =>
      obtain ⟨k, v⟩ := e
      rw [Node.keysDistinct, Bool.and_eq_true, List.all_eq_true] at hd
      rw [ownMembers_cons] at hs ⊢
      cases hk : k.isMerge with
      | true =>
          simp only [hk, if_true] at hs ⊢
          exact ih hd.2 hs
      | false =>
          simp only [hk, Bool.false_eq_true, if_false, List.forall_mem_cons] at hs ⊢
          rw [List.map_cons, List.nodup_cons]
          refine ⟨?_, ih hd.2 hs.2⟩
          intro hmem
          obtain ⟨other, hother, he⟩ := List.mem_map.mp hmem
          have hdiff := hd.1 other (mem_ownMembers.mp hother).1
          obtain ⟨line, tag, style, text, hkey⟩ := hs.1
          obtain ⟨line', tag', style', text', hkey'⟩ := hs.2 other hother
          simp only at hkey he
          rw [hkey, hkey'] at he hdiff
          simp [Node.sameKey, Node.sameSort, he] at hdiff

/-! ## The members of a map -/

/-- A member of a mapping is decoded to an entry of a map. -/
def DecodesTo (e : Node × Node) (p : String × Value) : Prop :=
  p.1 = e.1.value ∧ e.2.decode = .ok p.2

theorem setMember_of_not_mem {key : String} {v : Value} {members : List (String × Value)}
    (h : key ∉ members.map Prod.fst) : setMember key v members = members ++ [(key, v)] := by
  induction members with
  | nil => rfl
  | cons m rest ih =>
      obtain ⟨k, w⟩ := m
      rw [List.map_cons, List.mem_cons, not_or] at h
      have hne : (k == key) = false := beq_eq_false_iff_ne.mpr (Ne.symm h.1)
      rw [setMember, hne]
      simp only [Bool.false_eq_true, if_false]
      rw [ih h.2, List.cons_append]

/-- Members with distinct keys become entries in their order. -/
theorem addMembers_entries {members : List (Node × Node)} {m m' : Merging}
    (hown : ∀ e ∈ ownMembers members, e.1.IsOwnKey)
    (hd : ((ownMembers members).map fun e => e.1.value).Nodup)
    (hnew : ∀ e ∈ ownMembers members, e.1.value ∉ m.members.map Prod.fst)
    (h : addMembers false m members = .ok m') :
    ∃ entries, List.Forall₂ DecodesTo (ownMembers members) entries ∧
      m'.members = m.members ++ entries ∧ (∀ p ∈ entries, p.1 ∈ m'.seen) ∧
      ∀ key ∈ m.seen, key ∈ m'.seen := by
  induction members generalizing m with
  | nil =>
      obtain rfl := Except.ok.inj h
      exact ⟨[], .nil, (List.append_nil _).symm, nofun, fun _ hk => hk⟩
  | cons e rest ih =>
      obtain ⟨k, v⟩ := e
      simp only [addMembers, Bool.false_and, Bool.false_eq_true, if_false] at h
      rw [ownMembers_cons] at hown hd hnew ⊢
      cases hk : k.isMerge with
      | true =>
          simp only [hk, if_true] at hown hd hnew h ⊢
          exact ih hown hd hnew h
      | false =>
          simp only [hk, Bool.false_eq_true, if_false, List.forall_mem_cons] at hown hnew h ⊢
          simp only [hk, Bool.false_eq_true, if_false, List.map_cons, List.nodup_cons] at hd
          obtain ⟨name, hname, h⟩ := exists_of_bind_eq_ok h
          rw [keyName_of_own hown.1] at hname
          obtain rfl := Except.ok.inj hname
          obtain ⟨w, hw, h⟩ := exists_of_bind_eq_ok h
          -- the key is new, so setting it appends
          have hset : (m.set k.value w).members = m.members ++ [(k.value, w)] :=
            setMember_of_not_mem hnew.1
          have hnew' : ∀ e ∈ ownMembers rest,
              e.1.value ∉ (m.set k.value w).members.map Prod.fst := by
            intro e he hmem
            rw [hset, List.map_append, List.mem_append] at hmem
            rcases hmem with hmem | hmem
            · exact hnew.2 e he hmem
            · have heq : e.1.value = k.value := by simpa using hmem
              exact hd.1 (heq ▸ List.mem_map_of_mem he)
          obtain ⟨entries, hentries, hmembers, hseen, hkeep⟩ := ih hown.2 hd.2 hnew' h
          refine ⟨(k.value, w) :: entries, .cons ⟨rfl, hw⟩ hentries, ?_, ?_, ?_⟩
          · rw [hmembers, hset, List.append_assoc, List.singleton_append]
          · exact List.forall_mem_cons.mpr ⟨hkeep _ List.mem_cons_self, hseen⟩
          · exact fun key hkey => hkeep key (List.mem_cons_of_mem _ hkey)

theorem addMerges_of_plain {members : List (Node × Node)} (m : Merging)
    (h : ∀ e ∈ members, e.1.isMerge = false) : addMerges m members = .ok m := by
  induction members with
  | nil => rfl
  | cons e rest ih =>
      obtain ⟨k, v⟩ := e
      rw [List.forall_mem_cons] at h
      simp only [addMerges, h.1, Bool.false_eq_true, if_false]
      exact ih h.2

/-! ## Merges -/

/-- What is merged later leaves the keys that are set, and no key comes in twice. -/
structure Merging.Keeps (m m' : Merging) : Prop where
  seen : ∀ key ∈ m.seen, key ∈ m'.seen
  lookup : ∀ key ∈ m.seen, m'.members.lookup key = m.members.lookup key
  nodup : (m.members.map Prod.fst).Nodup → (m'.members.map Prod.fst).Nodup

theorem Merging.Keeps.refl (m : Merging) : m.Keeps m :=
  ⟨fun _ h => h, fun _ _ => rfl, fun h => h⟩

theorem Merging.Keeps.trans {m m' m'' : Merging} (h : m.Keeps m') (h' : m'.Keeps m'') :
    m.Keeps m'' :=
  ⟨fun key hk => h'.seen key (h.seen key hk),
    fun key hk => (h'.lookup key (h.seen key hk)).trans (h.lookup key hk),
    fun hn => h'.nodup (h.nodup hn)⟩

theorem setMember_keys (key : String) (v : Value) (members : List (String × Value)) :
    (setMember key v members).map Prod.fst =
      if key ∈ members.map Prod.fst then members.map Prod.fst
      else members.map Prod.fst ++ [key] := by
  induction members with
  | nil => rfl
  | cons m rest ih =>
      obtain ⟨k, w⟩ := m
      rw [setMember]
      by_cases hk : k = key
      · simp [hk]
      · have hne : (k == key) = false := beq_eq_false_iff_ne.mpr hk
        simp only [hne, Bool.false_eq_true, if_false, List.map_cons, ih, List.mem_cons,
          Ne.symm hk, false_or]
        split <;> simp

theorem lookup_setMember {key other : String} (h : other ≠ key) (v : Value)
    (members : List (String × Value)) :
    (setMember key v members).lookup other = members.lookup other := by
  have hother : (other == key) = false := beq_eq_false_iff_ne.mpr h
  induction members with
  | nil => simp [setMember, h]
  | cons m rest ih =>
      obtain ⟨k, w⟩ := m
      rw [setMember]
      by_cases hk : k = key
      · simp [hk, List.lookup_cons, hother]
      · have hne : (k == key) = false := beq_eq_false_iff_ne.mpr hk
        simp only [hne, Bool.false_eq_true, if_false, List.lookup_cons, ih]

theorem Merging.keeps_set {m : Merging} {key : String} (h : key ∉ m.seen) (v : Value) :
    m.Keeps (m.set key v) := by
  refine ⟨fun k hk => List.mem_cons_of_mem key hk, ?_, ?_⟩
  · intro k hk
    exact lookup_setMember (fun he : k = key => h (he ▸ hk)) v m.members
  · intro hn
    rw [Merging.set, setMember_keys]
    split
    · exact hn
    · rename_i hnew
      exact List.nodup_append.mpr ⟨hn, List.nodup_singleton key, by
        intro a ha b hb he
        rw [List.mem_singleton.mp hb] at he
        exact hnew (he ▸ ha)⟩

theorem keeps_addMembers {members : List (Node × Node)} {m m' : Merging}
    (h : addMembers true m members = .ok m') : m.Keeps m' := by
  induction members generalizing m with
  | nil =>
      obtain rfl := Except.ok.inj h
      exact .refl m
  | cons e rest ih =>
      obtain ⟨k, v⟩ := e
      simp only [addMembers, Bool.true_and] at h
      split at h
      · exact ih h
      · obtain ⟨name, -, h⟩ := exists_of_bind_eq_ok h
        cases name with
        | none => exact ih h
        | some key =>
            dsimp only at h
            split at h
            · exact ih h
            · rename_i hseen
              obtain ⟨w, -, h⟩ := exists_of_bind_eq_ok h
              exact (Merging.keeps_set (by simpa using hseen) w).trans (ih h)

theorem keeps_addMerges {members : List (Node × Node)}
    (hv : ∀ e ∈ members, ∀ m m', mergeNode m e.2 = .ok m' → m.Keeps m') {m m' : Merging}
    (h : addMerges m members = .ok m') : m.Keeps m' := by
  induction members with
  | nil =>
      obtain rfl := Except.ok.inj h
      exact .refl m
  | cons e rest ih =>
      obtain ⟨k, v⟩ := e
      rw [List.forall_mem_cons] at hv
      simp only [addMerges] at h
      split at h
      · exact hv.1 m m' h
      · exact ih hv.2 h

theorem keeps_mergeItems {items : List Node}
    (hi : ∀ n ∈ items, ∀ m m', mergeNode m n = .ok m' → m.Keeps m') {m m' : Merging}
    (h : mergeItems m items = .ok m') : m.Keeps m' := by
  induction items generalizing m with
  | nil =>
      obtain rfl := Except.ok.inj h
      exact .refl m
  | cons n rest ih =>
      rw [List.forall_mem_cons] at hi
      simp only [mergeItems] at h
      obtain ⟨m'', hn, h⟩ := exists_of_bind_eq_ok h
      exact (hi.1 m m'' hn).trans (ih hi.2 h)

theorem keeps_mergeNode (n : Node) : ∀ m m', mergeNode m n = .ok m' → m.Keeps m' := by
  induction n using Node.induct with
  | scalar => exact nofun
  | sequence line tag items ih =>
      intro m m' h
      simp only [mergeNode] at h
      split at h
      · exact keeps_mergeItems ih h
      · cases h
  | mapping line tag members ih =>
      intro m m' h
      simp only [mergeNode] at h
      obtain ⟨_, -, h⟩ := exists_of_bind_eq_ok h
      obtain ⟨m'', hadd, h⟩ := exists_of_bind_eq_ok h
      exact (keeps_addMembers hadd).trans (keeps_addMerges ih h)
  | reference line name target ih =>
      intro m m' h
      simp only [mergeNode] at h
      split at h
      · exact ih m m' h
      · cases h

end Yaml

/-! ## Order of members -/

namespace Json

mutual

/-- The value with the members of its objects sorted by name. -/
def sorted : Json → Json
  | array items => array (sortedItems items)
  | object members => object ((sortedMembers members).mergeSort fun a b => decide (a.1 ≤ b.1))
  | v => v

def sortedItems : List Json → List Json
  | [] => []
  | v :: rest => v.sorted :: sortedItems rest

/-- The members in their order, the value of each sorted. -/
def sortedMembers : List (String × Json) → List (String × Json)
  | [] => []
  | (k, v) :: rest => (k, v.sorted) :: sortedMembers rest

end

mutual

/-- The names of the members of every object, in their order, outer objects first. -/
def nameRows : Json → List (List String)
  | array items => itemNameRows items
  | object members => members.map Prod.fst :: memberNameRows members
  | _ => []

def itemNameRows : List Json → List (List String)
  | [] => []
  | v :: rest => v.nameRows ++ itemNameRows rest

def memberNameRows : List (String × Json) → List (List String)
  | [] => []
  | (_, v) :: rest => v.nameRows ++ memberNameRows rest

end

def follow? (v : Json) (path : List String) : Option Json :=
  path.foldlM get? v

end Json

namespace Yaml
open Json

mutual

/-- The keys of every mapping as they are written, in source order, outer mappings first.
An alias stands for its target. -/
def Node.nameRows : Node → List (List String)
  | .scalar .. => []
  | .sequence _ _ items => itemNameRows items
  | .mapping _ _ members => members.map (fun m => m.1.value) :: memberNameRows members
  | .reference _ _ target => target.nameRows

def itemNameRows : List Node → List (List String)
  | [] => []
  | n :: rest => n.nameRows ++ itemNameRows rest

def memberNameRows : List (Node × Node) → List (List String)
  | [] => []
  | (_, v) :: rest => v.nameRows ++ memberNameRows rest

end

/-- A member of a mapping is written as a member of an object. -/
def WritesTo (e : Node × Node) (m : String × Json) : Prop :=
  m.1 = e.1.value ∧ e.2.toJson? = some m.2

theorem nodesToJson?_eq_some {items : List Node} {js : List Json} :
    nodesToJson? items = some js ↔ List.Forall₂ (fun n j => n.toJson? = some j) items js := by
  induction items generalizing js with
  | nil => cases js <;> simp [nodesToJson?]
  | cons n rest ih =>
      rw [nodesToJson?]
      constructor
      · intro h
        split at h
        · rename_i j js' hj hjs
          obtain rfl := Option.some.inj h
          exact .cons hj (ih.mp hjs)
        · cases h
      · intro h
        cases h with
        | cons hj hjs => rw [hj, ih.mpr hjs]

theorem pairsToJson?_eq_some {members : List (Node × Node)} {ms : List (String × Json)} :
    pairsToJson? members = some ms ↔ List.Forall₂ WritesTo members ms := by
  induction members generalizing ms with
  | nil => cases ms <;> simp [pairsToJson?]
  | cons e rest ih =>
      obtain ⟨k, v⟩ := e
      rw [pairsToJson?]
      constructor
      · intro h
        split at h
        · rename_i j js' hj hjs
          obtain rfl := Option.some.inj h
          exact .cons ⟨rfl, hj⟩ (ih.mp hjs)
        · cases h
      · intro h
        cases h with
        | @cons _ m _ _ hm hms =>
            obtain ⟨name, j⟩ := m
            obtain ⟨rfl, hj⟩ := hm
            rw [hj, ih.mpr hms]

theorem itemsToJson?_eq_some {items : List Value} {js : List Json}
    (h : itemsToJson? items = some js) : List.Forall₂ (fun v j => v.toJson? = some j) items js := by
  induction items generalizing js with
  | nil => cases h; exact .nil
  | cons v rest ih =>
      rw [itemsToJson?] at h
      split at h
      · rename_i j js' hj hjs
        obtain rfl := Option.some.inj h
        exact .cons hj (ih hjs)
      · cases h

theorem membersToJson?_eq_some {members : List (String × Value)} {ms : List (String × Json)}
    (h : membersToJson? members = some ms) :
    List.Forall₂ (fun p m => p.1 = m.1 ∧ p.2.toJson? = some m.2) members ms := by
  induction members generalizing ms with
  | nil => cases h; exact .nil
  | cons p rest ih =>
      obtain ⟨k, v⟩ := p
      rw [membersToJson?] at h
      split at h
      · rename_i j js' hj hjs
        obtain rfl := Option.some.inj h
        exact .cons ⟨rfl, hj⟩ (ih hjs)
      · cases h

theorem decodeItems_eq_ok {items : List Node} {values : List Value}
    (h : decodeItems items = .ok values) :
    List.Forall₂ (fun n v => n.decode = .ok v) items values := by
  induction items generalizing values with
  | nil =>
      obtain rfl := Except.ok.inj h
      exact .nil
  | cons n rest ih =>
      simp only [decodeItems] at h
      obtain ⟨v, hv, h⟩ := exists_of_bind_eq_ok h
      obtain ⟨vs, hvs, h⟩ := exists_of_bind_eq_ok h
      obtain rfl := Except.ok.inj h
      exact .cons hv (ih hvs)

theorem sorted_of_isScalar {j : Json} (h : j.IsScalar) : j.sorted = j := by
  cases j with
  | array items => exact h.elim
  | object members => exact h.elim
  | _ => rfl

theorem nameRows_of_isScalar {j : Json} (h : j.IsScalar) : j.nameRows = [] := by
  cases j with
  | array items => exact h.elim
  | object members => exact h.elim
  | _ => rfl

theorem distinctNames_of_isScalar {j : Json} (h : j.IsScalar) : j.DistinctNames := by
  cases j with
  | array items => exact h.elim
  | object members => exact h.elim
  | null => exact .null
  | bool b => exact .bool
  | number text => exact .number
  | string text => exact .string

theorem Scalar.toJson?_eq_some {s : Scalar} {j : Json} (h : s.toJson? = some j) :
    j.IsScalar ∧ j.Writable := by
  cases s with
  | null => cases h; exact ⟨trivial, .null⟩
  | bool b => cases h; exact ⟨trivial, .bool⟩
  | int n => cases h; exact ⟨trivial, .number (Number.isNumber_int n)⟩
  | float x => cases h; exact ⟨trivial, .number x.isNumber_text⟩
  | infinity negative => cases h
  | notANumber => cases h
  | time t =>
      obtain ⟨text, -, rfl⟩ := Option.map_eq_some_iff.mp h
      exact ⟨trivial, .string⟩
  | text value => cases h; exact ⟨trivial, .string⟩

theorem Node.writable_toJson? (n : Node) : ∀ j, n.toJson? = some j → j.Writable := by
  induction n using Node.induct with
  | scalar line tag style text =>
      intro j h
      simp only [Node.toJson?] at h
      obtain ⟨s, -, hs⟩ := Option.bind_eq_some_iff.mp h
      exact (Scalar.toJson?_eq_some hs).2
  | sequence line tag items ih =>
      intro j h
      simp only [Node.toJson?] at h
      obtain ⟨js, hjs, rfl⟩ := Option.map_eq_some_iff.mp h
      refine .array fun j hj => ?_
      obtain ⟨n, hn, hwrite⟩ := exists_of_mem_right (nodesToJson?_eq_some.mp hjs) hj
      exact ih n hn j hwrite
  | mapping line tag members ih =>
      intro j h
      simp only [Node.toJson?] at h
      obtain ⟨ms, hms, rfl⟩ := Option.map_eq_some_iff.mp h
      refine .object fun m hm => ?_
      obtain ⟨e, he, hwrite⟩ := exists_of_mem_right (pairsToJson?_eq_some.mp hms) hm
      exact ih e he m.2 hwrite.2
  | reference line name target ih =>
      intro j h
      exact ih j h

/-- The members of a written mapping keep their order, and so do all below. -/
theorem Node.nameRows_toJson? (n : Node) : ∀ j, n.toJson? = some j → j.nameRows = n.nameRows := by
  induction n using Node.induct with
  | scalar line tag style text =>
      intro j h
      simp only [Node.toJson?] at h
      obtain ⟨s, -, hs⟩ := Option.bind_eq_some_iff.mp h
      exact nameRows_of_isScalar (Scalar.toJson?_eq_some hs).1
  | sequence line tag items ih =>
      intro j h
      simp only [Node.toJson?] at h
      obtain ⟨js, hjs, rfl⟩ := Option.map_eq_some_iff.mp h
      rw [Json.nameRows, Node.nameRows]
      have hall := nodesToJson?_eq_some.mp hjs
      clear h hjs
      induction hall with
      | nil => rfl
      | cons hn _ ihrest =>
          rw [List.forall_mem_cons] at ih
          rw [Json.itemNameRows, Yaml.itemNameRows, ih.1 _ hn, ihrest ih.2]
  | mapping line tag members ih =>
      intro j h
      simp only [Node.toJson?] at h
      obtain ⟨ms, hms, rfl⟩ := Option.map_eq_some_iff.mp h
      rw [Json.nameRows, Node.nameRows]
      have hall := pairsToJson?_eq_some.mp hms
      clear h hms
      induction hall with
      | nil => rfl
      | @cons e m _ _ hm _ ihrest =>
          obtain ⟨k, v⟩ := e
          obtain ⟨name, j⟩ := m
          obtain ⟨rfl, hv⟩ := hm
          rw [List.forall_mem_cons] at ih
          obtain ⟨hnames, hrows⟩ := List.cons.inj (ihrest ih.2)
          rw [List.map_cons, List.map_cons, hnames, Json.memberNameRows, Yaml.memberNameRows,
            ih.1 j hv, hrows]
  | reference line name target ih =>
      intro j h
      exact ih j h

/-! ## Agreement -/

/-- A mapping whose value has a JSON form has texts as keys. -/
theorem Node.decode_mapping_map {line : Nat} {tag : Tag} {members : List (Node × Node)}
    {v : Value} {w : Json} (h : (Node.mapping line tag members).decode = .ok v)
    (hw : v.toJson? = some w) :
    Node.keysDistinct members = true ∧ Node.keysAreTexts members = true ∧
      ∃ m m', addMembers false ⟨["<<"], []⟩ members = .ok m ∧ addMerges m members = .ok m' ∧
        v = .map m'.members := by
  simp only [Node.decode] at h
  obtain ⟨_, hkeys, h⟩ := exists_of_bind_eq_ok h
  split at h
  · rename_i ht
    obtain ⟨m, hadd, h⟩ := exists_of_bind_eq_ok h
    obtain ⟨m', hmerge, h⟩ := exists_of_bind_eq_ok h
    exact ⟨checkKeys_eq_ok hkeys, ht, m, m', hadd, hmerge, (Except.ok.inj h).symm⟩
  · obtain ⟨values, -, h⟩ := exists_of_bind_eq_ok h
    obtain ⟨m, -, h⟩ := exists_of_bind_eq_ok h
    obtain rfl := Except.ok.inj h
    cases hw

/-- A node is written as its value, its members unsorted. -/
def Agrees (n : Node) : Prop :=
  ∀ v w, n.decode = .ok v → v.toJson? = some w →
    ∃ j, n.toJson? = some j ∧ w = j.sorted ∧ j.DistinctNames

theorem agrees_items {items : List Node} {values : List Value} {ws : List Json}
    (hn : ∀ n ∈ items, Agrees n)
    (hv : List.Forall₂ (fun n v => n.decode = .ok v) items values)
    (hw : List.Forall₂ (fun v w => v.toJson? = some w) values ws) :
    ∃ js, List.Forall₂ (fun n j => n.toJson? = some j) items js ∧ ws = sortedItems js ∧
      ∀ j ∈ js, j.DistinctNames := by
  induction hv generalizing ws with
  | nil => cases hw; exact ⟨[], .nil, rfl, nofun⟩
  | @cons _ v _ _ hdecode _ ih =>
      cases hw with
      | @cons _ w _ _ hjson hrest =>
          rw [List.forall_mem_cons] at hn
          obtain ⟨j, hj, rfl, hd⟩ := hn.1 v w hdecode hjson
          obtain ⟨js, hjs, rfl, hds⟩ := ih hn.2 hrest
          exact ⟨j :: js, .cons hj hjs, rfl, List.forall_mem_cons.mpr ⟨hd, hds⟩⟩

theorem agrees_members {members : List (Node × Node)} {entries : List (String × Value)}
    {ws : List (String × Json)} (hn : ∀ e ∈ members, Agrees e.2)
    (hv : List.Forall₂ DecodesTo members entries)
    (hw : List.Forall₂ (fun p m => p.1 = m.1 ∧ p.2.toJson? = some m.2) entries ws) :
    ∃ js, List.Forall₂ WritesTo members js ∧ ws = sortedMembers js ∧
      js.map Prod.fst = members.map (fun e => e.1.value) ∧ ∀ m ∈ js, m.2.DistinctNames := by
  induction hv generalizing ws with
  | nil => cases hw; exact ⟨[], .nil, rfl, rfl, nofun⟩
  | @cons e p members entries hdecode _ ih =>
      cases hw with
      | @cons _ m _ ws hjson hrest =>
          obtain ⟨name, w⟩ := m
          rw [List.forall_mem_cons] at hn
          obtain ⟨j, hj, rfl, hd⟩ := hn.1 p.2 w hdecode.2 hjson.2
          obtain ⟨js, hjs, rfl, hnames, hds⟩ := ih hn.2 hrest
          have hname : name = e.1.value := hjson.1.symm.trans hdecode.1
          refine ⟨(name, j) :: js, .cons ⟨hname, hj⟩ hjs, rfl, ?_, ?_⟩
          · rw [List.map_cons, List.map_cons, hnames, hname]
          · exact List.forall_mem_cons.mpr ⟨hd, hds⟩

theorem Node.PlainKeys.agrees {n : Node} (h : n.PlainKeys) : Agrees n := by
  induction h with
  | @scalar line tag style text =>
      intro v w hv hw
      simp only [Node.decode, scalarValue] at hv
      obtain ⟨s, hs, rfl⟩ := exists_of_map_eq_ok hv
      split at hs
      · rename_i s' hs'
        obtain rfl := Except.ok.inj hs
        rw [Value.toJson?] at hw
        have hscalar := (Scalar.toJson?_eq_some hw).1
        refine ⟨w, ?_, (sorted_of_isScalar hscalar).symm, distinctNames_of_isScalar hscalar⟩
        rw [Node.toJson?, hs', Option.bind_some, hw]
      · cases hs
  | @sequence line tag items _ ih =>
      intro v w hv hw
      simp only [Node.decode] at hv
      obtain ⟨values, hvalues, rfl⟩ := exists_of_map_eq_ok hv
      rw [Value.toJson?] at hw
      obtain ⟨ws, hws, rfl⟩ := Option.map_eq_some_iff.mp hw
      obtain ⟨js, hjs, rfl, hd⟩ :=
        agrees_items ih (decodeItems_eq_ok hvalues) (itemsToJson?_eq_some hws)
      exact ⟨.array js, by rw [Node.toJson?, nodesToJson?_eq_some.mpr hjs]; rfl, rfl, .array hd⟩
  | @mapping line tag members hkeys _ ih =>
      intro v w hv hw
      obtain ⟨hdistinct, htexts, m, m', hadd, hmerge, rfl⟩ := Node.decode_mapping_map hv hw
      have hself := ownMembers_of_plain fun e he => (hkeys e he).1
      have hown := isOwnKey_of_addMembers (fun e he => (hkeys e he).2) htexts hadd
      have hnodup := nodup_of_keysDistinct hdistinct fun e he => (hown e he).2
      obtain ⟨entries, hentries, hmembers, -⟩ :=
        addMembers_entries (fun e he => (hown e he).1) hnodup (by simp) hadd
      rw [hself] at hentries hnodup
      rw [addMerges_of_plain m fun e he => (hkeys e he).1] at hmerge
      obtain rfl := Except.ok.inj hmerge
      rw [hmembers, List.nil_append, Value.toJson?] at hw
      obtain ⟨ws, hws, rfl⟩ := Option.map_eq_some_iff.mp hw
      obtain ⟨js, hjs, rfl, hnames, hd⟩ :=
        agrees_members ih hentries (membersToJson?_eq_some hws)
      refine ⟨.object js, by rw [Node.toJson?, pairsToJson?_eq_some.mpr hjs]; rfl, rfl, ?_⟩
      exact .object (hnames ▸ hnodup) hd
  | @reference line name target _ ih =>
      intro v w hv hw
      rw [Node.decode] at hv
      rw [Node.toJson?]
      exact ih v w hv hw

theorem lookup_eq_of_perm {α : Type} {xs ys : List (String × α)} (hp : xs.Perm ys)
    (hn : (xs.map Prod.fst).Nodup) (key : String) : xs.lookup key = ys.lookup key := by
  have hn' : (ys.map Prod.fst).Nodup := (hp.map Prod.fst).nodup_iff.mp hn
  cases hx : xs.lookup key with
  | some v => exact (lookup_of_mem hn' (hp.mem_iff.mp (mem_of_lookup hx))).symm
  | none =>
      cases hy : ys.lookup key with
      | none => rfl
      | some v => exact hx.symm.trans (lookup_of_mem hn (hp.mem_iff.mpr (mem_of_lookup hy)))

theorem lookup_membersToJson {entries : List (String × Value)} {ws : List (String × Json)}
    (h : List.Forall₂ (fun p m => p.1 = m.1 ∧ p.2.toJson? = some m.2) entries ws)
    {key : String} {v : Value} (hv : entries.lookup key = some v) :
    ∃ w, ws.lookup key = some w ∧ v.toJson? = some w := by
  induction h with
  | nil => cases hv
  | @cons p m entries ws hp _ ih =>
      rw [List.lookup_cons] at hv ⊢
      rw [← hp.1]
      cases hk : key == p.1 with
      | true =>
          rw [hk] at hv
          exact ⟨m.2, rfl, by rw [← Option.some.inj hv]; exact hp.2⟩
      | false =>
          rw [hk] at hv
          exact ih hv

theorem keys_of_decodesTo {members : List (Node × Node)} {entries : List (String × Value)}
    (h : List.Forall₂ DecodesTo members entries) :
    entries.map Prod.fst = members.map fun e => e.1.value := by
  induction h with
  | nil => rfl
  | cons hp _ ih => rw [List.map_cons, List.map_cons, ih, hp.1]

theorem keys_membersToJson {entries : List (String × Value)} {ws : List (String × Json)}
    (h : List.Forall₂ (fun p m => p.1 = m.1 ∧ p.2.toJson? = some m.2) entries ws) :
    entries.map Prod.fst = ws.map Prod.fst := by
  induction h with
  | nil => rfl
  | cons hp _ ih => rw [List.map_cons, List.map_cons, ih, hp.1]

theorem exists_of_mem_left {α β : Type} {r : α → β → Prop} {as : List α} {bs : List β}
    (h : List.Forall₂ r as bs) {a : α} (ha : a ∈ as) : ∃ b ∈ bs, r a b := by
  obtain ⟨b, hb, hab⟩ := exists_of_mem_right h.flip ha
  exact ⟨b, hb, hab⟩

/-- The value of a member that is no merge is found under its key. -/
theorem Node.get?_mapping {line : Nat} {tag : Tag} {members : List (Node × Node)} {v : Value}
    {w : Json} (h : (Node.mapping line tag members).decode = .ok v) (hw : v.toJson? = some w)
    (ha : ∀ e ∈ members, e.1.isAlias = false) {e : Node × Node} (he : e ∈ members)
    (hm : e.1.isMerge = false) :
    ∃ v' w', e.2.decode = .ok v' ∧ v'.toJson? = some w' ∧ w.get? e.1.value = some w' := by
  obtain ⟨hdistinct, htexts, m, m', hadd, hmerge, rfl⟩ := Node.decode_mapping_map h hw
  have hown := isOwnKey_of_addMembers ha htexts hadd
  have hnodup := nodup_of_keysDistinct hdistinct fun e he => (hown e he).2
  obtain ⟨entries, hentries, hmembers, hseen, -⟩ :=
    addMembers_entries (fun e he => (hown e he).1) hnodup (by simp) hadd
  have hkeeps := keeps_addMerges (fun e _ => keeps_mergeNode e.2) hmerge
  rw [List.nil_append] at hmembers
  obtain ⟨p, hp, hdecode⟩ := exists_of_mem_left hentries (mem_ownMembers.mpr ⟨he, hm⟩)
  have hlookup : m'.members.lookup e.1.value = some p.2 := by
    rw [hkeeps.lookup _ (hdecode.1 ▸ hseen p hp), hmembers, ← hdecode.1]
    exact lookup_of_mem (keys_of_decodesTo hentries ▸ hnodup) hp
  rw [Value.toJson?] at hw
  obtain ⟨ws, hws, rfl⟩ := Option.map_eq_some_iff.mp hw
  have hjson := membersToJson?_eq_some hws
  obtain ⟨w', hw', hvalue⟩ := lookup_membersToJson hjson hlookup
  refine ⟨p.2, w', hdecode.2, hvalue, ?_⟩
  have hnames : (ws.map Prod.fst).Nodup := by
    rw [← keys_membersToJson hjson]
    exact hkeeps.nodup (by rw [hmembers, keys_of_decodesTo hentries]; exact hnodup)
  have hperm := List.mergeSort_perm ws fun a b => decide (a.1 ≤ b.1)
  rw [get?_object ((hperm.map Prod.fst).nodup_iff.mpr hnames), ← hw']
  exact lookup_eq_of_perm hperm ((hperm.map Prod.fst).nodup_iff.mpr hnames) _

/-- Following a path in a node and in its value ends at a node and at its value. -/
theorem Node.follow?_of_find? {path : List String} {n found : Node} {v : Value} {w : Json}
    (hk : n.PlainAlong path) (hf : n.find? path = some found) (hv : n.decode = .ok v)
    (hw : v.toJson? = some w) :
    ∃ v' w', found.PlainKeys ∧ found.decode = .ok v' ∧ v'.toJson? = some w' ∧
      w.follow? path = some w' := by
  induction path generalizing n v w with
  | nil =>
      rw [Node.find?] at hf
      obtain rfl := Option.some.inj hf
      exact ⟨v, w, hk, hv, hw, rfl⟩
  | cons key path ih =>
      cases n with
      | mapping line tag members =>
          rw [Node.find?] at hf
          cases hfind : members.find? (fun m => m.1.value == key) with
          | none =>
              rw [hfind] at hf
              cases hf
          | some e =>
              rw [hfind] at hf
              obtain ⟨halias, hrest⟩ := hk
              obtain ⟨hmerge, hplain⟩ := hrest e hfind
              have hkey : e.1.value = key := by simpa using List.find?_some hfind
              obtain ⟨v', w', hv', hw', hget⟩ := Node.get?_mapping hv hw halias
                (List.mem_of_find?_eq_some hfind) hmerge
              obtain ⟨v'', w'', hend, hv'', hw'', hfollow⟩ := ih hplain hf hv' hw'
              refine ⟨v'', w'', hend, hv'', hw'', ?_⟩
              rw [follow?, List.foldlM_cons, ← hkey, hget]
              exact hfollow
      | _ => simp [Node.find?] at hf

end Yaml

namespace Payload
open Json

theorem parse_eq_ok {text : String} {p : Payload} (h : parse text = .ok p)
    {root : Yaml.Node} (hroot : p.root = some root) :
    ∃ v, root.decode = .ok v ∧ v.toJson? = some p.json := by
  unfold parse at h
  split at h
  · cases h
  · obtain rfl := Except.ok.inj h
    cases hroot
  · rename_i node hnode
    unfold ofRoot at h
    split at h
    · cases h
    · rename_i value hvalue
      split at h
      · rename_i json hjson
        obtain rfl := Except.ok.inj h
        obtain rfl := Option.some.inj hroot
        unfold Yaml.Node.documentValue at hvalue
        split at hvalue
        · exact ⟨value, hvalue, hjson⟩
        · cases hvalue
      · cases h

/-- The JSON form of a node that a path leads to exists and is JSON. Followed in the
value of the whole document the path leads to the same value, with members sorted; and
the members of the section keep the order of the source. -/
theorem sectionJson_agrees {text : String} {p : Payload} (hp : parse text = .ok p)
    (path : List String) {n : Yaml.Node} (hf : p.find? path = some n)
    (hk : ∀ root, p.root = some root → root.PlainAlong path) :
    ∃ j, p.sectionJson path = .ok (some j) ∧ (∃ depth, IsValue depth j.render.toList) ∧
      j.DistinctNames ∧ p.json.follow? path = some j.sorted ∧ j.nameRows = n.nameRows := by
  obtain ⟨root, hroot, hfind⟩ := Option.bind_eq_some_iff.mp hf
  obtain ⟨v, hv, hw⟩ := parse_eq_ok hp hroot
  obtain ⟨v', w', hplain, hv', hw', hfollow⟩ :=
    Yaml.Node.follow?_of_find? (hk root hroot) hfind hv hw
  obtain ⟨j, hj, rfl, hd⟩ := hplain.agrees v' w' hv' hw'
  obtain ⟨depth, hdepth⟩ := (n.writable_toJson? j hj).isValue
  refine ⟨j, ?_, ⟨depth, hdepth depth (Nat.le_refl depth)⟩, hd, hfollow, n.nameRows_toJson? j hj⟩
  rw [sectionJson, hf]
  simp only [hj]

/-- A section whose members are not sorted. -/
def unsortedText : String := "z: \x7bb: 1, a: 2\x7d"

def unsortedNode : Yaml.Node :=
  .mapping 1 .map [(.scalar 1 .str .plain "b", .scalar 1 .int .plain "1"),
    (.scalar 1 .str .plain "a", .scalar 1 .int .plain "2")]

def unsortedRoot : Yaml.Node :=
  .mapping 1 .map [(.scalar 1 .str .plain "z", unsortedNode)]

theorem parse_unsortedText : parse unsortedText = .ok ⟨some unsortedRoot,
    .object [("z", .object [("a", .number "2"), ("b", .number "1")])]⟩ := by
  have hscan : Yaml.scan unsortedText = ⟨[⟨.blockMappingStart, 0⟩, ⟨.key, 0⟩,
      ⟨.scalar .plain "z", 0⟩, ⟨.value, 0⟩, ⟨.flowMappingStart, 0⟩, ⟨.key, 0⟩,
      ⟨.scalar .plain "b", 0⟩, ⟨.value, 0⟩, ⟨.scalar .plain "1", 0⟩, ⟨.flowEntry, 0⟩, ⟨.key, 0⟩,
      ⟨.scalar .plain "a", 0⟩, ⟨.value, 0⟩, ⟨.scalar .plain "2", 0⟩, ⟨.flowMappingEnd, 0⟩,
      ⟨.blockEnd, 1⟩, ⟨.streamEnd, 1⟩], none⟩ := by
    cbv
  have hroot : Yaml.parse unsortedText = .ok (.root unsortedRoot) := by
    rw [Yaml.parse, hscan]
    rfl
  have hvalue : unsortedRoot.documentValue =
      .ok (.map [("z", .map [("b", .scalar (.int 1)), ("a", .scalar (.int 2))])]) := rfl
  have hjson : Yaml.Value.toJson?
      (.map [("z", .map [("b", .scalar (.int 1)), ("a", .scalar (.int 2))])]) =
      some (.object [("z", .object [("a", .number "2"), ("b", .number "1")])]) := by
    cbv
  rw [parse, hroot]
  simp only [ofRoot, hvalue, hjson]

theorem sectionJson_agrees_unsorted : ∃ p j, parse unsortedText = .ok p ∧
    p.find? ["z"] = some unsortedNode ∧ p.sectionJson ["z"] = .ok (some j) ∧
    (∃ depth, IsValue depth j.render.toList) ∧ j.DistinctNames ∧
    p.json.follow? ["z"] = some j.sorted ∧ j.nameRows = unsortedNode.nameRows := by
  have hfind : unsortedRoot.find? ["z"] = some unsortedNode := by
    simp [Yaml.Node.find?, unsortedRoot, Yaml.Node.value]
  have hplain : unsortedRoot.PlainAlong ["z"] := by
    refine ⟨by decide, ?_⟩
    intro m hm
    obtain rfl := Option.some.inj hm
    refine ⟨rfl, .mapping (by decide) ?_⟩
    intro m hm
    simp only [List.mem_cons, List.not_mem_nil, or_false] at hm
    rcases hm with rfl | rfl
    · exact .scalar
    · exact .scalar
  obtain ⟨j, hj⟩ := sectionJson_agrees parse_unsortedText ["z"] hfind fun root hroot => by
    obtain rfl := Option.some.inj hroot
    exact hplain
  exact ⟨_, j, parse_unsortedText, hfind, hj⟩

def mergingText : String := "c: \x7b<<: \x7bb: 1\x7d\x7d"

def mergingNode : Yaml.Node :=
  .mapping 1 .map [(.scalar 1 .merge .plain "<<", .mapping 1 .map
    [(.scalar 1 .str .plain "b", .scalar 1 .int .plain "1")])]

def mergingRoot : Yaml.Node :=
  .mapping 1 .map [(.scalar 1 .str .plain "c", mergingNode)]

theorem parse_mergingText : parse mergingText = .ok ⟨some mergingRoot,
    .object [("c", .object [("b", .number "1")])]⟩ := by
  have hscan : Yaml.scan mergingText = ⟨[⟨.blockMappingStart, 0⟩, ⟨.key, 0⟩,
      ⟨.scalar .plain "c", 0⟩, ⟨.value, 0⟩, ⟨.flowMappingStart, 0⟩, ⟨.key, 0⟩,
      ⟨.scalar .plain "<<", 0⟩, ⟨.value, 0⟩, ⟨.flowMappingStart, 0⟩, ⟨.key, 0⟩,
      ⟨.scalar .plain "b", 0⟩, ⟨.value, 0⟩, ⟨.scalar .plain "1", 0⟩, ⟨.flowMappingEnd, 0⟩,
      ⟨.flowMappingEnd, 0⟩, ⟨.blockEnd, 1⟩, ⟨.streamEnd, 1⟩], none⟩ := by
    cbv
  have hroot : Yaml.parse mergingText = .ok (.root mergingRoot) := by
    rw [Yaml.parse, hscan]
    rfl
  have hvalue : mergingRoot.documentValue = .ok (.map [("c", .map [("b", .scalar (.int 1))])]) :=
    rfl
  have hjson : Yaml.Value.toJson? (.map [("c", .map [("b", .scalar (.int 1))])]) =
      some (.object [("c", .object [("b", .number "1")])]) := by
    cbv
  rw [parse, hroot]
  simp only [ofRoot, hvalue, hjson]

/-- The section writes the merge key, which the value of the document does not have. -/
theorem sectionJson_writes_merge : ∃ p, parse mergingText = .ok p ∧
    p.sectionJson ["c"] = .ok (some (.object [("<<", .object [("b", .number "1")])])) ∧
    p.json.follow? ["c"] = some (.object [("b", .number "1")]) := by
  have hfind : mergingRoot.find? ["c"] = some mergingNode := by
    simp [Yaml.Node.find?, mergingRoot, Yaml.Node.value]
  refine ⟨_, parse_mergingText, ?_, rfl⟩
  rw [sectionJson, find?, Option.bind_some, hfind]
  rfl

end Payload
end Stepwise
