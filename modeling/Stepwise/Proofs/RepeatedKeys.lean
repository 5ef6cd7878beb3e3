import Stepwise.Payload.Basic

/-!
# Repeated keys have no value

A mapping that writes a key twice is an error wherever it stands: at the root, as
an item, as a member or behind an alias. Members of a merge are left out, since a
merged key that is already set is never looked at. The error is not bound to the
place where reading stops, so only its existence is stated.
-/
namespace Stepwise.Yaml

/-- A mapping with a repeated key stands at this node or below it, outside merges. -/
inductive Node.RepeatsKey : Node → Prop
  | here {line : Nat} {tag : Tag} {members : List (Node × Node)} :
      Node.keysDistinct members = false → RepeatsKey (.mapping line tag members)
  | member {line : Nat} {tag : Tag} {members : List (Node × Node)} {key value : Node} :
      (key, value) ∈ members → key.isMerge = false → RepeatsKey value →
      RepeatsKey (.mapping line tag members)
  | item {line : Nat} {tag : Tag} {items : List Node} {n : Node} :
      n ∈ items → RepeatsKey n → RepeatsKey (.sequence line tag items)
  | target {line : Nat} {name : String} {n : Node} :
      RepeatsKey n → RepeatsKey (.reference line name n)

/-- A bind succeeds only when both of its parts do. -/
theorem exists_of_bind_eq_ok {ε α β : Type} {x : Except ε α} {f : α → Except ε β} {b : β}
    (h : x >>= f = .ok b) : ∃ a, x = .ok a ∧ f a = .ok b := by
  cases x with
  | error e => cases h
  | ok a => exact ⟨a, rfl, h⟩

theorem exists_of_map_eq_ok {ε α β : Type} {x : Except ε α} {f : α → β} {b : β}
    (h : x.map f = .ok b) : ∃ a, x = .ok a ∧ f a = b := by
  cases x with
  | error e => cases h
  | ok a => exact ⟨a, rfl, Except.ok.inj h⟩

theorem checkKeys_eq_ok {members : List (Node × Node)} {u : Unit}
    (h : checkKeys members = .ok u) : Node.keysDistinct members = true := by
  unfold checkKeys at h
  split at h
  · assumption
  · cases h

theorem decodeItems_ok_of_mem {items : List Node} {values : List Value}
    (h : decodeItems items = .ok values) {n : Node} (hn : n ∈ items) :
    ∃ v, n.decode = .ok v := by
  induction items generalizing values with
  | nil => cases hn
  | cons m rest ih =>
      simp only [decodeItems] at h
      obtain ⟨v, hv, h⟩ := exists_of_bind_eq_ok h
      obtain ⟨vs, hvs, _⟩ := exists_of_bind_eq_ok h
      rcases List.mem_cons.mp hn with rfl | hn
      · exact ⟨v, hv⟩
      · exact ih hvs hn

theorem decodeMixed_ok_of_mem {members : List (Node × Node)} {values : List Value}
    (h : decodeMixed members = .ok values) {k v : Node} (hm : (k, v) ∈ members)
    (hk : k.isMerge = false) : ∃ w, v.decode = .ok w := by
  induction members generalizing values with
  | nil => cases hm
  | cons m rest ih =>
      obtain ⟨k', v'⟩ := m
      simp only [decodeMixed] at h
      rcases List.mem_cons.mp hm with he | hm
      · obtain ⟨rfl, rfl⟩ := Prod.mk.inj he
        rw [hk] at h
        obtain ⟨key, _, h⟩ := exists_of_bind_eq_ok h
        cases key with
        | scalar s =>
            obtain ⟨w, hw, _⟩ := exists_of_bind_eq_ok h
            exact ⟨w, hw⟩
        | list _ => cases h
        | map _ => cases h
        | mixed _ => cases h
      · split at h
        · exact ih h hm
        · obtain ⟨key, _, h⟩ := exists_of_bind_eq_ok h
          cases key with
          | scalar s =>
              obtain ⟨w, _, h⟩ := exists_of_bind_eq_ok h
              obtain ⟨ws, hws, _⟩ := exists_of_bind_eq_ok h
              exact ih hws hm
          | list _ => cases h
          | map _ => cases h
          | mixed _ => cases h

/-- A key whose tag says text, or marks a merge, never reads as a null. -/
theorem Node.text?_ne_null {k : Node} (h : (k.tag == .str || k.tag == .merge) = true) :
    k.text? ≠ some none := by
  induction k using Node.tag.induct with
  | case1 line t style text =>
      rw [Node.tag, Bool.or_eq_true, beq_iff_eq, beq_iff_eq] at h
      rcases h with rfl | rfl
      · have hs : scalarValue? .str text = some (.text text) := rfl
        simp [Node.text?, hs]
      · have hs : scalarValue? .merge text = if text == "<<" then some (.text text) else none := rfl
        rw [Node.text?, hs]
        split <;> simp_all
  | case2 line t items => simp [Node.text?]
  | case3 line t members => simp [Node.text?]
  | case4 line name target ih =>
      rw [Node.tag] at h
      rw [Node.text?]
      exact ih h

theorem Node.keyName_ne_null {k : Node} (h : (k.tag == .str || k.tag == .merge) = true) :
    k.keyName ≠ .ok none := by
  intro hk
  unfold Node.keyName at hk
  cases ht : k.text? with
  | some name =>
      rw [ht] at hk
      exact Node.text?_ne_null h (ht.trans (congrArg some (Except.ok.inj hk)))
  | none =>
      rw [ht] at hk
      dsimp only at hk
      split at hk <;> cases hk

/-- Where all keys are texts every member outside merges is decoded. -/
theorem addMembers_ok_of_mem {members : List (Node × Node)} {m m' : Merging}
    (ht : Node.keysAreTexts members = true) (h : addMembers false m members = .ok m')
    {k v : Node} (hm : (k, v) ∈ members) (hk : k.isMerge = false) : ∃ w, v.decode = .ok w := by
  induction members generalizing m with
  | nil => cases hm
  | cons e rest ih =>
      obtain ⟨k', v'⟩ := e
      simp only [Node.keysAreTexts, List.all_cons, Bool.and_eq_true] at ht
      have hrest : Node.keysAreTexts rest = true := ht.2
      simp only [addMembers, Bool.false_and, Bool.false_eq_true, if_false] at h
      rcases List.mem_cons.mp hm with he | hm
      · obtain ⟨rfl, rfl⟩ := Prod.mk.inj he
        rw [hk] at h
        obtain ⟨name, hname, h⟩ := exists_of_bind_eq_ok h
        cases name with
        | none => exact absurd hname (Node.keyName_ne_null ht.1)
        | some key =>
            obtain ⟨w, hw, _⟩ := exists_of_bind_eq_ok h
            exact ⟨w, hw⟩
      · split at h
        · exact ih hrest h hm
        · obtain ⟨name, hname, h⟩ := exists_of_bind_eq_ok h
          cases name with
          | none => exact absurd hname (Node.keyName_ne_null ht.1)
          | some key =>
              obtain ⟨w, _, h⟩ := exists_of_bind_eq_ok h
              exact ih hrest h hm

theorem Node.decode_mapping_ok {line : Nat} {tag : Tag} {members : List (Node × Node)} {u : Value}
    (h : (Node.mapping line tag members).decode = .ok u) :
    Node.keysDistinct members = true ∧
      ∀ k v, (k, v) ∈ members → k.isMerge = false → ∃ w, v.decode = .ok w := by
  simp only [Node.decode] at h
  obtain ⟨_, hkeys, h⟩ := exists_of_bind_eq_ok h
  refine ⟨checkKeys_eq_ok hkeys, ?_⟩
  intro k v hm hk
  split at h
  · rename_i ht
    obtain ⟨m, hadd, _⟩ := exists_of_bind_eq_ok h
    exact addMembers_ok_of_mem ht hadd hm hk
  · obtain ⟨values, hmixed, _⟩ := exists_of_bind_eq_ok h
    exact decodeMixed_ok_of_mem hmixed hm hk

/-- A value is never made out of a document that repeats a key. -/
theorem Node.RepeatsKey.decode_ne_ok {n : Node} (h : n.RepeatsKey) (v : Value) :
    n.decode ≠ .ok v := by
  induction h generalizing v with
  | here hd =>
      intro hv
      rw [(Node.decode_mapping_ok hv).1] at hd
      cases hd
  | member hm hk _ ih =>
      intro hv
      obtain ⟨w, hw⟩ := (Node.decode_mapping_ok hv).2 _ _ hm hk
      exact ih w hw
  | item hn _ ih =>
      intro hv
      simp only [Node.decode] at hv
      obtain ⟨vs, hvs, _⟩ := exists_of_map_eq_ok hv
      obtain ⟨w, hw⟩ := decodeItems_ok_of_mem hvs hn
      exact ih w hw
  | target _ ih =>
      intro hv
      rw [Node.decode] at hv
      exact ih v hv

end Stepwise.Yaml

namespace Stepwise.Payload

/-- A text whose document repeats a key is no payload. -/
theorem parse_of_repeatsKey {text : String} {root : Yaml.Node}
    (hp : Yaml.parse text = .ok (.root root)) (hr : root.RepeatsKey) :
    parse text = .error .yaml := by
  rw [parse, hp]
  dsimp only
  unfold ofRoot
  cases hd : root.documentValue with
  | error e => rfl
  | ok v =>
      unfold Yaml.Node.documentValue at hd
      split at hd
      · exact absurd hd (hr.decode_ne_ok v)
      · cases hd

end Stepwise.Payload
