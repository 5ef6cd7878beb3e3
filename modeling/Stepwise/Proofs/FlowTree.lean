import Stepwise.Proofs.FlowTokens
import Stepwise.Yaml.Document

/-!
# The tree of a rendered value

From the tokens of a value the reader builds the tree of the value: every node starts
on the first line, and the tag of a scalar follows from its writing. Where a name is
too long to have a key mark, the colon after it stands where a comma is expected, and
there is no tree.
-/
namespace Stepwise

namespace Yaml

/-! ## Steps of the reader -/

def onFirstLine (kinds : List TokenKind) : List Token :=
  kinds.map (Token.mk · 0)

section
variable {block indentless : Bool} {start fuel : Nat} {rest : List Token} {r : Reading}

theorem readNode_sequence :
    readNode block indentless (fuel + 1)
        { r with tokens := ⟨.flowSequenceStart, 0⟩ :: rest } =
      (readFlowItems true 0 fuel { r with tokens := rest }).map fun p =>
        (.sequence 1 .seq p.1, p.2) := by
  rfl

theorem readNode_mapping :
    readNode block indentless (fuel + 1)
        { r with tokens := ⟨.flowMappingStart, 0⟩ :: rest } =
      (readFlowMembers true 0 fuel { r with tokens := rest }).map fun p =>
        (.mapping 1 .map p.1, p.2) := by
  rfl

def StartsValue : TokenKind → Prop
  | .scalar _ _ => True
  | .flowSequenceStart => True
  | .flowMappingStart => True
  | _ => False

def comma (first : Bool) : List TokenKind :=
  if first then [] else [.flowEntry]

theorem readFlowItems_item (first : Bool) {kind : TokenKind} (h : StartsValue kind) :
    readFlowItems first start (fuel + 1)
        { r with tokens := onFirstLine (comma first) ++ ⟨kind, 0⟩ :: rest } =
      (readNode false false fuel { r with tokens := ⟨kind, 0⟩ :: rest }).bind fun p =>
        (readFlowItems false start fuel p.2).map fun q => (p.1 :: q.1, q.2) := by
  cases kind with
  | scalar style text => cases first <;> rfl
  | flowSequenceStart => cases first <;> rfl
  | flowMappingStart => cases first <;> rfl
  | _ => cases h

theorem readFlowMembers_member (first : Bool) :
    readFlowMembers first start (fuel + 1)
        { r with tokens := onFirstLine (comma first) ++ ⟨.key, 0⟩ :: rest } =
      (readFlowKeyed fuel { r with tokens := rest }).bind fun p =>
        (readFlowMembers false start fuel p.2.2).map fun q =>
          ((p.1, p.2.1) :: q.1, q.2) := by
  cases first <;> rfl

theorem readFlowKeyed_quoted (name : String) {kind : TokenKind} (h : StartsValue kind) :
    readFlowKeyed (fuel + 2)
        { r with tokens := ⟨.scalar .doubleQuoted name, 0⟩ :: ⟨.value, 0⟩ :: ⟨kind, 0⟩ :: rest } =
      (readNode false false (fuel + 1) { r with tokens := ⟨kind, 0⟩ :: rest }).map
        fun p => (.scalar 1 .str .doubleQuoted name, p.1, p.2) := by
  cases kind with
  | scalar style text => rfl
  | flowSequenceStart => rfl
  | flowMappingStart => rfl
  | _ => cases h

/-- Without a key mark the colon after a name is refused. -/
theorem readFlowMembers_unmarked (first : Bool) (name : String) :
    (readFlowMembers first start (fuel + 2)
        { r with tokens := onFirstLine (comma first) ++
          ⟨.scalar .doubleQuoted name, 0⟩ :: ⟨.value, 0⟩ :: rest }).toOption = none := by
  cases first <;> rfl

end

end Yaml

namespace Json

open Yaml (Node Scalar Token TokenKind maxKeyLength onFirstLine comma StartsValue)

mutual

/-- The tree of a value that is written on one line. -/
def tree : Json → Node
  | null => .scalar 1 .null .plain "null"
  | bool b => .scalar 1 .bool .plain (if b then "true" else "false")
  | number text => .scalar 1 (Scalar.plainTag text) .plain text
  | string text => .scalar 1 .str .doubleQuoted text
  | array items => .sequence 1 .seq (itemTrees items)
  | object members => .mapping 1 .map (memberTrees members)

def itemTrees : List Json → List Node
  | [] => []
  | v :: rest => v.tree :: itemTrees rest

/-- The trees of members; a name is a quoted scalar. -/
def memberTrees : List (String × Json) → List (Node × Node)
  | [] => []
  | (k, v) :: rest => (.scalar 1 .str .doubleQuoted k, v.tree) :: memberTrees rest

end

mutual

/-- Whether every name of a value is short enough to be read as a key. -/
def hasShortNames : Json → Bool
  | array items => itemsHaveShortNames items
  | object members => membersHaveShortNames members
  | _ => true

def itemsHaveShortNames : List Json → Bool
  | [] => true
  | v :: rest => v.hasShortNames && itemsHaveShortNames rest

/-- Whether all names of members and in their values are short enough. -/
def membersHaveShortNames : List (String × Json) → Bool
  | [] => true
  | (k, v) :: rest =>
    decide ((quote k).toList.length ≤ maxKeyLength) && v.hasShortNames && membersHaveShortNames rest

end

/-! ## Trees -/

theorem toOption_bind {ε α β : Type} (x : Except ε α) (f : α → Except ε β) :
    (x.bind f).toOption = x.toOption.bind fun a => (f a).toOption := by
  cases x <;> rfl

theorem toOption_map {ε α β : Type} (x : Except ε α) (f : α → β) :
    (x.map f).toOption = x.toOption.map f := by
  cases x <;> rfl

/-- From the tokens of a value the reader gets the tree of the value, if the names in
it are short. -/
def Parses (v : Json) : Prop :=
  ∀ (block indentless : Bool) (fuel : Nat) (rest : List Token) (r : Yaml.Reading),
    v.tokens.length ≤ fuel →
    (Yaml.readNode block indentless fuel
        { r with tokens := onFirstLine v.tokens ++ rest }).toOption =
      if v.hasShortNames then some (v.tree, { r with tokens := rest }) else none

theorem exists_startsValue (v : Json) :
    ∃ kind more, v.tokens = kind :: more ∧ StartsValue kind := by
  cases v with
  | bool b => cases b <;> exact ⟨_, _, rfl, trivial⟩
  | _ => exact ⟨_, _, rfl, trivial⟩

/-- The tokens of items that follow others, or that are the first. -/
def pendingItems (first : Bool) : List Json → List TokenKind
  | [] => []
  | v :: rest => comma first ++ v.tokens ++ pendingItems false rest

/-- The tokens of members that follow others, or that are the first. -/
def pendingMembers (first : Bool) : List (String × Json) → List TokenKind
  | [] => []
  | (k, v) :: rest => comma first ++ (nameTokens k ++ v.tokens) ++ pendingMembers false rest

theorem itemTokens_eq (items : List Json) : itemTokens items = pendingItems true items := by
  induction items with
  | nil => rfl
  | cons v items ih =>
      cases items with
      | nil => simp [itemTokens, pendingItems, comma]
      | cons w items =>
          rw [itemTokens, ih]
          simp [pendingItems, comma]

theorem memberTokens_eq (members : List (String × Json)) :
    memberTokens members = pendingMembers true members := by
  induction members with
  | nil => rfl
  | cons m members ih =>
      obtain ⟨name, v⟩ := m
      cases members with
      | nil => simp [memberTokens, pendingMembers, comma]
      | cons n members =>
          rw [memberTokens, ih]
          simp [pendingMembers, comma]

section
variable {start : Nat} {rest : List Token} {r : Yaml.Reading}

theorem readFlowItems_pending {items : List Json} (hp : ∀ v ∈ items, Parses v) (first : Bool)
    (fuel : Nat) (hf : (pendingItems first items).length + 1 ≤ fuel) :
    (Yaml.readFlowItems first start fuel
        { r with
          tokens := onFirstLine (pendingItems first items) ++
            ⟨.flowSequenceEnd, 0⟩ :: rest }).toOption =
      if itemsHaveShortNames items then some (itemTrees items, { r with tokens := rest })
      else none := by
  induction items generalizing first fuel with
  | nil =>
      obtain ⟨fuel, rfl⟩ := Nat.exists_eq_add_of_le' hf
      rfl
  | cons v items ih =>
      rw [List.forall_mem_cons] at hp
      obtain ⟨kind, more, htokens, hkind⟩ := exists_startsValue v
      have hlength : (pendingItems first (v :: items)).length =
          (comma first).length + v.tokens.length + (pendingItems false items).length := by
        simp [pendingItems, Nat.add_assoc]
      have hpos : 0 < v.tokens.length := by simp [htokens]
      obtain ⟨fuel, rfl⟩ : ∃ n, fuel = n + 1 := ⟨fuel - 1, by omega⟩
      have hread := hp.1 false false fuel
        (onFirstLine (pendingItems false items) ++ ⟨.flowSequenceEnd, 0⟩ :: rest) r
        (by omega)
      have hrest := ih hp.2 false fuel (by omega)
      have hsplit : onFirstLine (pendingItems first (v :: items)) ++
          ⟨.flowSequenceEnd, 0⟩ :: rest = onFirstLine (comma first) ++ ⟨kind, 0⟩ ::
            (onFirstLine more ++ (onFirstLine (pendingItems false items) ++
              ⟨.flowSequenceEnd, 0⟩ :: rest)) := by
        simp [pendingItems, htokens, onFirstLine]
      have hnode : onFirstLine v.tokens ++ (onFirstLine (pendingItems false items) ++
          ⟨.flowSequenceEnd, 0⟩ :: rest) = ⟨kind, 0⟩ :: (onFirstLine more ++
            (onFirstLine (pendingItems false items) ++ ⟨.flowSequenceEnd, 0⟩ :: rest)) := by
        simp [htokens, onFirstLine]
      rw [hnode] at hread
      rw [hsplit, Yaml.readFlowItems_item first hkind, toOption_bind, hread, itemsHaveShortNames]
      cases v.hasShortNames with
      | false => rfl
      | true =>
          simp only [if_true, Option.bind_some, toOption_map, hrest, Bool.true_and]
          cases itemsHaveShortNames items <;> rfl

theorem readFlowMembers_pending {members : List (String × Json)}
    (hp : ∀ m ∈ members, Parses m.2) (first : Bool) (fuel : Nat)
    (hf : (pendingMembers first members).length + 1 ≤ fuel) :
    (Yaml.readFlowMembers first start fuel
        { r with
          tokens := onFirstLine (pendingMembers first members) ++
            ⟨.flowMappingEnd, 0⟩ :: rest }).toOption =
      if membersHaveShortNames members then
        some (memberTrees members, { r with tokens := rest })
      else none := by
  induction members generalizing first fuel with
  | nil =>
      obtain ⟨fuel, rfl⟩ := Nat.exists_eq_add_of_le' hf
      rfl
  | cons m members ih =>
      obtain ⟨name, v⟩ := m
      rw [List.forall_mem_cons] at hp
      have hv : Parses v := hp.1
      obtain ⟨kind, more, htokens, hkind⟩ := exists_startsValue v
      have hlength : (pendingMembers first ((name, v) :: members)).length =
          (comma first).length + (nameTokens name).length + v.tokens.length +
            (pendingMembers false members).length := by
        simp [pendingMembers, Nat.add_assoc]
      have hpos : 0 < v.tokens.length := by simp [htokens]
      rw [membersHaveShortNames]
      -- a long name has no key mark and is read as a key without a value, which fails
      by_cases hshort : (quote name).toList.length ≤ maxKeyLength
      · have hname : nameTokens name = [.key, .scalar .doubleQuoted name, .value] := by
          simp [nameTokens, hshort]
        rw [hname] at hlength
        simp only [List.length_cons, List.length_nil] at hlength
        obtain ⟨fuel, rfl⟩ : ∃ n, fuel = n + 3 := ⟨fuel - 3, by omega⟩
        have hread := hv false false (fuel + 1)
          (onFirstLine (pendingMembers false members) ++ ⟨.flowMappingEnd, 0⟩ :: rest) r
          (by omega)
        have hrest := ih hp.2 false (fuel + 2) (by omega)
        have hsplit : onFirstLine (pendingMembers first ((name, v) :: members)) ++
            ⟨.flowMappingEnd, 0⟩ :: rest = onFirstLine (comma first) ++ ⟨.key, 0⟩ ::
              ⟨.scalar .doubleQuoted name, 0⟩ :: ⟨.value, 0⟩ :: ⟨kind, 0⟩ :: (onFirstLine more ++
              (onFirstLine (pendingMembers false members) ++ ⟨.flowMappingEnd, 0⟩ :: rest)) := by
          simp [pendingMembers, hname, htokens, onFirstLine]
        have hnode : onFirstLine v.tokens ++ (onFirstLine (pendingMembers false members) ++
            ⟨.flowMappingEnd, 0⟩ :: rest) = ⟨kind, 0⟩ :: (onFirstLine more ++
              (onFirstLine (pendingMembers false members) ++ ⟨.flowMappingEnd, 0⟩ :: rest)) := by
          simp [htokens, onFirstLine]
        simp only [hnode] at hread
        rw [hsplit, Yaml.readFlowMembers_member, toOption_bind,
          Yaml.readFlowKeyed_quoted name hkind, toOption_map, hread, decide_eq_true hshort]
        cases v.hasShortNames with
        | false => rfl
        | true =>
            simp only [if_true, Option.map_some, Option.bind_some, toOption_map, hrest,
              Bool.true_and]
            cases membersHaveShortNames members <;> rfl
      · have hname : nameTokens name = [.scalar .doubleQuoted name, .value] := by
          simp [nameTokens, hshort]
        rw [hname] at hlength
        simp only [List.length_cons, List.length_nil] at hlength
        obtain ⟨fuel, rfl⟩ : ∃ n, fuel = n + 2 := ⟨fuel - 2, by omega⟩
        have hsplit : onFirstLine (pendingMembers first ((name, v) :: members)) ++
            ⟨.flowMappingEnd, 0⟩ :: rest = onFirstLine (comma first) ++
              ⟨.scalar .doubleQuoted name, 0⟩ :: ⟨.value, 0⟩ :: (onFirstLine v.tokens ++
              (onFirstLine (pendingMembers false members) ++ ⟨.flowMappingEnd, 0⟩ :: rest)) := by
          simp [pendingMembers, hname, onFirstLine]
        rw [hsplit, decide_eq_false hshort]
        rw [Yaml.readFlowMembers_unmarked first name]
        rfl

/-- The reader builds the tree of every value. -/
theorem parses (v : Json) : Parses v := by
  induction v using Json.induct with
  | null =>
      intro block indentless fuel rest r hf
      obtain ⟨fuel, rfl⟩ := Nat.exists_eq_add_of_le' hf
      rfl
  | bool b =>
      intro block indentless fuel rest r hf
      cases b with
      | false =>
          obtain ⟨fuel, rfl⟩ := Nat.exists_eq_add_of_le' hf
          rfl
      | true =>
          obtain ⟨fuel, rfl⟩ := Nat.exists_eq_add_of_le' hf
          rfl
  | number text =>
      intro block indentless fuel rest r hf
      obtain ⟨fuel, rfl⟩ := Nat.exists_eq_add_of_le' hf
      rfl
  | string text =>
      intro block indentless fuel rest r hf
      obtain ⟨fuel, rfl⟩ := Nat.exists_eq_add_of_le' hf
      rfl
  | array items ih =>
      intro block indentless fuel rest r hf
      rw [tokens, itemTokens_eq] at hf ⊢
      have hlength : (pendingItems true items).length + 2 ≤ fuel := by
        rw [List.length_cons, List.length_append, List.length_singleton] at hf
        omega
      obtain ⟨fuel, rfl⟩ : ∃ n, fuel = n + 1 := ⟨fuel - 1, by omega⟩
      have htokens : onFirstLine (.flowSequenceStart :: (pendingItems true items ++
          [.flowSequenceEnd])) ++ rest = ⟨.flowSequenceStart, 0⟩ ::
            (onFirstLine (pendingItems true items) ++ ⟨.flowSequenceEnd, 0⟩ :: rest) := by
        simp [onFirstLine]
      rw [htokens, Yaml.readNode_sequence, toOption_map,
        readFlowItems_pending ih true fuel (by omega),
        hasShortNames, tree]
      cases itemsHaveShortNames items <;> rfl
  | object members ih =>
      intro block indentless fuel rest r hf
      rw [tokens, memberTokens_eq] at hf ⊢
      have hlength : (pendingMembers true members).length + 2 ≤ fuel := by
        rw [List.length_cons, List.length_append, List.length_singleton] at hf
        omega
      obtain ⟨fuel, rfl⟩ : ∃ n, fuel = n + 1 := ⟨fuel - 1, by omega⟩
      have htokens : onFirstLine (.flowMappingStart :: (pendingMembers true members ++
          [.flowMappingEnd])) ++ rest = ⟨.flowMappingStart, 0⟩ ::
            (onFirstLine (pendingMembers true members) ++ ⟨.flowMappingEnd, 0⟩ :: rest) := by
        simp [onFirstLine]
      rw [htokens, Yaml.readNode_mapping, toOption_map,
        readFlowMembers_pending ih true fuel (by omega), hasShortNames, tree]
      cases membersHaveShortNames members <;> rfl

end

theorem itemTrees_eq (items : List Json) : itemTrees items = items.map tree := by
  induction items with
  | nil => rfl
  | cons v items ih => rw [itemTrees, ih, List.map_cons]

theorem memberTrees_eq (members : List (String × Json)) :
    memberTrees members = members.map fun m => (.scalar 1 .str .doubleQuoted m.1, m.2.tree) := by
  induction members with
  | nil => rfl
  | cons m members ih => rw [memberTrees, ih, List.map_cons]

theorem hasTree_tree (v : Json) : v.HasTree v.tree := by
  induction v using Json.induct with
  | null => exact .null
  | bool b => exact .bool
  | number text => exact .number
  | string text => exact .string
  | array items ih =>
      rw [tree, itemTrees_eq]
      refine .array ?_
      rw [List.forall₂_map_right_iff]
      exact List.forall₂_same.mpr ih
  | object members ih =>
      rw [tree, memberTrees_eq]
      refine .object ?_ ?_
      · rw [List.map_map, List.forall₂_map_left_iff, List.forall₂_map_right_iff]
        exact List.forall₂_same.mpr fun m _ => ⟨1, rfl⟩
      · rw [List.map_map, List.forall₂_map_left_iff, List.forall₂_map_right_iff]
        exact List.forall₂_same.mpr ih

/-! ## Documents -/

theorem readRoot_tokens (v : Json) (r : Yaml.Reading) :
    (Yaml.readRoot false { r with
        tokens := onFirstLine v.tokens ++ [⟨.streamEnd, 1⟩] }).toOption =
      if v.hasShortNames then some (.root v.tree) else none := by
  obtain ⟨kind, more, htokens, hkind⟩ := exists_startsValue v
  have hfuel : v.tokens.length ≤
      4 * (onFirstLine v.tokens ++ [Token.mk .streamEnd 1]).length + 8 := by
    rw [List.length_append, onFirstLine, List.length_map]
    omega
  have hread := v.parses true false _ [⟨.streamEnd, 1⟩] r hfuel
  have hcons : onFirstLine v.tokens ++ [Token.mk .streamEnd 1] =
      ⟨kind, 0⟩ :: (onFirstLine more ++ [⟨.streamEnd, 1⟩]) := by
    simp [htokens, onFirstLine]
  rw [Yaml.readRoot]
  rw [hcons] at hread ⊢
  simp only [Bool.false_and, Bool.false_eq_true, if_false]
  cases hn : Yaml.readNode true false _ _ with
  | ok p =>
      rw [hn] at hread
      cases hshort : v.hasShortNames with
      | true =>
          rw [hshort] at hread
          obtain rfl : p = _ := Option.some.inj hread
          rfl
      | false =>
          rw [hshort] at hread
          cases hread
  | error e =>
      rw [hn] at hread
      cases hshort : v.hasShortNames with
      | true =>
          rw [hshort] at hread
          cases hread
      | false => rfl

/-- The text of a collection is read as the document of its tree, unless it has a
character that no text may have or a name that is too long. -/
theorem Writable.parse_render {v : Json} (h : v.Writable) (hs : ¬v.IsScalar)
    (hline : v.OnOneLine) (hd : fitsDepth maxDepth v = true) :
    (Yaml.parse v.render).toOption =
      if v.render.toList.all Yaml.isAllowed && v.hasShortNames then some (.root v.tree)
      else none := by
  rw [Yaml.parse, h.scan_render hs hline hd]
  cases v.render.toList.all Yaml.isAllowed with
  | false => rfl
  | true =>
      have hroot := readRoot_tokens v
      cases v with
      | array items => exact hroot ⟨[], [], [] ++ Yaml.standardHandles, .plain .endOfText⟩
      | object members => exact hroot ⟨[], [], [] ++ Yaml.standardHandles, .plain .endOfText⟩
      | _ => exact absurd trivial hs

end Json

end Stepwise
