import Mathlib.Data.List.Induction
import Mathlib.Data.List.Nodup

/-!
# Items with keys

The first and the last item with a key are what is found by the key from the one end of a list
and from the other. Where items are added one by one and an item that comes again renews the one
that is there, the keys stand in the order in which they come first; of the item with a key, what
renewing keeps is that of the first item, and what it replaces is that of the last.
-/
namespace Stepwise

namespace Keyed
universe u v w
variable {α : Type u} {κ : Type v}

def IsFirst (key : α → κ) (items : List α) (k : κ) (a : α) : Prop :=
  ∃ before after, items = before ++ a :: after ∧ key a = k ∧ ∀ b ∈ before, key b ≠ k

def IsLast (key : α → κ) (items : List α) (k : κ) (a : α) : Prop :=
  ∃ before after, items = before ++ a :: after ∧ key a = k ∧ ∀ b ∈ after, key b ≠ k

section
variable {key : α → κ} {items : List α} {k : κ} {a : α}

theorem isFirst_reverse : IsFirst key items.reverse k a ↔ IsLast key items k a := by
  constructor
  · intro h
    obtain ⟨before, after, hsplit, hk, hbefore⟩ := h
    refine ⟨after.reverse, before.reverse, ?_, hk, fun b hb => ?_⟩
    · rw [← List.reverse_reverse items, hsplit]
      simp
    · exact hbefore b (List.mem_reverse.mp hb)
  · intro h
    obtain ⟨before, after, rfl, hk, hafter⟩ := h
    refine ⟨after.reverse, before.reverse, by simp, hk, fun b hb => ?_⟩
    exact hafter b (List.mem_reverse.mp hb)

theorem not_isLast_nil : ¬IsLast key [] k a := by
  intro h
  obtain ⟨before, after, hnil, -⟩ := h
  simp at hnil

variable [DecidableEq κ]

theorem find?_eq_some_iff_isFirst :
    items.find? (key · == k) = some a ↔ IsFirst key items k a := by
  rw [List.find?_eq_some_iff_append, IsFirst]
  constructor
  · intro h
    obtain ⟨hk, before, after, hsplit, hbefore⟩ := h
    exact ⟨before, after, hsplit, eq_of_beq hk, fun b hb => by simpa using hbefore b hb⟩
  · intro h
    obtain ⟨before, after, hsplit, hk, hbefore⟩ := h
    exact ⟨beq_iff_eq.mpr hk, before, after, hsplit, fun b hb => by simpa using hbefore b hb⟩

theorem find?_reverse_eq_some_iff_isLast :
    items.reverse.find? (key · == k) = some a ↔ IsLast key items k a :=
  find?_eq_some_iff_isFirst.trans isFirst_reverse

/-- One item more is the last one with its key, and changes nothing for other keys. -/
theorem isLast_concat_iff {b : α} :
    IsLast key (items ++ [b]) k a ↔ if key b = k then a = b else IsLast key items k a := by
  rw [← find?_reverse_eq_some_iff_isLast, List.reverse_concat, List.find?_cons]
  by_cases hb : key b = k
  · simp [hb, eq_comm]
  · rw [if_neg hb, beq_false_of_ne hb, find?_reverse_eq_some_iff_isLast]

/-- Where no key comes twice, the item with a key is the one that is found by it. -/
theorem find?_eq_some_iff_of_nodup (h : (items.map key).Nodup) :
    items.find? (key · == k) = some a ↔ a ∈ items ∧ key a = k := by
  have hkey : ∀ {b : α}, items.find? (key · == k) = some b → key b = k := fun hb => by
    simpa using List.find?_some hb
  constructor
  · intro hfind
    exact ⟨List.mem_of_find?_eq_some hfind, hkey hfind⟩
  · intro ha
    obtain ⟨hmem, hk⟩ := ha
    have hsome : (items.find? (key · == k)).isSome = true :=
      List.find?_isSome.mpr ⟨a, hmem, beq_iff_eq.mpr hk⟩
    obtain ⟨b, hb⟩ := Option.isSome_iff_exists.mp hsome
    rw [hb]
    congr 1
    exact List.inj_on_of_nodup_map h (List.mem_of_find?_eq_some hb) hmem ((hkey hb).trans hk.symm)

theorem eraseDups_concat {keys : List κ} :
    (keys ++ [k]).eraseDups = if k ∈ keys then keys.eraseDups else keys.eraseDups ++ [k] := by
  rw [List.eraseDups_append]
  split
  · rename_i hk
    simp [List.removeAll, hk]
  · rename_i hk
    simp [List.removeAll, hk, List.eraseDups_cons]

theorem nodup_eraseDups {keys : List κ} : keys.eraseDups.Nodup := by
  induction keys using List.reverseRecOn with
  | nil => exact List.nodup_nil
  | append_singleton keys k ih =>
      rw [eraseDups_concat]
      split
      · exact ih
      · rename_i hk
        rw [← List.concat_eq_append]
        exact ih.concat fun hmem => hk (List.mem_eraseDups.mp hmem)

end

section
variable [DecidableEq κ] (key : α → κ) (renew : α → α → α)

/-- Adds an item; one with the same key is renewed where it stands. -/
def put (a : α) : List α → List α
  | [] => [a]
  | b :: rest => if key b == key a then renew b a :: rest else b :: put a rest

/-- What is left of a list of declarations. -/
def kept (items : List α) : List α :=
  items.foldl (fun all a => put key renew a all) []

variable {all : List α} {a : α}

theorem kept_concat (items : List α) :
    kept key renew (items ++ [a]) = put key renew a (kept key renew items) := by
  simp [kept]

variable (hkey : ∀ b a, key b = key a → key (renew b a) = key a)
include hkey

theorem keys_put :
    (put key renew a all).map key =
      if key a ∈ all.map key then all.map key else all.map key ++ [key a] := by
  induction all with
  | nil => rfl
  | cons b all ih =>
      rw [put, List.map_cons]
      by_cases hb : key b = key a
      · rw [if_pos (beq_iff_eq.mpr hb), List.map_cons, hkey b a hb, hb,
          if_pos List.mem_cons_self]
      · rw [if_neg (by simpa using hb), List.map_cons, ih]
        by_cases hmem : key a ∈ all.map key
        · rw [if_pos hmem, if_pos (List.mem_cons_of_mem _ hmem)]
        · rw [if_neg hmem, if_neg (List.not_mem_cons_of_ne_of_not_mem (Ne.symm hb) hmem),
            List.cons_append]

/-- The keys stand in the order in which they come first. -/
theorem keys_kept (items : List α) :
    (kept key renew items).map key = (items.map key).eraseDups := by
  induction items using List.reverseRecOn with
  | nil => rfl
  | append_singleton items a ih =>
      rw [kept_concat, keys_put key renew hkey, ih, List.map_append, List.map_singleton,
        eraseDups_concat]
      simp only [List.mem_eraseDups]

theorem find?_put (k : κ) :
    (put key renew a all).find? (key · == k) =
      if key a = k then some (((all.find? (key · == k)).map (renew · a)).getD a)
      else all.find? (key · == k) := by
  induction all with
  | nil =>
      rw [put, List.find?_singleton]
      simp
  | cons b all ih =>
      rw [put]
      by_cases hb : key b = key a
      · have hrenewed : key (renew b a) = key b := (hkey b a hb).trans hb.symm
        rw [if_pos (beq_iff_eq.mpr hb), List.find?_cons, List.find?_cons, hrenewed]
        by_cases ha : key a = k
        · simp [hb, ha]
        · simp [hb, ha, beq_false_of_ne ha]
      · rw [if_neg (by simpa using hb), List.find?_cons, List.find?_cons, ih]
        by_cases hbk : key b = k
        · have hak : key a ≠ k := fun hak => hb (hbk.trans hak.symm)
          simp [hbk, hak]
        · simp [beq_false_of_ne hbk]

section
variable {β : Type w} {f : α → β} (items : List α) (k : κ)

/-- What renewing keeps is that of the first item with a key. -/
theorem find?_kept_first (hf : ∀ b a, f (renew b a) = f b) :
    ((kept key renew items).find? (key · == k)).map f = (items.find? (key · == k)).map f := by
  induction items using List.reverseRecOn with
  | nil => rfl
  | append_singleton items a ih =>
      rw [kept_concat, find?_put key renew hkey, List.find?_append, Option.map_or, ← ih]
      by_cases ha : key a = k
      · rw [if_pos ha, List.find?_singleton, if_pos (beq_iff_eq.mpr ha)]
        cases (kept key renew items).find? (key · == k) with
        | none => rfl
        | some b => simp [hf]
      · simp [ha]

/-- What renewing replaces is that of the last item with a key. -/
theorem find?_kept_last (hf : ∀ b a, f (renew b a) = f a) :
    ((kept key renew items).find? (key · == k)).map f =
      (items.reverse.find? (key · == k)).map f := by
  induction items using List.reverseRecOn with
  | nil => rfl
  | append_singleton items a ih =>
      rw [kept_concat, find?_put key renew hkey, List.reverse_concat, List.find?_cons]
      by_cases ha : key a = k
      · rw [if_pos ha, ha, BEq.rfl]
        cases (kept key renew items).find? (key · == k) with
        | none => rfl
        | some b => simp [hf]
      · rw [if_neg ha, beq_false_of_ne ha, ih]

end
end
end Keyed

end Stepwise
