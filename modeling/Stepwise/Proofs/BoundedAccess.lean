import Mathlib.Data.List.Basic

/-!
# Access within bounds

Reading, cutting and writing at a position fail outside the bounds of a list. A
position is an integer, as it may come out of a subtraction. A text can also be cut by
the bytes of its encoding; a cut inside a character counts as out of bounds.

A computation with such accesses has an optional result, and it is within its bounds
when the result is there. The lemmas say when one access is, and that a loop is when
each of its rounds is.
-/
namespace Stepwise.Bounded

variable {α β σ : Type}

def at? (xs : List α) (i : Int) : Option α :=
  if i < 0 then none else xs[i.toNat]?

/-- The elements from one position up to another. -/
def slice? (xs : List α) (start stop : Int) : Option (List α) :=
  if 0 ≤ start ∧ start ≤ stop ∧ stop ≤ xs.length then
    some ((xs.take stop.toNat).drop start.toNat)
  else none

/-- The list with another element at a position. -/
def set? (xs : List α) (i : Int) (a : α) : Option (List α) :=
  if 0 ≤ i ∧ i < xs.length then some (xs.set i.toNat a) else none

@[simp] theorem at?_natCast (xs : List α) (i : Nat) : at? xs i = xs[i]? := by
  rw [at?, if_neg (Int.not_lt.mpr (Int.natCast_nonneg i)), Int.toNat_natCast]

@[simp] theorem at?_zero_cons (x : α) (xs : List α) : at? (x :: xs) 0 = some x := rfl

theorem slice?_take {xs : List α} {n : Nat} (h : n ≤ xs.length) :
    slice? xs 0 n = some (xs.take n) := by
  simp [slice?, h]

theorem slice?_drop {xs : List α} {n : Nat} (h : n ≤ xs.length) :
    slice? xs n xs.length = some (xs.drop n) := by
  simp [slice?, h]

theorem set?_append (xs : List α) (x a : α) (ys : List α) :
    set? (xs ++ x :: ys) xs.length a = some (xs ++ a :: ys) := by
  have hbounds : (0 : Int) ≤ xs.length ∧ (xs.length : Int) < (xs ++ x :: ys).length := by
    rw [List.length_append, List.length_cons]
    omega
  rw [set?, if_pos hbounds, Int.toNat_natCast, List.set_append_right _ _ (Nat.le_refl _),
    Nat.sub_self, List.set_cons_zero]

/-- The number of bytes that characters are encoded in. -/
def byteCount : List Char → Nat
  | [] => 0
  | c :: cs => c.utf8Size + byteCount cs

/-- The characters in the first bytes, and those after them. -/
def splitBytes? : List Char → Nat → Option (List Char × List Char)
  | cs, 0 => some ([], cs)
  | [], _ + 1 => none
  | c :: cs, n + 1 =>
    if c.utf8Size ≤ n + 1 then
      (splitBytes? cs (n + 1 - c.utf8Size)).map fun parts => (c :: parts.1, parts.2)
    else none

/-- The characters from one byte up to another. -/
def sliceBytes? (cs : List Char) (start stop : Int) : Option (List Char) :=
  if 0 ≤ start ∧ start ≤ stop ∧ stop ≤ byteCount cs then
    (splitBytes? cs stop.toNat).bind fun parts =>
      (splitBytes? parts.1 start.toNat).map (·.2)
  else none

@[simp] theorem byteCount_nil : byteCount [] = 0 := rfl

@[simp] theorem byteCount_cons (c : Char) (cs : List Char) :
    byteCount (c :: cs) = c.utf8Size + byteCount cs := rfl

@[simp] theorem byteCount_append (cs ds : List Char) :
    byteCount (cs ++ ds) = byteCount cs + byteCount ds := by
  induction cs with
  | nil => simp
  | cons c cs ih => rw [List.cons_append, byteCount_cons, ih, byteCount_cons, Nat.add_assoc]

theorem splitBytes?_append (cs ds : List Char) :
    splitBytes? (cs ++ ds) (byteCount cs) = some (cs, ds) := by
  induction cs with
  | nil => cases ds <;> rfl
  | cons c cs ih =>
      have hpos := c.utf8Size_pos
      obtain ⟨n, hn⟩ : ∃ n, byteCount (c :: cs) = n + 1 :=
        ⟨byteCount (c :: cs) - 1, by rw [byteCount_cons]; omega⟩
      have hrest : n + 1 - c.utf8Size = byteCount cs := by
        rw [← hn, byteCount_cons]
        omega
      have hle : c.utf8Size ≤ n + 1 := by
        rw [← hn, byteCount_cons]
        omega
      rw [hn, List.cons_append, splitBytes?, if_pos hle, hrest, ih]
      rfl

/-- The middle of three parts is cut out by the bytes before it and those up to its end. -/
theorem sliceBytes?_middle (cs ds es : List Char) :
    sliceBytes? (cs ++ ds ++ es) (byteCount cs) (byteCount cs + byteCount ds : Nat) = some ds := by
  have hbounds : (0 : Int) ≤ byteCount cs ∧
      (byteCount cs : Int) ≤ (byteCount cs + byteCount ds : Nat) ∧
      ((byteCount cs + byteCount ds : Nat) : Int) ≤ byteCount (cs ++ ds ++ es) := by
    simp only [byteCount_append]
    omega
  rw [sliceBytes?, if_pos hbounds, Int.toNat_natCast, Int.toNat_natCast, ← byteCount_append,
    splitBytes?_append, Option.bind_some, splitBytes?_append, Option.map_some]

theorem sliceBytes?_front (cs ds : List Char) :
    sliceBytes? (cs ++ ds) 0 (byteCount cs) = some cs := by
  simpa using sliceBytes?_middle [] cs ds

theorem mapM_eq_some_map {f : α → Option β} {g : α → β} {xs : List α}
    (h : ∀ x ∈ xs, f x = some (g x)) : xs.mapM f = some (xs.map g) := by
  induction xs with
  | nil => rfl
  | cons x xs ih =>
      rw [List.mapM_cons, h x List.mem_cons_self, ih fun y hy => h y (List.mem_cons_of_mem x hy)]
      rfl

theorem foldlM_eq_some_foldl {f : β → α → Option β} {g : β → α → β}
    (h : ∀ b x, f b x = some (g b x)) (b : β) (xs : List α) :
    xs.foldlM f b = some (xs.foldl g b) := by
  induction xs generalizing b with
  | nil => rfl
  | cons x xs ih =>
      rw [List.foldlM_cons, h, List.foldl_cons, ← ih]
      rfl

theorem allM_eq_some_all {p : α → Option Bool} {q : α → Bool} {xs : List α}
    (h : ∀ x ∈ xs, p x = some (q x)) : xs.allM p = some (xs.all q) := by
  induction xs with
  | nil => rfl
  | cons x xs ih =>
      have hrest := ih fun y hy => h y (List.mem_cons_of_mem x hy)
      rw [List.allM, h x List.mem_cons_self, List.all_cons]
      cases hq : q x with
      | false => rfl
      | true => simpa using hrest

/-- A loop over a list that writes one result for each element and carries a state. -/
def writeEach? (round : σ → α → Option (β × σ)) :
    List α → Nat → σ → List β → Option (List β)
  | [], _, _, out => some out
  | x :: xs, i, s, out => do
    let (b, s) ← round s x
    let out ← set? out i b
    writeEach? round xs (i + 1) s out

/-- The results of a loop over a list that carries a state. -/
def results (round : σ → α → β × σ) : σ → List α → List β
  | _, [] => []
  | s, x :: xs => (round s x).1 :: results round (round s x).2 xs

/-- Such a loop is within its bounds when there is a place for each result. -/
theorem writeEach?_eq {round : σ → α → Option (β × σ)} {total : σ → α → β × σ}
    (h : ∀ s x, round s x = some (total s x)) (xs : List α) (s : σ) (before after : List β)
    (hlength : after.length = xs.length) :
    writeEach? round xs before.length s (before ++ after) =
      some (before ++ results total s xs) := by
  induction xs generalizing s before after with
  | nil =>
      rw [List.length_nil, List.length_eq_zero_iff] at hlength
      rw [hlength]
      rfl
  | cons x xs ih =>
      obtain ⟨b, after, rfl⟩ := List.exists_cons_of_length_eq_add_one hlength
      have hafter : after.length = xs.length := by simpa using hlength
      have hnext := ih (total s x).2 (before ++ [(total s x).1]) after hafter
      rw [List.length_append, List.length_singleton, List.append_assoc, List.append_assoc] at hnext
      rw [writeEach?, h, results]
      simp only [Option.bind_eq_bind, Option.bind_some, set?_append]
      exact hnext

/-- A loop over a list that writes one result for each element. -/
def mapEach? (round : α → Option β) (blank : β) (xs : List α) : Option (List β) :=
  writeEach? (fun _ x => (round x).map (·, ())) xs 0 () (List.replicate xs.length blank)

theorem results_stateless (f : α → β) (xs : List α) :
    results (fun (_ : Unit) x => (f x, ())) () xs = xs.map f := by
  induction xs with
  | nil => rfl
  | cons x xs ih => rw [results, List.map_cons, ih]

theorem mapEach?_eq {round : α → Option β} {f : α → β} (h : ∀ x, round x = some (f x)) (blank : β)
    (xs : List α) : mapEach? round blank xs = some (xs.map f) := by
  have hround : ∀ (s : Unit) x, (round x).map (·, ()) = some (f x, ()) := by
    intro s x
    rw [h, Option.map_some]
  have hloop := writeEach?_eq hround xs () [] (List.replicate xs.length blank) (by simp)
  rw [results_stateless] at hloop
  exact hloop

end Stepwise.Bounded
