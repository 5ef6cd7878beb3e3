import Mathlib.Data.List.Induction
import Mathlib.Data.Set.Card
import Stepwise.Proofs.KeyedItems
import Stepwise.Proofs.MemoFreshness

/-!
# What a store holds after any operations

Documents are opened, updated, closed and asked for in any order, under any spelling of their
addresses. What is found under an address is decided by the last operation that wrote there:
its lines if it stored some, and nothing if it closed the document or if there was none.

A document that was handed out once stays as it was. It is known by its revision: whatever is
handed out at any time with the same revision is the same document. Revisions count the
documents that were stored and go on counting when documents are closed. The counter is a
natural number here, so it fits 64 bits as long as fewer than 2^64 documents were stored.
-/
namespace Stepwise

inductive StoreOp where
  | opens (uri : String) (version : Int) (lines : List String)
  | updates (uri : String) (version : Int) (lines : List String)
  | closes (uri : String)
  | gets (uri : String)
  deriving DecidableEq, Repr

namespace StoreOp

/-- The address that an operation writes under. -/
def address? : StoreOp → Option String
  | opens uri _ _ | updates uri _ _ | closes uri => some (Location.normalize uri)
  | gets _ => none

/-- The version and the lines that an operation stores. -/
def content? : StoreOp → Option (Int × List String)
  | opens _ version lines | updates _ version lines => some (version, lines)
  | closes _ | gets _ => none

/-- The last of the operations that write under an address. -/
def IsLastAt (ops : List StoreOp) (address : String) (op : StoreOp) : Prop :=
  Keyed.IsLast address? ops (some address) op

/-- A document is open under an address after some operations: the last of them that wrote
there stored one. -/
def LeavesOpen (ops : List StoreOp) (address : String) : Prop :=
  ∃ op, IsLastAt ops address op ∧ op.content?.isSome = true

end StoreOp

namespace Store
open StoreOp

/-- The store after an operation, and the document that is handed out. Opening a document
stores it as an update does. -/
def perform (s : Store) : StoreOp → Store × Option Document
  | .opens uri version lines | .updates uri version lines =>
      (s.update uri version lines, some (s.nextDocument uri version lines))
  | .closes uri => (s.close uri, none)
  | .gets uri => (s, s.get? uri)

/-- The store after operations, the first of them performed first. -/
def after (s : Store) (ops : List StoreOp) : Store :=
  ops.foldl (fun s op => (s.perform op).1) s

/-- The operations in order, each with the document that it hands out. -/
def trace (s : Store) : List StoreOp → List (StoreOp × Option Document)
  | [] => []
  | op :: ops => (op, (s.perform op).2) :: (s.perform op).1.trace ops

/-- The documents that a run hands out, in order. -/
def handedOut (ops : List StoreOp) : List Document :=
  (empty.trace ops).filterMap (·.2)

/-- The documents that a run creates, in order. -/
def created (ops : List StoreOp) : List Document :=
  (empty.trace ops).filterMap fun entry => if entry.1.content?.isSome then entry.2 else none

section
variable {s : Store} {ops : List StoreOp} {op : StoreOp} {address : String}

theorem after_concat (s : Store) (ops : List StoreOp) (op : StoreOp) :
    s.after (ops ++ [op]) = ((s.after ops).perform op).1 := by
  rw [after, List.foldl_append]
  rfl

theorem trace_append (s : Store) (ops later : List StoreOp) :
    s.trace (ops ++ later) = s.trace ops ++ (s.after ops).trace later := by
  induction ops generalizing s with
  | nil => rfl
  | cons op ops ih =>
      rw [List.cons_append, trace, trace, ih, List.cons_append]
      rfl

/-- What an operation makes of the document under an address. -/
theorem at?_perform (s : Store) (op : StoreOp) (address : String) :
    (s.perform op).1.at? address =
      if op.address? = some address then
        op.content?.map fun c => ⟨address, c.1, s.revision + 1, c.2⟩
      else s.at? address := by
  cases op with
  | opens uri version lines | updates uri version lines =>
      simp only [perform, at?_update, address?, Option.some.injEq]
      split
      · rename_i h
        subst h
        rfl
      · rfl
  | closes uri =>
      simp only [perform, at?_close, address?, Option.some.injEq]
      rfl
  | gets uri => rfl

/-- Under an address stands what the last operation that wrote there stored. -/
theorem content_at?_after (ops : List StoreOp) (address : String) (c : Int × List String) :
    ((empty.after ops).at? address).map (fun d => (d.version, d.lines)) = some c ↔
      ∃ op, IsLastAt ops address op ∧ op.content? = some c := by
  induction ops using List.reverseRecOn with
  | nil =>
      constructor
      · exact nofun
      · intro h
        obtain ⟨op, hop, -⟩ := h
        exact absurd hop Keyed.not_isLast_nil
  | append_singleton ops o ih =>
      simp only [after_concat, at?_perform, IsLastAt, Keyed.isLast_concat_iff]
      split
      · rw [Option.map_map, exists_eq_left]
        exact iff_of_eq (congrArg (· = some c) (Option.map_id' (x := o.content?)))
      · exact ih

theorem at?_after_eq_none_iff (ops : List StoreOp) (address : String) :
    (empty.after ops).at? address = none ↔
      ∀ op, IsLastAt ops address op → op.content? = none := by
  constructor
  · intro hnone op hop
    rw [Option.eq_none_iff_forall_ne_some]
    intro c hc
    have hsome := (content_at?_after ops address c).mpr ⟨op, hop, hc⟩
    rw [hnone] at hsome
    cases hsome
  · intro h
    rw [← Option.map_eq_none_iff (f := fun d : Document => (d.version, d.lines)),
      Option.eq_none_iff_forall_ne_some]
    intro c hc
    obtain ⟨op, hop, hsome⟩ := (content_at?_after ops address c).mp hc
    rw [h op hop] at hsome
    cases hsome

end

/-! ## How many documents are open -/

section
variable {ops : List StoreOp}

theorem mem_addresses_iff (s : Store) (address : String) :
    address ∈ s.documents.map (·.uri) ↔ (s.at? address).isSome = true := by
  rw [at?, List.find?_isSome, List.mem_map]
  simp only [beq_iff_eq]

theorem nodup_addresses_perform {s : Store} (h : (s.documents.map (·.uri)).Nodup)
    (op : StoreOp) : ((s.perform op).1.documents.map (·.uri)).Nodup := by
  cases op with
  | opens uri version lines | updates uri version lines =>
      simp only [perform, update, List.map_cons, List.nodup_cons]
      constructor
      · intro hmem
        obtain ⟨d, hd, huri⟩ := List.mem_map.mp hmem
        have hother := (List.mem_filter.mp hd).2
        rw [huri, bne_self_eq_false] at hother
        exact Bool.false_ne_true hother
      · exact h.sublist (List.filter_sublist.map _)
  | closes uri => exact h.sublist (List.filter_sublist.map _)
  | gets uri => exact h

theorem nodup_addresses_after (ops : List StoreOp) :
    ((empty.after ops).documents.map (·.uri)).Nodup := by
  induction ops using List.reverseRecOn with
  | nil => exact List.nodup_nil
  | append_singleton ops op ih =>
      rw [after_concat]
      exact nodup_addresses_perform ih op

theorem mem_addresses_after_iff (ops : List StoreOp) (address : String) :
    address ∈ (empty.after ops).documents.map (·.uri) ↔ LeavesOpen ops address := by
  rw [mem_addresses_iff, ← Option.isSome_map (f := fun d : Document => (d.version, d.lines)),
    Option.isSome_iff_exists]
  simp only [content_at?_after, LeavesOpen, Option.isSome_iff_exists]
  constructor
  · intro h
    obtain ⟨c, op, hop, hc⟩ := h
    exact ⟨op, hop, c, hc⟩
  · intro h
    obtain ⟨op, hop, c, hc⟩ := h
    exact ⟨c, op, hop, hc⟩

/-- As many documents are kept as there are addresses left open. -/
theorem encard_leavesOpen (ops : List StoreOp) :
    {address | LeavesOpen ops address}.encard = (empty.after ops).size := by
  have hset : {address | LeavesOpen ops address} =
      (((empty.after ops).documents.map (·.uri)).toFinset : Set String) := by
    ext address
    rw [List.coe_toFinset]
    exact (mem_addresses_after_iff ops address).symm
  rw [hset, Set.encard_coe_eq_coe_finsetCard,
    List.toFinset_card_of_nodup (nodup_addresses_after ops), List.length_map]
  rfl

/-! ## Documents that were created and handed out -/

theorem created_concat (ops : List StoreOp) (op : StoreOp) :
    created (ops ++ [op]) = created ops ++
      (if op.content?.isSome then ((empty.after ops).perform op).2 else none).toList := by
  rw [created, trace_append, List.filterMap_append, ← created]
  rfl

theorem handedOut_concat (ops : List StoreOp) (op : StoreOp) :
    handedOut (ops ++ [op]) = handedOut ops ++ ((empty.after ops).perform op).2.toList := by
  rw [handedOut, trace_append, List.filterMap_append, ← handedOut]
  rfl

/-- An operation that stores creates a document with the next revision, and no other operation
creates one. -/
theorem created_cases (s : Store) (op : StoreOp) :
    (∃ d, op.content?.isSome = true ∧ (s.perform op).2 = some d ∧ d.revision = s.revision + 1 ∧
      (s.perform op).1.revision = s.revision + 1 ∧
      ∀ e ∈ (s.perform op).1.documents, e = d ∨ e ∈ s.documents) ∨
    (op.content?.isSome = false ∧ (s.perform op).1.revision = s.revision ∧
      (∀ d ∈ (s.perform op).2, d ∈ s.documents) ∧
      ∀ e ∈ (s.perform op).1.documents, e ∈ s.documents) := by
  cases op with
  | opens uri version lines | updates uri version lines =>
      exact .inl ⟨s.nextDocument uri version lines, rfl, rfl, rfl, rfl, fun e he => mem_update he⟩
  | closes uri => exact .inr ⟨rfl, rfl, nofun, fun e he => mem_close he⟩
  | gets uri => exact .inr ⟨rfl, rfl, fun d hd => mem_of_get? hd, fun e he => he⟩

/-- Along a run the revisions count the created documents, and what is kept or handed out was
created. -/
structure Recorded (ops : List StoreOp) : Prop where
  revisions : (created ops).map (·.revision) = List.range' 1 (empty.after ops).revision
  kept : ∀ d ∈ (empty.after ops).documents, d ∈ created ops
  handed : ∀ d ∈ handedOut ops, d ∈ created ops

theorem recorded (ops : List StoreOp) : Recorded ops := by
  induction ops using List.reverseRecOn with
  | nil => exact ⟨rfl, nofun, nofun⟩
  | append_singleton ops op ih =>
      rcases created_cases (empty.after ops) op with
        ⟨d, hstores, hd, hrevision, hnext, hkept⟩ | ⟨hstores, hnext, hhanded, hkept⟩
      · have hcreated : created (ops ++ [op]) = created ops ++ [d] := by
          rw [created_concat, if_pos hstores, hd]
          rfl
        constructor
        · rw [hcreated, List.map_append, ih.revisions, after_concat, hnext, List.range'_concat,
            List.map_singleton, hrevision]
          congr 2
          omega
        · intro e he
          rw [after_concat] at he
          rw [hcreated]
          rcases hkept e he with rfl | he
          · exact List.mem_append_right _ (List.mem_singleton_self e)
          · exact List.mem_append_left _ (ih.kept e he)
        · intro e he
          rw [handedOut_concat, hd] at he
          rw [hcreated]
          rcases List.mem_append.mp he with he | he
          · exact List.mem_append_left _ (ih.handed e he)
          · exact List.mem_append_right _ he
      · have hcreated : created (ops ++ [op]) = created ops := by
          rw [created_concat, if_neg (by simp [hstores])]
          exact List.append_nil _
        constructor
        · rw [hcreated, ih.revisions, after_concat, hnext]
        · intro e he
          rw [after_concat] at he
          rw [hcreated]
          exact ih.kept e (hkept e he)
        · intro e he
          rw [handedOut_concat] at he
          rw [hcreated]
          rcases List.mem_append.mp he with he | he
          · exact ih.handed e he
          · exact ih.kept e (hhanded e (Option.mem_toList.mp he))

theorem created_increasing (ops : List StoreOp) :
    (created ops).Pairwise fun d e => d.revision < e.revision := by
  rw [← List.pairwise_map, (recorded ops).revisions]
  exact List.pairwise_lt_range'

/-- A created document is known by its revision. -/
theorem eq_of_revision_eq {d e : Document} (hd : d ∈ created ops) (he : e ∈ created ops)
    (h : d.revision = e.revision) : d = e := by
  have hnodup : ((created ops).map (·.revision)).Nodup := by
    rw [(recorded ops).revisions]
    exact List.nodup_range'
  exact List.inj_on_of_nodup_map hnodup hd he h

/-- What an operation that stores hands out is what it was given. -/
theorem perform_stores {s : Store} {op : StoreOp} {c : Int × List String}
    (h : op.content? = some c) : ∃ d, (s.perform op).2 = some d ∧ op.address? = some d.uri ∧
      d.version = c.1 ∧ d.lines = c.2 := by
  cases op with
  | opens uri version lines | updates uri version lines =>
      cases h
      exact ⟨s.nextDocument uri version lines, rfl, rfl, rfl, rfl⟩
  | closes uri | gets uri => cases h

end

/-- After any operations a store is a finite map. Under an address, however it is spelt, stands
what the last operation that wrote there stored, and nothing if that one closed the document;
and it has as many documents as there are addresses left open. An operation that stores hands
out a document of what it was given. The revisions of the created documents increase in the
order of their creation, whatever was closed in between, and are as many as there are
documents. A document that was handed out never changes: what a longer run hands out begins with
the same documents, and at any time the same revision means the same document. -/
theorem store_refines_map (ops : List StoreOp) :
    let s := empty.after ops
    (∀ uri c, (s.get? uri).map (fun d => (d.version, d.lines)) = some c ↔
      ∃ op, IsLastAt ops (Location.normalize uri) op ∧ op.content? = some c) ∧
    (∀ uri, s.get? uri = none ↔
      ∀ op, IsLastAt ops (Location.normalize uri) op → op.content? = none) ∧
    {address | LeavesOpen ops address}.encard = s.size ∧
    (∀ op c, op.content? = some c → ∃ d, (s.perform op).2 = some d ∧
      created (ops ++ [op]) = created ops ++ [d] ∧ op.address? = some d.uri ∧
      d.version = c.1 ∧ d.lines = c.2) ∧
    ((created ops).Pairwise fun d e => d.revision < e.revision) ∧
    s.revision = (created ops).length ∧
    (∀ later, empty.trace ops <+: empty.trace (ops ++ later)) ∧
    ∀ d ∈ handedOut ops, ∀ e ∈ handedOut ops, d.revision = e.revision → d = e := by
  intro s
  have hrecorded := recorded ops
  refine ⟨fun uri => content_at?_after ops _, fun uri => at?_after_eq_none_iff ops _,
    encard_leavesOpen ops, ?_, created_increasing ops, ?_, ?_, ?_⟩
  · intro op c hc
    obtain ⟨d, hd, haddress, hversion, hlines⟩ := perform_stores (s := s) hc
    refine ⟨d, hd, ?_, haddress, hversion, hlines⟩
    rw [created_concat, if_pos (by rw [hc]; rfl), hd]
    rfl
  · rw [← List.length_map (f := fun d : Document => d.revision), hrecorded.revisions,
      List.length_range']
  · intro later
    rw [trace_append]
    exact List.prefix_append _ _
  · intro d hd e he heq
    exact eq_of_revision_eq (hrecorded.handed d hd) (hrecorded.handed e he) heq

/-- Two spellings of one address, and a document that is opened anew. -/
example :
    (empty.after [.opens "file:///a%62" 1 ["x"], .updates "file:///ab" 2 ["y"],
      .closes "file:///%61b", .opens "file:///ab" 1 []]).documents =
        [⟨"file:///ab", 1, 3, []⟩] := by
  decide +kernel

end Store
end Stepwise
