import Stepwise.Proofs.SettledRecords
import Stepwise.Request.Decode

/-!
# The head of a request

The identity and the kind of a request are read twice by different records: once
with all other fields and, if that fails, on their own. Both records begin with the
same two fields, and the fields after them leave the head alone. So both find the
same head, that of the last members of the right name, and reading the head alone
never fails when the kind is a string.

Names are compared without regard to ASCII case, here as in the readers.
-/
namespace Stepwise

open Json
open Json.Reader

/-- Whether a member has a name, up to the case of ASCII letters. -/
def Json.Member.isNamed (m : Member) (name : String) : Bool :=
  asciiLower m.name == name

/-- The identity of a request as it is written. -/
def Json.requestId (ms : List Member) : Option String :=
  (ms.reverse.find? (·.isNamed "id")).map fun m => String.ofList m.value.token

structure Json.TypeIs (ms : List Member) (kindName : String) : Prop where
  strings : ∀ m ∈ ms, m.isNamed "type" = true → ∃ text, IsString m.value.token text
  last : ∃ m, ms.reverse.find? (·.isNamed "type") = some m ∧ IsString m.value.token kindName

/-- The first member says the kind when no other member does. -/
theorem Json.TypeIs.of_head {m : Member} {ms : List Member} {kindName : String}
    (hm : m.isNamed "type" = true) (hkind : IsString m.value.token kindName)
    (hms : ∀ n ∈ ms, n.isNamed "type" = false) : TypeIs (m :: ms) kindName := by
  have hnone : ms.reverse.find? (·.isNamed "type") = none := by
    rw [List.find?_eq_none]
    exact fun n hn => Bool.eq_false_iff.mp (hms n (List.mem_reverse.mp hn))
  refine ⟨List.forall_mem_cons.mpr ⟨fun _ => ⟨_, hkind⟩, fun n hn hnamed => ?_⟩, m, ?_, hkind⟩
  · rw [hms n hn] at hnamed
    cases hnamed
  · rw [List.reverse_cons, List.find?_append, hnone, Option.none_or, List.find?_singleton,
      if_pos hm]

namespace Json.Reader

section
variable {σ α : Type} {get : σ → α} {set : σ → α → σ} {item : Reader α}
  {fields : List (Field σ)} {key name : String}

theorem member_field_of_eq (h : asciiLower key = asciiLower name) :
    member (field key get set item :: fields) name = (field key get set item).read := by
  have hb : (asciiLower (field key get set item).name == asciiLower name) = true :=
    beq_iff_eq.mpr h
  simp only [member, List.find?_cons, hb]

theorem member_field_of_ne (h : asciiLower key ≠ asciiLower name) :
    member (field key get set item :: fields) name = member fields name := by
  have hb : (asciiLower (field key get set item).name == asciiLower name) = false :=
    beq_false_of_ne h
  simp only [member, List.find?_cons, hb]

end

/-- A field does not touch a part of the record. -/
def Field.Keeps {σ β : Type} (f : Field σ) (get : σ → β) : Prop :=
  ∀ s cs t rest, f.read s cs = some (t, rest) → get t = get s

section
variable {σ α β : Type} {get : σ → β}

theorem keeps_field {name : String} {view : σ → α} {set : σ → α → σ} {item : Reader α}
    (h : ∀ s a, get (set s a) = get s) : (field name view set item).Keeps get := by
  intro s cs t rest hread
  rw [field_read, Option.map_eq_some_iff] at hread
  obtain ⟨⟨a, more⟩, _, he⟩ := hread
  cases he
  exact h s a

theorem valueOf_keeps {r : Reader σ} (h : ∀ s cs t rest, r s cs = some (t, rest) → get t = get s)
    (token : List Char) (s : σ) : get (r.valueOf token s) = get s := by
  rw [valueOf]
  cases hr : r s token with
  | none => rfl
  | some p => exact h s token p.1 p.2 hr

theorem ignored_keeps (s : σ) (cs : List Char) (t : σ) (rest : List Char)
    (h : ignored s cs = some (t, rest)) : t = s := by
  rw [ignored, Option.map_eq_some_iff] at h
  obtain ⟨_, _, he⟩ := h
  cases he
  rfl

/-- A member changes the part of another field only if it is read by that field. -/
theorem afterMember_keeps {fields : List (Field σ)} {m : Member}
    (h : ∀ f ∈ fields, asciiLower f.name = asciiLower m.name → f.Keeps get) (s : σ) :
    get (afterMember fields s m) = get s := by
  unfold afterMember member
  split
  · rename_i f hf
    have hname := List.find?_some hf
    rw [beq_iff_eq] at hname
    exact valueOf_keeps (h f (List.mem_of_find?_eq_some hf) hname) _ s
  · exact valueOf_keeps (fun s cs t rest hr => by rw [ignored_keeps s cs t rest hr]) _ s

theorem valueOf_field {name : String} {view : σ → α} {set : σ → α → σ} {item : Reader α}
    {token : List Char} (h : item.Takes token) (s : σ) :
    (field name view set item).read.valueOf token s = set s (item.valueOf token (view s)) := by
  have hread := h (view s) [] ends_nil
  rw [List.append_nil] at hread
  rw [valueOf, field_read, hread]
  rfl

end

theorem asciiLower_id : asciiLower "id" = "id" := by decide

theorem asciiLower_type : asciiLower "type" = "type" := by decide

/-- A record that begins with the two fields of the head. The other fields leave them alone. -/
structure Head (σ : Type) where
  id : σ → Option String
  setId : σ → Option String → σ
  kind : σ → String
  setKind : σ → String → σ
  others : List (Field σ)
  id_setId : ∀ s v, id (setId s v) = v
  id_setKind : ∀ s v, id (setKind s v) = id s
  kind_setId : ∀ s v, kind (setId s v) = kind s
  kind_setKind : ∀ s v, kind (setKind s v) = v
  settled : AllSettled others
  keepsId : ∀ f ∈ others, f.Keeps id
  keepsKind : ∀ f ∈ others, f.Keeps kind

namespace Head
variable {σ : Type} (h : Head σ)

def fields : List (Field σ) :=
  field "id" h.id h.setId raw :: field "type" h.kind h.setKind text :: h.others

theorem settled_fields : AllSettled h.fields := by
  refine List.forall_mem_cons.mpr ⟨settled_field _ _ _ settled_raw, ?_⟩
  exact List.forall_mem_cons.mpr ⟨settled_field _ _ _ settled_text, h.settled⟩

theorem member_id {m : Member} (hm : m.isNamed "id" = true) :
    member h.fields m.name = (field "id" h.id h.setId raw).read := by
  rw [Member.isNamed, beq_iff_eq] at hm
  exact member_field_of_eq (asciiLower_id.trans hm.symm)

theorem member_type {m : Member} (hm : m.isNamed "type" = true) :
    member h.fields m.name = (field "type" h.kind h.setKind text).read := by
  rw [Member.isNamed, beq_iff_eq] at hm
  have hid : asciiLower "id" ≠ asciiLower m.name := by
    rw [hm]
    decide
  exact (member_field_of_ne hid).trans (member_field_of_eq (asciiLower_type.trans hm.symm))

theorem id_afterMember {depth : Nat} (hd : depth ≤ fieldDepth) {m : Member}
    (hv : IsValue depth m.value.token) (s : σ) :
    h.id (afterMember h.fields s m) =
      if m.isNamed "id" then some (String.ofList m.value.token) else h.id s := by
  by_cases hm : m.isNamed "id" = true
  · rw [if_pos hm, afterMember, h.member_id hm, valueOf_field (takes_raw hv hd), h.id_setId,
      valueOf]
    have hread := raw_append hv hd (h.id s) ends_nil
    rw [List.append_nil] at hread
    rw [hread]
    rfl
  · rw [if_neg hm]
    refine afterMember_keeps ?_ s
    refine List.forall_mem_cons.mpr ⟨fun hname => ?_, List.forall_mem_cons.mpr ⟨fun _ => ?_, ?_⟩⟩
    · have hid : asciiLower m.name = "id" := hname.symm.trans asciiLower_id
      exact absurd (beq_iff_eq.mpr hid) hm
    · exact keeps_field h.id_setKind
    · exact fun f hf _ => h.keepsId f hf

theorem kind_afterMember {m : Member}
    (hs : m.isNamed "type" = true → ∃ t, IsString m.value.token t) (s : σ) :
    h.kind (afterMember h.fields s m) =
      if m.isNamed "type" then text.valueOf m.value.token "" else h.kind s := by
  by_cases hm : m.isNamed "type" = true
  · obtain ⟨t, ht⟩ := hs hm
    rw [if_pos hm, afterMember, h.member_type hm, valueOf_field (takes_string ht), h.kind_setKind,
      valueOf_string ht, valueOf_string ht]
  · rw [if_neg hm]
    refine afterMember_keeps ?_ s
    refine List.forall_mem_cons.mpr ⟨fun _ => ?_, List.forall_mem_cons.mpr ⟨fun hname => ?_, ?_⟩⟩
    · exact keeps_field h.kind_setId
    · have htype : asciiLower m.name = "type" := hname.symm.trans asciiLower_type
      exact absurd (beq_iff_eq.mpr htype) hm
    · exact fun f hf _ => h.keepsKind f hf

/-- A value kept as written is the last of its name. -/
theorem get_foldl {β : Type} {get : σ → β} {g : Member → β} {p : Member → Bool}
    {step : σ → Member → σ} {ms : List Member}
    (hstep : ∀ m ∈ ms, ∀ s, get (step s m) = if p m then g m else get s) (s : σ) :
    get (ms.foldl step s) = ((ms.reverse.find? p).map g).getD (get s) := by
  induction ms generalizing s with
  | nil => rfl
  | cons m ms ih =>
      obtain ⟨hm, hms⟩ := List.forall_mem_cons.mp hstep
      rw [List.foldl_cons, ih hms, hm, List.reverse_cons, List.find?_append]
      cases ms.reverse.find? p with
      | some n => rfl
      | none =>
          cases hp : p m with
          | true => simp [hp]
          | false => simp [hp]

section
variable {depth : Nat} (hd : depth ≤ fieldDepth) {ms : List Member}
  (hv : ∀ m ∈ ms, IsValue depth m.value.token)
include hd hv

theorem id_foldl {s : σ} (hs : h.id s = none) :
    h.id (ms.foldl (afterMember h.fields) s) = requestId ms := by
  have hstep : ∀ m ∈ ms, ∀ s, h.id (afterMember h.fields s m) =
      if m.isNamed "id" then some (String.ofList m.value.token) else h.id s :=
    fun m hm s => h.id_afterMember hd (hv m hm) s
  rw [get_foldl hstep, hs, requestId]
  cases ms.reverse.find? fun m => m.isNamed "id" <;> rfl

omit hd hv in
theorem kind_foldl {kindName : String} (ht : TypeIs ms kindName) (s : σ) :
    h.kind (ms.foldl (afterMember h.fields) s) = kindName := by
  rw [get_foldl fun m hm s => h.kind_afterMember (ht.strings m hm) s]
  obtain ⟨m, hm, hstring⟩ := ht.last
  rw [hm]
  exact valueOf_string hstring ""

end

end Head

/-! ## Whole texts -/

theorem upToNul_eq {depth : Nat} {ms : List Member} {t : String}
    (ho : IsObjectText depth ms t.toList) : upToNul t = t.toList := by
  refine upToNul_of_notNul ?_
  generalize t.toList = cs at ho
  have hbalanced : Balanced (depth + 1) cs := by
    cases ho with
    | spaced hb hobj ha => exact hb.balanced.append (hobj.isValue.balanced.append ha.balanced)
  exact hbalanced.notNul

section
variable {σ : Type} {fields : List (Field σ)} (h : AllSettled fields) {depth : Nat}
  {ms : List Member} {t : String} (ho : IsObjectText depth ms t.toList)
include h ho

/-- A text is read when every member of its object is taken. -/
theorem run_takes (ha : ∀ m ∈ ms, Admits fields m) (start : σ) :
    (record fields).run start t = some (ms.foldl (afterMember fields) start) := by
  rw [run, upToNul_eq ho]
  generalize t.toList = cs at ho
  cases ho with
  | @spaced before token after hb hobj hafter =>
      rw [(settled_record h).spaced hb, record_takes h hobj ha]
      have hempty : skipSpace after = [] := by
        have hs := hafter.skipSpace_append []
        rwa [List.append_nil] at hs
      simp only [hempty, List.isEmpty_nil, if_true]

theorem run_refuses
    (hsettles : ∀ m ∈ ms, Admits fields m ∨ (member fields m.name).Refuses m.value.token)
    (hex : ∃ m ∈ ms, ¬Admits fields m) (start : σ) : (record fields).run start t = none := by
  rw [run, upToNul_eq ho]
  generalize t.toList = cs at ho
  cases ho with
  | spaced hb hobj hafter =>
      rw [(settled_record h).spaced hb, record_refuses h hobj hsettles hex]

end

end Json.Reader

/-! ## The two records of a request -/

theorem settled_spanFields {σ : Type} (get : σ → Span) (set : σ → Span → σ) :
    AllSettled (Span.fields get set) := by
  intro f hf
  simp only [Span.fields, List.mem_cons, List.not_mem_nil, or_false] at hf
  rcases hf with rfl | rfl | rfl | rfl <;> exact settled_field _ _ _ settled_int

theorem settled_markerFields : AllSettled Marker.fields := by
  refine List.forall_mem_cons.mpr ⟨settled_field _ _ _ settled_int, ?_⟩
  refine List.forall_mem_cons.mpr ⟨settled_field _ _ _ settled_text, ?_⟩
  exact settled_spanFields _ _

theorem settled_span : Span.reader.Settled :=
  settled_record (settled_spanFields _ _)

theorem settled_marker : Marker.reader.Settled :=
  settled_record settled_markerFields

def Envelope.head : Head Envelope where
  id := Envelope.id
  setId := fun e v => { e with id := v }
  kind := Envelope.kindName
  setKind := fun e v => { e with kindName := v }
  others := Envelope.fields.drop 2
  id_setId := fun _ _ => rfl
  id_setKind := fun _ _ => rfl
  kind_setId := fun _ _ => rfl
  kind_setKind := fun _ _ => rfl
  settled := by
    intro f hf
    simp only [Envelope.fields, List.drop, List.mem_cons, List.not_mem_nil, or_false] at hf
    rcases hf with rfl | rfl | rfl | rfl | rfl | rfl | rfl | rfl | rfl
    · exact settled_field _ _ _ settled_text
    · exact settled_field _ _ _ settled_text
    · exact settled_field _ _ _ settled_int
    · exact settled_field _ _ _ settled_int
    · exact settled_field _ _ _ settled_raw
    · exact settled_field _ _ _ settled_int
    · exact settled_field _ _ _ (settled_list settled_text _)
    · exact settled_field _ _ _ (settled_optional settled_span _)
    · exact settled_field _ _ _ (settled_list settled_marker _)
  keepsId := by
    intro f hf
    simp only [Envelope.fields, List.drop, List.mem_cons, List.not_mem_nil, or_false] at hf
    rcases hf with rfl | rfl | rfl | rfl | rfl | rfl | rfl | rfl | rfl <;>
      exact keeps_field fun _ _ => rfl
  keepsKind := by
    intro f hf
    simp only [Envelope.fields, List.drop, List.mem_cons, List.not_mem_nil, or_false] at hf
    rcases hf with rfl | rfl | rfl | rfl | rfl | rfl | rfl | rfl | rfl <;>
      exact keeps_field fun _ _ => rfl

def RequestError.head : Head (Option String × String) where
  id := Prod.fst
  setId := fun h v => (v, h.2)
  kind := Prod.snd
  setKind := fun h v => (h.1, v)
  others := []
  id_setId := fun _ _ => rfl
  id_setKind := fun _ _ => rfl
  kind_setId := fun _ _ => rfl
  kind_setKind := fun _ _ => rfl
  settled := nofun
  keepsId := nofun
  keepsKind := nofun

theorem RequestError.head_fields : RequestError.head.fields = RequestError.headFields := rfl

end Stepwise
