import Stepwise.Proofs.SettledReaders

/-!
# Records on objects of the grammar

A record is read from an object member by member. When the fields are settled, an
object is taken whole exactly when each of its members is taken by the field of its
name, and then the record is changed by one member after the other.
-/
namespace Stepwise.Json.Reader

section
variable {σ : Type} {fields : List (Field σ)}

def AllSettled (fields : List (Field σ)) : Prop :=
  ∀ f ∈ fields, f.read.Settled

/-- A member is taken by the field of its name, or passed over when there is none. -/
def Admits (fields : List (Field σ)) (m : Member) : Prop :=
  (member fields m.name).Takes m.value.token

def afterMember (fields : List (Field σ)) (s : σ) (m : Member) : σ :=
  (member fields m.name).valueOf m.value.token s

theorem settled_member (h : AllSettled fields) (name : String) : (member fields name).Settled := by
  unfold member
  split
  · rename_i f hf
    exact h f (List.mem_of_find?_eq_some hf)
  · exact settled_ignored

def afterValue (fields : List (Field σ)) (fuel : Nat) :
    Option (σ × List Char) → Option (σ × List Char)
  | none => none
  | some (s, rest) =>
    match skipSpace rest with
    | '\x7d' :: rest => some (s, rest)
    | ',' :: rest => members fields fuel s rest
    | _ => none

/-- One member: its name, the colon and its value. -/
theorem members_eq (h : AllSettled fields) {m : Member} (hm : m.Labelled) (fuel : Nat) (s : σ)
    (tail : List Char) :
    members fields (fuel + 1) s (m.text ++ tail) =
      afterValue fields fuel
        (member fields m.name s (m.value.token ++ (m.value.after ++ tail))) := by
  have hvalue := (settled_member h m.name).text_append hm.value s tail
  have hname := hm.name
  generalize hlabel : m.label.token = label at hname
  generalize hnm : m.name = name at hname
  rw [hnm] at hvalue
  cases hname with
  | @quoted body us hb =>
      rw [Member.text, Spaced.text, hlabel]
      simp only [List.append_assoc, List.cons_append, List.nil_append]
      rw [members, hm.label.1.skipSpace_append, skipSpace_cons (by decide)]
      simp only [restOfText_append hb,
        skipSpace_after hm.label.2 (show isSpace ':' = false by decide), hvalue]
      rfl

variable (h : AllSettled fields) {m : Member} (hm : m.Labelled)
include h hm

theorem Admits.members_close (ha : Admits fields m) (fuel : Nat) (s : σ) (rest : List Char) :
    members fields (fuel + 1) s (m.text ++ '\x7d' :: rest) =
      some (afterMember fields s m, rest) := by
  have hend : Ends (m.value.after ++ '\x7d' :: rest) :=
    hm.value.2.ends_append (ends_cons (by decide))
  rw [members_eq h hm, ha s _ hend, afterValue]
  simp only [skipSpace_after hm.value.2 (show isSpace '\x7d' = false by decide)]
  rfl

theorem Admits.members_comma (ha : Admits fields m) (fuel : Nat) (s : σ) (cs : List Char) :
    members fields (fuel + 1) s (m.text ++ ',' :: cs) =
      members fields fuel (afterMember fields s m) cs := by
  have hend : Ends (m.value.after ++ ',' :: cs) :=
    hm.value.2.ends_append (ends_cons (by decide))
  rw [members_eq h hm, ha s _ hend, afterValue]
  simp only [skipSpace_after hm.value.2 (show isSpace ',' = false by decide)]
  rfl

/-- A record cannot go on after a member that is not taken. -/
theorem members_of_refuses (hr : (member fields m.name).Refuses m.value.token) (fuel : Nat) (s : σ)
    {tail : List Char} (ht : Ends tail) : members fields fuel s (m.text ++ tail) = none := by
  cases fuel with
  | zero => rfl
  | succ fuel =>
      rw [members_eq h hm]
      rcases hr s (m.value.after ++ tail) (hm.value.2.ends_append ht) with
        hn | ⟨a, c, cs, hc, hmark⟩
      · rw [hn, afterValue]
      · rw [hc]
        rcases hmark with rfl | rfl | rfl <;> rfl

end

section
variable {σ : Type} {fields : List (Field σ)} (h : AllSettled fields)
include h

theorem members_takes {ms : List Member} (hne : ms ≠ []) (hl : ∀ m ∈ ms, m.Labelled)
    (ha : ∀ m ∈ ms, Admits fields m) {fuel : Nat} (hf : ms.length ≤ fuel) (s : σ)
    (rest : List Char) :
    members fields fuel s (commaJoin (ms.map Member.text) ++ '\x7d' :: rest) =
      some (ms.foldl (afterMember fields) s, rest) := by
  induction ms generalizing fuel s with
  | nil => exact absurd rfl hne
  | cons m more ih =>
      obtain ⟨hlm, hlmore⟩ := List.forall_mem_cons.mp hl
      obtain ⟨ham, hamore⟩ := List.forall_mem_cons.mp ha
      cases fuel with
      | zero => exact absurd hf (by simp)
      | succ fuel =>
          cases more with
          | nil => exact ham.members_close h hlm fuel s rest
          | cons n more =>
              rw [List.map_cons, List.map_cons, commaJoin, List.append_assoc, List.cons_append,
                ham.members_comma h hlm, ← List.map_cons,
                ih (List.cons_ne_nil n more) hlmore hamore (Nat.le_of_succ_le_succ hf)]
              rfl

theorem members_refuses {ms : List Member} (hl : ∀ m ∈ ms, m.Labelled)
    (hsettles : ∀ m ∈ ms, Admits fields m ∨ (member fields m.name).Refuses m.value.token)
    (hex : ∃ m ∈ ms, ¬Admits fields m) (fuel : Nat) (s : σ) (rest : List Char) :
    members fields fuel s (commaJoin (ms.map Member.text) ++ '\x7d' :: rest) = none := by
  induction ms generalizing fuel s with
  | nil =>
      obtain ⟨m, hm, _⟩ := hex
      cases hm
  | cons m more ih =>
      obtain ⟨hlm, hlmore⟩ := List.forall_mem_cons.mp hl
      obtain ⟨hsm, hsmore⟩ := List.forall_mem_cons.mp hsettles
      cases more with
      | nil =>
          obtain ⟨n, hn, hnot⟩ := hex
          rw [List.mem_singleton.mp hn] at hnot
          exact members_of_refuses h hlm (hsm.resolve_left hnot) fuel s (ends_cons (by decide))
      | cons n more =>
          rw [List.map_cons, List.map_cons, commaJoin, List.append_assoc, List.cons_append,
            ← List.map_cons]
          rcases hsm with ham | hrm
          · cases fuel with
            | zero => rfl
            | succ fuel =>
                have hmore : ∃ k ∈ n :: more, ¬Admits fields k := by
                  obtain ⟨k, hk, hnot⟩ := hex
                  rcases List.mem_cons.mp hk with rfl | hk
                  · exact absurd ham hnot
                  · exact ⟨k, hk, hnot⟩
                rw [Admits.members_comma h hlm ham, ih hlmore hsmore hmore]
          · exact members_of_refuses h hlm hrm fuel s (ends_cons (by decide))

end

section
variable {σ : Type} {fields : List (Field σ)}

theorem members_skipSpace (fuel : Nat) (s : σ) (cs : List Char) :
    members fields fuel s (skipSpace cs) = members fields fuel s cs := by
  cases fuel with
  | zero => rfl
  | succ fuel => rw [members, members, skipSpace_skipSpace]

/-- The members of an object are read with fuel enough for all of them. -/
theorem record_members {ms : List Member} (hne : ms ≠ []) (hl : ∀ m ∈ ms, m.Labelled) (old : σ)
    (rest : List Char) :
    ∃ fuel, ms.length ≤ fuel ∧
      record fields old ('\x7b' :: (commaJoin (ms.map Member.text) ++ ['\x7d']) ++ rest) =
        members fields fuel old (commaJoin (ms.map Member.text) ++ '\x7d' :: rest) := by
  cases ms with
  | nil => exact absurd rfl hne
  | cons m more =>
      have hm := hl m List.mem_cons_self
      obtain ⟨cs, hlabel⟩ := hm.name.head
      have hfirst : commaJoin ((m :: more).map Member.text) = m.label.before ++
          '"' :: commaJoin ((cs ++ (m.label.after ++ ':' :: m.value.text)) ::
            more.map Member.text) := by
        have htext : m.text = (m.label.before ++ ['"']) ++
            (cs ++ (m.label.after ++ ':' :: m.value.text)) := by
          simp [Member.text, Spaced.text, hlabel]
        rw [List.map_cons, htext, commaJoin_append, List.append_assoc, List.singleton_append]
      generalize htail : commaJoin ((cs ++ (m.label.after ++ ':' :: m.value.text)) ::
        more.map Member.text) = tail at hfirst
      have hlength := length_le_commaJoin ((cs ++ (m.label.after ++ ':' :: m.value.text)) ::
        more.map Member.text)
      rw [htail, List.length_cons, List.length_map] at hlength
      have hskip : skipSpace (commaJoin ((m :: more).map Member.text) ++ '\x7d' :: rest) =
          '"' :: (tail ++ '\x7d' :: rest) := by
        rw [hfirst, List.append_assoc, List.cons_append, skipSpace_after hm.label.1 (by decide)]
      refine ⟨('"' :: (tail ++ '\x7d' :: rest)).length + 1, ?_, ?_⟩
      · simp only [List.length_cons, List.length_append]
        omega
      · rw [List.cons_append, List.append_assoc, List.singleton_append, record,
          skipSpace_cons (by decide), ← members_skipSpace]
        simp only [hskip]
        rfl

/-- A record takes an object when its members are taken. -/
theorem record_takes (h : AllSettled fields) {depth : Nat} {ms : List Member} {token : List Char}
    (ho : IsObject depth ms token) (ha : ∀ m ∈ ms, Admits fields m) (old : σ)
    (rest : List Char) :
    record fields old (token ++ rest) = some (ms.foldl (afterMember fields) old, rest) := by
  cases ho with
  | empty hw =>
      rw [List.cons_append, List.append_assoc, List.singleton_append, record,
        skipSpace_cons (by decide)]
      simp only [skipSpace_after hw (show isSpace '\x7d' = false by decide)]
      rfl
  | members hne hl hv =>
      obtain ⟨fuel, hfuel, hread⟩ := record_members hne hl old rest
      rw [hread, members_takes h hne hl ha hfuel]

theorem record_refuses (h : AllSettled fields) {depth : Nat} {ms : List Member}
    {token : List Char} (ho : IsObject depth ms token)
    (hsettles : ∀ m ∈ ms, Admits fields m ∨ (member fields m.name).Refuses m.value.token)
    (hex : ∃ m ∈ ms, ¬Admits fields m) (old : σ) (rest : List Char) :
    record fields old (token ++ rest) = none := by
  cases ho with
  | empty hw =>
      obtain ⟨m, hm, _⟩ := hex
      cases hm
  | members hne hl hv =>
      obtain ⟨fuel, _, hread⟩ := record_members hne hl old rest
      rw [hread, members_refuses h hl hsettles hex]

theorem record_of_ne {c : Char} (hs : isSpace c = false) (ho : c ≠ '\x7b') (hn : c ≠ 'n') (old : σ)
    (cs : List Char) : record fields old (c :: cs) = none := by
  rw [record, skipSpace_cons hs]
  split
  · rename_i he
    cases he
    exact absurd rfl ho
  · rw [afterNull?_of_ne hn]
    rfl

/-- No member is left open as long as the object is not nested too deep. -/
theorem settles_members (h : AllSettled fields) {depth : Nat} (hd : depth ≤ fieldDepth)
    {ms : List Member} {token : List Char} (ho : IsObject depth ms token) :
    ∀ m ∈ ms, Admits fields m ∨ (member fields m.name).Refuses m.value.token := by
  intro m hm
  exact (settled_member h m.name).settles depth _ (ho.isValue_of_mem hm) hd

theorem settles_record_object (h : AllSettled fields) {depth : Nat} (hd : depth ≤ fieldDepth)
    {ms : List Member} {token : List Char} (ho : IsObject depth ms token) :
    (record fields).Takes token ∨ (record fields).Refuses token := by
  by_cases ha : ∀ m ∈ ms, Admits fields m
  · exact .inl (takes_of_eq (ms.foldl (afterMember fields)) fun old rest _ =>
      record_takes h ho ha old rest)
  · simp only [not_forall, exists_prop] at ha
    exact .inr (refuses_of_eq_none fun old rest =>
      record_refuses h ho (settles_members h hd ho) ha old rest)

theorem settled_record (h : AllSettled fields) : (record fields).Settled where
  skips old cs := by rw [record, record, skipSpace_skipSpace]
  settles depth token hv hd := by
    have hother : ∀ c cs, isSpace c = false → c ≠ '\x7b' → c ≠ 'n' →
        (record fields).Refuses (c :: cs) :=
      fun c cs hs ho hn => refuses_of_eq_none fun old rest => record_of_ne hs ho hn old (cs ++ rest)
    cases hv with
    | word hw =>
        simp only [List.mem_cons, List.not_mem_nil, or_false] at hw
        rcases hw with rfl | rfl | rfl
        · exact .inl (takes_of_eq id fun old rest _ => rfl)
        · exact .inr (hother _ _ (by decide) (by decide) (by decide))
        · exact .inr (hother _ _ (by decide) (by decide) (by decide))
    | number hn =>
        obtain ⟨c, cs, rfl, hs, hne⟩ := hn.head_ne
        exact .inr (hother c cs hs (hne _ (by decide)) (hne _ (by decide)))
    | string hs =>
        obtain ⟨cs, rfl⟩ := hs.head
        exact .inr (hother _ _ (by decide) (by decide) (by decide))
    | emptyObject hw => exact settles_record_object h (Nat.le_of_succ_le hd) (.empty hw)
    | object hne hl hv => exact settles_record_object h (Nat.le_of_succ_le hd) (.members hne hl hv)
    | _ => exact .inr (hother _ _ (by decide) (by decide) (by decide))

end

end Stepwise.Json.Reader
