import Stepwise.Proofs.RequestHead
import Stepwise.Proofs.SessionRun

/-!
# Replies to texts

Whether a text is answered, and under which identity, is decided by its members.
For a text that is a JSON object with a string for its kind, both records of a
request agree on the head. So a question is answered once and under its own
identity, however its other members are written.

The limit on nesting is part of this. A text that is nested deeper cannot be read
at all, not even its head.
-/
namespace Stepwise

open Json
open Json.Reader

/-- All members of a request are of the types that its fields ask for. -/
def Envelope.Decodes (ms : List Member) : Prop :=
  ∀ m ∈ ms, Admits Envelope.fields m

def Envelope.ofMembers (ms : List Member) : Envelope :=
  ms.foldl (afterMember Envelope.fields) .blank

section
variable {depth : Nat} {ms : List Member} {t kindName : String}

theorem isValue_of_mem {cs : List Char} (ho : IsObjectText depth ms cs) :
    ∀ m ∈ ms, IsValue depth m.value.token := by
  cases ho with
  | spaced _ hobj _ => exact fun m hm => hobj.isValue_of_mem hm

/-- The head alone is always read: an identity may be anything, and a kind is a string. -/
theorem admits_head (hd : depth ≤ fieldDepth) {m : Member} (hv : IsValue depth m.value.token)
    (hs : m.isNamed "type" = true → ∃ text, IsString m.value.token text) :
    Admits RequestError.headFields m := by
  rw [← RequestError.head_fields, Admits]
  by_cases hid : m.isNamed "id" = true
  · rw [RequestError.head.member_id hid]
    exact takes_field _ _ _ (takes_raw hv hd)
  by_cases htype : m.isNamed "type" = true
  · obtain ⟨text, hstring⟩ := hs htype
    rw [RequestError.head.member_type htype]
    exact takes_field _ _ _ (takes_string hstring)
  have hne : ∀ name, asciiLower name = name → ¬m.isNamed name = true →
      asciiLower name ≠ asciiLower m.name :=
    fun name hlower hn he => hn (beq_iff_eq.mpr (he.symm.trans hlower))
  have hignored : member RequestError.head.fields m.name = ignored :=
    (member_field_of_ne (hne "id" asciiLower_id hid)).trans
      (member_field_of_ne (hne "type" asciiLower_type htype))
  rw [hignored]
  exact takes_ignored hv hd

variable (hd : depth ≤ fieldDepth) (ho : IsObjectText depth ms t.toList)
include hd ho

theorem recover_eq (ht : TypeIs ms kindName) :
    RequestError.recover t = ⟨requestId ms, kindName, .malformed⟩ := by
  have hv := isValue_of_mem ho
  have hrun := run_takes RequestError.head.settled_fields ho
    (fun m hm => admits_head hd (hv m hm) (ht.strings m hm)) (none, "")
  have hid := RequestError.head.id_foldl hd hv (s := (none, "")) rfl
  have hkind := RequestError.head.kind_foldl ht (none, "")
  rw [RequestError.recover, ← RequestError.head_fields, hrun, ← hid, ← hkind]
  rfl

theorem run_envelope (ht : TypeIs ms kindName) (ha : Envelope.Decodes ms) :
    Envelope.reader.run .blank t = some (Envelope.ofMembers ms) ∧
      (Envelope.ofMembers ms).id = requestId ms ∧ (Envelope.ofMembers ms).kindName = kindName := by
  refine ⟨run_takes Envelope.head.settled_fields ho ha .blank, ?_, ?_⟩
  · exact Envelope.head.id_foldl hd (isValue_of_mem ho) rfl
  · exact Envelope.head.kind_foldl ht .blank

theorem decode_of_decodes (ht : TypeIs ms kindName) (ha : Envelope.Decodes ms)
    {kind : RequestKind} (hk : RequestKind.ofName? kindName = some kind) :
    Request.decode t = .ok ((Envelope.ofMembers ms).request kind) := by
  obtain ⟨hrun, _, hkind⟩ := run_envelope hd ho ht ha
  rw [Request.decode, hrun]
  simp only [hkind, hk]

theorem decode_of_unknown (ht : TypeIs ms kindName) (ha : Envelope.Decodes ms)
    (hk : RequestKind.ofName? kindName = none) :
    Request.decode t = .error ⟨requestId ms, kindName, .unknownKind⟩ := by
  obtain ⟨hrun, hid, hkind⟩ := run_envelope hd ho ht ha
  rw [Request.decode, hrun]
  simp only [hid, hkind, hk]

theorem decode_of_not_decodes (ht : TypeIs ms kindName) (hn : ¬Envelope.Decodes ms) :
    Request.decode t = .error ⟨requestId ms, kindName, .malformed⟩ := by
  have hsettles : ∀ m ∈ ms, Admits Envelope.fields m ∨
      (member Envelope.fields m.name).Refuses m.value.token :=
    fun m hm => (settled_member Envelope.head.settled_fields m.name).settles depth _
      (isValue_of_mem ho m hm) hd
  simp only [Envelope.Decodes, not_forall, exists_prop] at hn
  have hrun : Envelope.reader.run .blank t = none :=
    run_refuses Envelope.head.settled_fields ho hsettles hn .blank
  rw [Request.decode, hrun]
  simp only [recover_eq hd ho ht]

end

/-! ## Questions with one more member -/

/-- A member without white space. -/
def bareMember (name : String) (value : List Char) : Member :=
  ⟨name, ⟨[], quoted name, []⟩, ⟨[], value, []⟩⟩

/-- An object without white space. -/
def bareObject (ms : List Member) : List Char :=
  '\x7b' :: (commaJoin (ms.map Member.text) ++ ['\x7d'])

/-- A question about syntax with an identity and one more member. -/
def checkQuestion (name : String) (value : List Char) : List Member :=
  [bareMember "type" (quoted "CheckSyntax"), bareMember "id" ['1'], bareMember name value]

theorem isValue_checkSyntax (depth : Nat) : IsValue depth (quoted "CheckSyntax") :=
  .string (isString_quoted (by decide))

theorem isValue_one (depth : Nat) : IsValue depth ['1'] :=
  .number (isNumber_digit (by decide) (by decide))

theorem isObject_checkQuestion {depth : Nat} {name : String} {value : List Char}
    (hname : name.toList.all isLiteral = true) (hv : IsValue depth value) :
    IsObject depth (checkQuestion name value) (bareObject (checkQuestion name value)) := by
  have hlabel : ∀ {key : String} {v : List Char}, key.toList.all isLiteral = true →
      (bareMember key v).Labelled :=
    fun hkey => ⟨⟨blank_nil, blank_nil⟩, isString_quoted hkey, ⟨blank_nil, blank_nil⟩⟩
  have hl : ∀ m ∈ checkQuestion name value, m.Labelled := by
    intro m hm
    simp only [checkQuestion, List.mem_cons, List.not_mem_nil, or_false] at hm
    rcases hm with rfl | rfl | rfl
    · exact hlabel (by decide)
    · exact hlabel (by decide)
    · exact hlabel hname
  have hvalues : ∀ m ∈ checkQuestion name value, IsValue depth m.value.token := by
    intro m hm
    simp only [checkQuestion, List.mem_cons, List.not_mem_nil, or_false] at hm
    rcases hm with rfl | rfl | rfl
    · exact isValue_checkSyntax depth
    · exact isValue_one depth
    · exact hv
  exact .members (List.cons_ne_nil _ _) hl hvalues

theorem isObjectText_checkQuestion {depth : Nat} {name : String} {value : List Char}
    (hname : name.toList.all isLiteral = true) (hv : IsValue depth value) :
    IsObjectText depth (checkQuestion name value) (bareObject (checkQuestion name value)) :=
  (isObject_checkQuestion hname hv).isObjectText

theorem typeIs_checkQuestion {name : String} (hname : (asciiLower name == "type") = false)
    (value : List Char) : TypeIs (checkQuestion name value) "CheckSyntax" := by
  refine .of_head (by decide) (isString_quoted (by decide)) (List.forall_mem_cons.mpr ⟨?_, ?_⟩)
  · decide
  · exact List.forall_mem_singleton.mpr hname

namespace Session

/-- What a question needs for an answer: completions need nothing, all others an open
document, and two of them something to be found. -/
def Finds (s : Session) (e : Envelope) : QueryKind → Prop
  | .completions => True
  | .codeActions => ∃ d, s.store.get? e.uri = some d
  | .folding => ∃ d, s.store.get? e.uri = some d
  | .links => ∃ d, s.store.get? e.uri = some d
  | .checkSyntax => ∃ d, s.store.get? e.uri = some d
  | .hover => ∃ d, s.store.get? e.uri = some d ∧
      (d.hover? s.configuration e.lineNumber e.column).isSome = true
  | .linkData => ∃ d, s.store.get? e.uri = some d ∧
      (s.configuration.linkTarget? (Envelope.linkName e.data)).isSome = true

/-- A question that can be read is answered under its identity. -/
theorem ask_reply (s : Session) (id : Option String) (e : Envelope) (kind : QueryKind) :
    ∃ answer, (s.ask id (e.question kind)).reply = some ⟨id, answer⟩ ∧
      (answer.isSome = true ↔ s.Finds e kind) := by
  by_cases hk : kind = .completions
  · subst hk
    exact ⟨_, rfl, fun _ => trivial, fun _ => rfl⟩
  · have huri : (e.question kind).uri? = some e.uri := by
      cases kind with
      | completions => exact absurd rfl hk
      | _ => rfl
    cases hd : s.store.get? e.uri with
    | none =>
        rw [s.ask_of_closed id huri hd]
        refine ⟨none, rfl, nofun, fun hf => ?_⟩
        cases kind with
        | completions => exact absurd rfl hk
        | hover =>
            obtain ⟨d, hs, _⟩ := hf
            rw [hd] at hs
            cases hs
        | linkData =>
            obtain ⟨d, hs, _⟩ := hf
            rw [hd] at hs
            cases hs
        | _ =>
            obtain ⟨d, hs⟩ := hf
            rw [hd] at hs
            cases hs
    | some d =>
        rw [s.ask_of_open id huri hd]
        refine ⟨(s.resolve d (e.question kind)).1, rfl, ?_⟩
        cases kind with
        | completions => exact absurd rfl hk
        | hover => simp [Finds, hd, Envelope.question, resolve]
        | linkData => simp [Finds, hd, Envelope.question, resolve]
        | _ => exact ⟨fun _ => ⟨d, hd⟩, fun _ => rfl⟩

theorem processText_of_ok (s : Session) {t : String} {r : Request}
    (h : Request.decode t = .ok r) : s.processText t = s.process r := by
  rw [processText, h]

theorem processText_of_error (s : Session) {t : String} {e : RequestError}
    (h : Request.decode t = .error e) :
    (s.processText t).session = s ∧ (s.processText t).reply =
      if RequestKind.isQueryName e.kindName || e.id.isSome then some (.failed e.id) else none := by
  rw [processText, h]
  exact ⟨rfl, rfl⟩

/-- The reply to a text that is no request and no question: a failure if it has an identity. -/
theorem failed_reply {id : Option String} {kindName : String}
    (h : RequestKind.isQueryName kindName = false) :
    (if RequestKind.isQueryName kindName || id.isSome then some (Reply.failed id) else none) =
      id.map fun id => .failed (some id) := by
  rw [h]
  cases id <;> rfl

section
variable {depth : Nat} {ms : List Member} {t kindName : String}

/-- A text that is no request is answered when it is a question or has an identity, and
changes nothing. -/
theorem processText_of_not_decodes (s : Session) (hd : depth ≤ fieldDepth)
    (ho : IsObjectText depth ms t.toList) (ht : TypeIs ms kindName)
    (hn : ¬Envelope.Decodes ms ∨ RequestKind.ofName? kindName = none) :
    (s.processText t).session = s ∧ (s.processText t).reply =
      if RequestKind.isQueryName kindName || (requestId ms).isSome then
        some (.failed (requestId ms))
      else none := by
  by_cases ha : Envelope.Decodes ms
  · have hk := hn.resolve_left (not_not_intro ha)
    exact s.processText_of_error (decode_of_unknown hd ho ht ha hk)
  · exact s.processText_of_error (decode_of_not_decodes hd ho ht ha)

theorem processText_of_decodes (s : Session) (hd : depth ≤ fieldDepth)
    (ho : IsObjectText depth ms t.toList) (ht : TypeIs ms kindName) (ha : Envelope.Decodes ms)
    {kind : RequestKind} (hk : RequestKind.ofName? kindName = some kind) :
    s.processText t = s.process ((Envelope.ofMembers ms).request kind) :=
  s.processText_of_ok (decode_of_decodes hd ho ht ha hk)

theorem processText_query (s : Session) (hd : depth ≤ fieldDepth)
    (ho : IsObjectText depth ms t.toList) (ht : TypeIs ms kindName) {kind : QueryKind}
    (hk : RequestKind.ofName? kindName = some (.query kind)) :
    ∃ answer, (s.processText t).reply = some ⟨requestId ms, answer⟩ ∧
      (answer.isSome = true ↔ Envelope.Decodes ms ∧ s.Finds (.ofMembers ms) kind) := by
  by_cases ha : Envelope.Decodes ms
  · obtain ⟨_, hid, _⟩ := run_envelope hd ho ht ha
    obtain ⟨answer, hreply, hsome⟩ := s.ask_reply (requestId ms) (.ofMembers ms) kind
    refine ⟨answer, ?_, by rw [hsome, and_iff_right ha]⟩
    rw [s.processText_of_decodes hd ho ht ha hk, Envelope.request, hid]
    exact hreply
  · have hquery : RequestKind.isQueryName kindName = true := by rw [RequestKind.isQueryName, hk]
    refine ⟨none, ?_, nofun, fun h => absurd h.1 ha⟩
    rw [(s.processText_of_not_decodes hd ho ht (.inl ha)).2, hquery]
    rfl

/-- Every question is answered exactly once and under its own identity. For a text that is
a JSON object, nested at most to the limit of the readers, with a string wherever a kind
is read: a question has one reply with its identity, and data in it exactly when all
members decode and what it asks about is found. Any other request has no reply when its
members decode. Else, and when the kind is unknown, there is a failed reply exactly when
there is an identity. A text that is no request changes nothing. -/
theorem processText_answers_once (s : Session) (t kindName : String) (depth : Nat)
    (ms : List Member) (hd : depth + 1 ≤ maxDepth) (ho : IsObjectText depth ms t.toList)
    (ht : TypeIs ms kindName) :
    (∀ kind, RequestKind.ofName? kindName = some (.query kind) →
      ∃ answer, (s.processText t).reply = some ⟨requestId ms, answer⟩ ∧
        (answer.isSome = true ↔ Envelope.Decodes ms ∧ s.Finds (.ofMembers ms) kind)) ∧
    (∀ kind, RequestKind.ofName? kindName = some kind → (∀ q, kind ≠ .query q) →
      (Envelope.Decodes ms → (s.processText t).reply = none) ∧
      (¬Envelope.Decodes ms →
        (s.processText t).reply = (requestId ms).map fun id => .failed (some id))) ∧
    (RequestKind.ofName? kindName = none →
      (s.processText t).reply = (requestId ms).map fun id => .failed (some id)) ∧
    (¬Envelope.Decodes ms ∨ RequestKind.ofName? kindName = none →
      (s.processText t).session = s) := by
  have hdepth : depth ≤ fieldDepth := Nat.le_sub_of_add_le hd
  refine ⟨?_, ?_, ?_, ?_⟩
  · intro kind hk
    exact s.processText_query hdepth ho ht hk
  · intro kind hk hother
    refine ⟨fun ha => ?_, fun ha => ?_⟩
    · rw [s.processText_of_decodes hdepth ho ht ha hk]
      cases kind with
      | query q => exact absurd rfl (hother q)
      | _ => rfl
    · have hquery : RequestKind.isQueryName kindName = false := by
        rw [RequestKind.isQueryName, hk]
        cases kind with
        | query q => exact absurd rfl (hother q)
        | _ => rfl
      rw [(s.processText_of_not_decodes hdepth ho ht (.inl ha)).2, failed_reply hquery]
  · intro hk
    have hquery : RequestKind.isQueryName kindName = false := by rw [RequestKind.isQueryName, hk]
    rw [(s.processText_of_not_decodes hdepth ho ht (.inr hk)).2, failed_reply hquery]
  · intro hn
    exact (s.processText_of_not_decodes hdepth ho ht hn).1

end

/-- The address of this question is no text. It is answered all the same. -/
theorem processText_answers_once_badAddress :
    let t := "\x7b\"type\":\"CheckSyntax\",\"id\":1,\"uri\":5\x7d"
    IsObjectText 0 (checkQuestion "uri" ['5']) t.toList ∧
      TypeIs (checkQuestion "uri" ['5']) "CheckSyntax" ∧
      ∃ answer, (initial.processText t).reply = some ⟨some "1", answer⟩ := by
  intro t
  have htext : t.toList = bareObject (checkQuestion "uri" ['5']) := by decide
  have ho : IsObjectText 0 (checkQuestion "uri" ['5']) t.toList := by
    rw [htext]
    exact isObjectText_checkQuestion (by decide) (.number (isNumber_digit (by decide) (by decide)))
  have ht : TypeIs (checkQuestion "uri" ['5']) "CheckSyntax" :=
    typeIs_checkQuestion (by decide) ['5']
  obtain ⟨hquestion, _⟩ := processText_answers_once initial t "CheckSyntax" 0 _ (by decide) ho ht
  obtain ⟨answer, hreply, _⟩ := hquestion .checkSyntax (by decide)
  exact ⟨ho, ht, answer, hreply⟩

end Session

/-! ## Questions that are not read at all -/

def brackets (n : Nat) : List Char :=
  List.replicate n '[' ++ List.replicate n ']'

theorem brackets_succ (n : Nat) : brackets (n + 1) = '[' :: (brackets n ++ [']']) := by
  rw [brackets, brackets, List.replicate_succ, List.replicate_succ', List.cons_append,
    List.append_assoc]

theorem isValue_brackets {n : Nat} (hn : 0 < n) : IsValue n (brackets n) := by
  induction n with
  | zero => exact absurd hn (Nat.lt_irrefl 0)
  | succ n ih =>
      rw [brackets_succ]
      cases n with
      | zero => exact .emptyArray blank_nil
      | succ n =>
          have hitem : ∀ i ∈ [(⟨[], brackets (n + 1), []⟩ : Spaced)],
              i.Bare ∧ IsValue (n + 1) i.token := by
            intro i hi
            rw [List.mem_singleton.mp hi]
            exact ⟨⟨blank_nil, blank_nil⟩, ih (Nat.succ_pos n)⟩
          have h := IsValue.array (List.cons_ne_nil _ _) (fun i hi => (hitem i hi).1)
            fun i hi => (hitem i hi).2
          rwa [List.map_singleton, commaJoin, Spaced.text, List.nil_append, List.append_nil] at h

theorem nestsWithin_replicate {n : Nat} {room : Int} (hr : 0 ≤ room) (hn : room < n)
    (rest : List Char) : nestsWithin room false (List.replicate n '[' ++ rest) = false := by
  induction n generalizing room with
  | zero => exact absurd hn (by omega)
  | succ n ih =>
      rw [List.replicate_succ, List.cons_append, nestsWithin_open (.inl rfl)]
      by_cases hpos : 0 < room
      · rw [ih (by omega) (by omega), Bool.and_false]
      · rw [decide_eq_false hpos, Bool.false_and]

/-- A member that stops both records leaves neither kind nor identity, so there is no reply. -/
theorem unanswered_of_refused {depth : Nat} {name : String} {value : List Char}
    (hname : name.toList.all isLiteral = true) (hv : IsValue depth value)
    (he : (member Envelope.fields name).Refuses value)
    (hh : (member RequestError.headFields name).Refuses value) {t : String}
    (ht : t.toList = bareObject (checkQuestion name value)) (s : Session) :
    (s.processText t).reply = none := by
  have ho : IsObjectText depth (checkQuestion name value) t.toList := by
    rw [ht]
    exact isObjectText_checkQuestion hname hv
  have hmem : bareMember name value ∈ checkQuestion name value := by simp [checkQuestion]
  have hsettles : ∀ {σ : Type} {fields : List (Reader.Field σ)}, AllSettled fields →
      (member fields name).Refuses value → ∀ m ∈ checkQuestion name value,
      Admits fields m ∨ (member fields m.name).Refuses m.value.token := by
    intro σ fields hfields hrefuses m hm
    simp only [checkQuestion, List.mem_cons, List.not_mem_nil, or_false] at hm
    rcases hm with rfl | rfl | rfl
    · exact (settled_member hfields _).settles 0 _ (isValue_checkSyntax 0) (Nat.zero_le _)
    · exact (settled_member hfields _).settles 0 _ (isValue_one 0) (Nat.zero_le _)
    · exact .inr hrefuses
  have hrun : Envelope.reader.run .blank t = none :=
    run_refuses Envelope.head.settled_fields ho (hsettles Envelope.head.settled_fields he)
      ⟨_, hmem, he.not_takes .blank⟩ .blank
  have hhead : (record RequestError.headFields).run (none, "") t = none :=
    run_refuses RequestError.head.settled_fields ho (hsettles RequestError.head.settled_fields hh)
      ⟨_, hmem, hh.not_takes (none, "")⟩ (none, "")
  have hdecode : Request.decode t = .error ⟨none, "", .malformed⟩ := by
    rw [Request.decode, hrun]
    simp only [RequestError.recover, hhead]
  rw [(s.processText_of_error hdecode).2]
  rfl

/-- Data below too many brackets stops both records. -/
theorem unanswered_of_brackets {n : Nat} (hn : maxDepth ≤ n) (s : Session) :
    (s.processText (String.ofList (bareObject (checkQuestion "data" (brackets n))))).reply =
      none := by
  have hpos : 0 < n := Nat.lt_of_lt_of_le (by decide) hn
  have hroom : fieldDepth < n := Nat.lt_of_lt_of_le (by decide) hn
  have hdeep : nestsWithin fieldDepth false (brackets n) = false :=
    nestsWithin_replicate (by omega) (by omega) _
  have hv := isValue_brackets hpos
  have he : (member Envelope.fields "data").Refuses (brackets n) :=
    refuses_field _ _ _ (refuses_raw hv hdeep)
  have hh : (member RequestError.headFields "data").Refuses (brackets n) :=
    refuses_ignored hv hdeep
  exact unanswered_of_refused (by decide) hv he hh String.toList_ofList s

/-- Two questions with a string for their type that have no reply. In the first another
spelling of the type is no string, and the second has data below too many brackets. -/
theorem checkSyntax_unanswered :
    (IsObjectText 0 (checkQuestion "TYPE" ['1'])
        "\x7b\"type\":\"CheckSyntax\",\"id\":1,\"TYPE\":1\x7d".toList ∧
      (∀ m ∈ checkQuestion "TYPE" ['1'], m.name = "type" → m.value.token = quoted "CheckSyntax") ∧
      (Session.initial.processText
        "\x7b\"type\":\"CheckSyntax\",\"id\":1,\"TYPE\":1\x7d").reply = none) ∧
    (IsObjectText 10000 (checkQuestion "data" (brackets 10000))
        (bareObject (checkQuestion "data" (brackets 10000))) ∧
      TypeIs (checkQuestion "data" (brackets 10000)) "CheckSyntax" ∧
      (Session.initial.processText
        (String.ofList (bareObject (checkQuestion "data" (brackets 10000))))).reply = none) := by
  have htext : "\x7b\"type\":\"CheckSyntax\",\"id\":1,\"TYPE\":1\x7d".toList =
      bareObject (checkQuestion "TYPE" ['1']) := by
    decide
  refine ⟨⟨?_, ?_, ?_⟩, ?_, ?_, ?_⟩
  · rw [htext]
    exact isObjectText_checkQuestion (by decide) (isValue_one 0)
  · intro m hm hname
    simp only [checkQuestion, List.mem_cons, List.not_mem_nil, or_false] at hm
    rcases hm with rfl | rfl | rfl
    · rfl
    · exact absurd hname (by decide)
    · exact absurd hname (by decide)
  · decide +kernel
  · exact isObjectText_checkQuestion (by decide) (isValue_brackets (by decide))
  · exact typeIs_checkQuestion (by decide) _
  · exact unanswered_of_brackets (by decide) Session.initial

end Stepwise
