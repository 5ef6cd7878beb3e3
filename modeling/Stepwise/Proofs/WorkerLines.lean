import Stepwise.Proofs.JsonLines
import Stepwise.Proofs.JsonStreams
import Stepwise.Proofs.NumberText
import Stepwise.Proofs.RequestReplies
import Stepwise.Session.Worker

/-!
# The lines of a worker

A worker answers the requests of a stream in their order and writes each reply on a line of
its own. No reply breaks its line: an answer is rendered without control characters, and an
identity is a value of the grammar, which compaction puts on one line however it is spread
out in the request.

Two things end the work early. One is a broken end of the stream; the replies to all requests
before it are written by then. The other is a reply that cannot be written, because its
identity holds a number without a double; the replies before it are written, and nothing more
is read.
-/
namespace Stepwise

open Json
open Json.Reader

/-! ## Answers as JSON -/

theorem Json.writable_ofInt (n : Int) : (ofInt n).Writable :=
  .number (Number.isNumber_int n)

theorem Json.writable_ofNat (n : Nat) : (ofNat n).Writable :=
  .number (Number.isNumber_int n)

theorem Json.writable_record {members : List (String × Option Json)}
    (h : ∀ m ∈ members, ∀ v ∈ m.2, v.Writable) : (record members).Writable := by
  refine .object fun m hm => ?_
  obtain ⟨n, hn, he⟩ := List.mem_filterMap.mp hm
  obtain ⟨v, hv, rfl⟩ := Option.map_eq_some_iff.mp he
  exact h n hn v hv

theorem Json.writable_some {v : Json} (h : v.Writable) : ∀ w ∈ some v, w.Writable :=
  fun _ hw => Option.mem_some.mp hw ▸ h

theorem Json.writable_nonEmpty (text : String) : ∀ v ∈ nonEmpty text, v.Writable := by
  unfold nonEmpty
  split
  · exact nofun
  · exact writable_some .string

theorem Json.writable_map {α : Type} {f : α → Json} (h : ∀ a, (f a).Writable) (items : List α) :
    (array (items.map f)).Writable :=
  .array (List.forall_mem_map.mpr fun a _ => h a)

theorem Span.writable_members (s : Span) : ∀ m ∈ s.members, m.2.Writable := by
  simp only [Span.members, List.forall_mem_cons]
  exact ⟨writable_ofInt _, writable_ofInt _, writable_ofInt _, writable_ofInt _, nofun⟩

theorem Span.writable_json (s : Span) : s.json.Writable :=
  .object s.writable_members

theorem Marker.writable_json (m : Marker) : m.json.Writable :=
  .object (List.forall_mem_cons.mpr ⟨writable_ofInt _,
    List.forall_mem_cons.mpr ⟨.string, m.span.writable_members⟩⟩)

theorem CompletionItem.writable_json (i : CompletionItem) : i.json.Writable := by
  refine writable_record ?_
  simp only [List.forall_mem_cons]
  exact ⟨writable_some .string, writable_some (writable_ofInt _), writable_nonEmpty _,
    writable_nonEmpty _, writable_nonEmpty _, writable_nonEmpty _, writable_some .string,
    writable_some i.span.writable_json, nofun⟩

theorem Edit.writable_json (e : Edit) : e.json.Writable := by
  refine .object ?_
  simp only [List.forall_mem_cons]
  exact ⟨e.span.writable_json, .string, nofun⟩

theorem Fix.writable_json (f : Fix) : f.json.Writable := by
  refine writable_record ?_
  simp only [List.forall_mem_cons]
  refine ⟨writable_some .string, writable_some .string, ?_,
    writable_some (writable_map Edit.writable_json _), ?_, nofun⟩
  · split
    · exact nofun
    · exact writable_some (writable_map Marker.writable_json _)
  · split
    · exact writable_some .bool
    · exact nofun

theorem Fold.writable_json (f : Fold) : f.json.Writable := by
  refine .object ?_
  simp only [List.forall_mem_cons]
  exact ⟨writable_ofNat _, writable_ofNat _, .string, nofun⟩

theorem Link.writable_json (l : Link) : l.json.Writable := by
  have htarget : ∀ text : Target → String,
      ∀ v ∈ l.target.bind fun t => nonEmpty (text t), v.Writable := by
    intro text v hv
    obtain ⟨t, -, ht⟩ := Option.mem_bind_iff.mp hv
    exact writable_nonEmpty _ v ht
  refine writable_record ?_
  simp only [List.forall_mem_cons]
  exact ⟨writable_some l.span.writable_json, htarget Target.uri, htarget Target.tooltip,
    writable_some .string, nofun⟩

theorem Hover.writable_json (h : Hover) : h.json.Writable := by
  refine .object ?_
  simp only [List.forall_mem_cons]
  refine ⟨h.span.writable_json, writable_map (fun b => .object ?_) _, nofun⟩
  exact List.forall_mem_singleton.mpr .string

theorem Target.writable_json (t : Target) : t.json.Writable := by
  refine writable_record ?_
  simp only [List.forall_mem_cons]
  refine ⟨writable_some .string, ?_, nofun⟩
  split
  · exact nofun
  · exact writable_some (writable_ofInt _)

theorem Answer.writable_json (a : Answer) : a.json.Writable := by
  have hsingle : ∀ {name : String} {v : Json}, v.Writable → (Json.object [(name, v)]).Writable :=
    fun hv => .object (List.forall_mem_singleton.mpr hv)
  cases a with
  | completions found => exact hsingle (writable_map CompletionItem.writable_json found)
  | fixes found => exact hsingle (writable_map Fix.writable_json found)
  | folds found => exact writable_map Fold.writable_json found
  | links found => exact hsingle (writable_map Link.writable_json found)
  | hover found => exact found.writable_json
  | target found => exact found.writable_json
  | markers found => exact writable_map Marker.writable_json found

/-! ## Replies as lines -/

namespace Reply

/-- The identity is a value of the grammar, if there is one. -/
def IdIsValue (r : Reply) : Prop :=
  ∀ id ∈ r.id, ∃ depth, IsValue depth id.toList

/-- Every number in the identity has a double. -/
def IdHasDoubles (r : Reply) : Prop :=
  ∀ id ∈ r.id, HasDoubles id.toList

theorem text?_eq {r : Reply} {line : String} (h : r.text = .ok line) : r.text? = some line := by
  rw [text?, h]
  rfl

theorem writable_data (r : Reply) : r.data.Writable := by
  unfold data
  cases r.answer with
  | none => exact .null
  | some a => exact a.writable_json

section
variable {r : Reply} (h : r.IdIsValue)
include h

theorem idText_of_idHasDoubles (hd : r.IdHasDoubles) :
    ∃ text, r.idText = .ok text ∧ NoControls text.toList := by
  rw [idText]
  cases hid : r.id with
  | none => exact ⟨_, rfl, noControls_word (by decide)⟩
  | some id =>
      obtain ⟨depth, hv⟩ := h id hid
      exact compact_of_hasDoubles hv (hd id hid)

/-- An identity that is not written holds a number that is too large, and this is the fault. -/
theorem text_of_not_idHasDoubles (hd : ¬r.IdHasDoubles) :
    ∃ id part, r.id = some id ∧ HugePart part id.toList ∧
      r.text = .error (.number (String.ofList part) .outOfRange) := by
  rw [IdHasDoubles] at hd
  cases hid : r.id with
  | none => exact absurd (hid ▸ nofun) hd
  | some id =>
      obtain ⟨depth, hv⟩ := h id hid
      have hnot : ¬HasDoubles id.toList := fun hall =>
        hd fun other he => Option.mem_some.mp (hid ▸ he : other ∈ some id) ▸ hall
      obtain ⟨part, hpart, hrefused⟩ := compact_of_not_hasDoubles hv hnot
      refine ⟨id, part, rfl, hpart, ?_⟩
      rw [text, idText, hid]
      simp only [hrefused]
      rfl

/-- A reply is written on one line, whatever its answer holds, if the numbers of its identity
have doubles. -/
theorem text_of_idHasDoubles (hd : r.IdHasDoubles) :
    ∃ line, r.text = .ok line ∧ NoControls line.toList := by
  obtain ⟨text, htext, hid⟩ := idText_of_idHasDoubles h hd
  refine ⟨_, by rw [Reply.text, htext]; rfl, ?_⟩
  have hdata := r.writable_data.noControls
  have hsuccess : NoControls (Json.bool r.answer.isSome).render.toList := Writable.bool.noControls
  have hopen : NoControls "\x7b\"id\":".toList := noControls_of_all (by decide)
  have hname : NoControls ",\"data\":".toList := noControls_of_all (by decide)
  have hstate : NoControls ",\"success\":".toList := noControls_of_all (by decide)
  have hclose : NoControls "\x7d".toList := noControls_of_all (by decide)
  simp only [String.toList_append, noControls_append]
  exact ⟨⟨⟨⟨⟨⟨hopen, hid⟩, hname⟩, hdata⟩, hstate⟩, hsuccess⟩, hclose⟩

/-- The text of a reply is on one line. -/
theorem noControls_text? {line : String} (hline : r.text? = some line) :
    NoControls line.toList := by
  by_cases hd : r.IdHasDoubles
  · obtain ⟨written, htext, hall⟩ := text_of_idHasDoubles h hd
    rw [text?, htext] at hline
    cases hline
    exact hall
  · obtain ⟨id, part, -, -, htext⟩ := text_of_not_idHasDoubles h hd
    rw [text?, htext] at hline
    cases hline

theorem idHasDoubles_of_isSome (hline : r.text?.isSome = true) : r.IdHasDoubles := by
  by_contra hd
  obtain ⟨id, part, -, -, htext⟩ := text_of_not_idHasDoubles h hd
  rw [text?, htext] at hline
  cases hline

end

end Reply

/-! ## Identities of replies -/

theorem Json.IsValue.object_or_refused {depth : Nat} {token : List Char} (h : IsValue depth token) :
    (∃ d ms, depth = d + 1 ∧ IsObject d ms token) ∨ token = "null".toList ∨
      ∃ c cs, token = c :: cs ∧ isSpace c = false ∧ c ≠ '\x7b' ∧ c ≠ 'n' := by
  cases h with
  | word hw =>
      simp only [List.mem_cons, List.not_mem_nil, or_false] at hw
      rcases hw with rfl | rfl | rfl
      · exact .inr (.inl rfl)
      · exact .inr (.inr ⟨_, _, rfl, by decide⟩)
      · exact .inr (.inr ⟨_, _, rfl, by decide⟩)
  | number hn =>
      obtain ⟨c, cs, rfl, hs, hne⟩ := hn.head_ne
      exact .inr (.inr ⟨c, cs, rfl, hs, hne _ (by decide), hne _ (by decide)⟩)
  | string hs =>
      obtain ⟨cs, rfl⟩ := hs.head
      exact .inr (.inr ⟨_, _, rfl, by decide⟩)
  | emptyArray _ => exact .inr (.inr ⟨_, _, rfl, by decide⟩)
  | array _ _ _ => exact .inr (.inr ⟨_, _, rfl, by decide⟩)
  | emptyObject hw => exact .inl ⟨_, [], rfl, .empty hw⟩
  | object hne hl hv => exact .inl ⟨_, _, rfl, .members hne hl hv⟩

section
variable {depth : Nat} {t : String} (hv : IsValue depth t.toList) (hd : depth ≤ maxDepth)
include hv hd

/-- A record that begins with the head takes its identity from the members of an object. A
text that is no object leaves the record as it was, or is refused. -/
theorem Json.Reader.Head.id_run {σ : Type} (h : Head σ) {start s : σ} (hs : h.id start = none)
    (hrun : (record h.fields).run start t = some s) {id : String} (hid : h.id s = some id) :
    ∃ d ms, IsObject d ms t.toList ∧ requestId ms = some id := by
  rcases hv.object_or_refused with ⟨d, ms, rfl, ho⟩ | hnull | ⟨c, cs, hc, hspace, ho, hn⟩
  · have hfield : d ≤ fieldDepth := Nat.le_sub_of_add_le hd
    refine ⟨d, ms, ho, ?_⟩
    by_cases ha : ∀ m ∈ ms, Admits h.fields m
    · rw [run_takes h.settled_fields ho.isObjectText ha] at hrun
      cases hrun
      rw [← hid, h.id_foldl hfield (fun m hm => ho.isValue_of_mem hm) hs]
    · simp only [not_forall, exists_prop] at ha
      rw [run_refuses h.settled_fields ho.isObjectText
        (settles_members h.settled_fields hfield ho) ha] at hrun
      cases hrun
  · rw [run, hv.upToNul_eq, hnull] at hrun
    cases hrun
    rw [hs] at hid
    cases hid
  · rw [run, hv.upToNul_eq, hc, record_of_ne hspace ho hn] at hrun
    cases hrun

theorem id_decode_ok {r : Request} (h : Request.decode t = .ok r) {id : String} {q : Query}
    (hr : r = .query (some id) q) : ∃ d ms, IsObject d ms t.toList ∧ requestId ms = some id := by
  unfold Request.decode at h
  split at h
  · cases h
  · rename_i e hrun
    split at h
    · rename_i kind _
      cases h
      cases kind with
      | query kind =>
          obtain ⟨hid, -⟩ := Request.query.inj hr
          exact Envelope.head.id_run hv hd rfl hrun hid
      | _ => cases hr
    · cases h

theorem id_decode_error {e : RequestError} (h : Request.decode t = .error e) {id : String}
    (hid : e.id = some id) : ∃ d ms, IsObject d ms t.toList ∧ requestId ms = some id := by
  unfold Request.decode at h
  split at h
  · cases h
    unfold RequestError.recover at hid
    split at hid
    · rename_i head _ hrun
      exact RequestError.head.id_run hv hd rfl hrun hid
    · cases hid
  · rename_i e hrun
    split at h
    · cases h
    · cases h
      exact Envelope.head.id_run hv hd rfl hrun hid

omit hv hd in
theorem Session.id_ask (s : Session) (id : Option String) (q : Query) {r : Reply}
    (h : (s.ask id q).reply = some r) : r.id = id := by
  cases huri : q.uri? with
  | none =>
      cases q with
      | completions line n column =>
          cases h
          rfl
      | _ => cases huri
  | some uri =>
      cases hd : s.store.get? uri with
      | none =>
          rw [s.ask_of_closed id huri hd] at h
          cases h
          rfl
      | some d =>
          rw [s.ask_of_open id huri hd] at h
          cases h
          rfl

/-- The identity of a reply is that of the request, and the request is an object then. -/
theorem Session.id_reply (s : Session) {r : Reply} (hr : (s.processText t).reply = some r)
    {id : String} (hid : r.id = some id) :
    ∃ d ms, IsObject d ms t.toList ∧ requestId ms = some id := by
  cases hdecode : Request.decode t with
  | error e =>
      rw [(s.processText_of_error hdecode).2] at hr
      split at hr
      · cases hr
        exact id_decode_error hv hd hdecode hid
      · cases hr
  | ok request =>
      rw [s.processText_of_ok hdecode] at hr
      cases request with
      | query id' q =>
          have hsame := s.id_ask id' q hr
          exact id_decode_ok hv hd hdecode (by rw [← hsame, hid])
      | _ => cases hr

theorem Session.idIsValue_reply (s : Session) {r : Reply}
    (hr : (s.processText t).reply = some r) : r.IdIsValue := by
  intro id hid
  obtain ⟨d, ms, ho, hrequest⟩ := s.id_reply hv hd hr hid
  obtain ⟨m, hm, rfl⟩ := Option.map_eq_some_iff.mp hrequest
  refine ⟨d, ?_⟩
  rw [String.toList_ofList]
  exact ho.isValue_of_mem (List.mem_reverse.mp (List.mem_of_find?_eq_some hm))

end

/-! ## The run of a worker -/

namespace Session

/-- The replies to texts that are handled one after the other. -/
def replies (s : Session) : List String → List Reply
  | [] => []
  | text :: texts =>
    (s.processText text).reply.toList ++ (s.processText text).session.replies texts

theorem idIsValue_replies (s : Session) {texts : List String}
    (h : ∀ t ∈ texts, ∃ depth, IsValue depth t.toList ∧ depth ≤ maxDepth) :
    ∀ r ∈ s.replies texts, r.IdIsValue := by
  induction texts generalizing s with
  | nil => exact nofun
  | cons t texts ih =>
      rw [List.forall_mem_cons] at h
      obtain ⟨⟨depth, hv, hd⟩, hrest⟩ := h
      intro r hr
      rcases List.mem_append.mp hr with hr | hr
      · exact s.idIsValue_reply hv hd (Option.mem_toList.mp hr)
      · exact ih _ hrest r hr

/-- What a worker does for a text and goes on with the texts after it. -/
theorem workOff_silent (s : Session) (how : StreamEnd) {t : String} (texts : List String)
    (h : (s.processText t).reply = none) :
    (s.workOff how (t :: texts)).lines = ((s.processText t).session.workOff how texts).lines ∧
      (s.workOff how (t :: texts)).fault =
        ((s.processText t).session.workOff how texts).fault := by
  rw [workOff, workOn, h]
  exact ⟨rfl, rfl⟩

theorem workOff_written (s : Session) (how : StreamEnd) {t : String} (texts : List String)
    {r : Reply} (h : (s.processText t).reply = some r) {line : String} (hr : r.text = .ok line) :
    (s.workOff how (t :: texts)).lines =
        line :: ((s.processText t).session.workOff how texts).lines ∧
      (s.workOff how (t :: texts)).fault =
        ((s.processText t).session.workOff how texts).fault := by
  rw [workOff, workOn, h]
  simp only [hr, Option.toList_some, List.singleton_append, and_self]

theorem workOff_unwritable (s : Session) (how : StreamEnd) {t : String} (texts : List String)
    {r : Reply} (h : (s.processText t).reply = some r) {fault : CompactFault}
    (hr : r.text = .error fault) :
    (s.workOff how (t :: texts)).lines = [] ∧
      (s.workOff how (t :: texts)).fault = some (.unwritableReply fault) := by
  rw [workOff, workOn, h]
  simp only [hr, and_self]

def endFault : StreamEnd → Option WorkerFault
  | .finished => none
  | .broken => some .malformedInput

/-- When all replies can be written, they are, and only the end of the stream is a fault. -/
theorem workOff_of_writable (s : Session) (how : StreamEnd) (texts : List String)
    (h : ∀ r ∈ s.replies texts, ∃ line, r.text = .ok line) :
    (s.workOff how texts).lines.map some = (s.replies texts).map Reply.text? ∧
      (s.workOff how texts).fault = endFault how := by
  induction texts generalizing s with
  | nil => cases how <;> exact ⟨rfl, rfl⟩
  | cons t texts ih =>
      rw [replies] at h ⊢
      cases hreply : (s.processText t).reply with
      | none =>
          rw [hreply] at h
          obtain ⟨hlines, hfault⟩ := s.workOff_silent how texts hreply
          rw [hlines, hfault]
          exact ih _ h
      | some r =>
          rw [hreply] at h
          simp only [Option.toList_some, List.singleton_append, List.forall_mem_cons] at h
          obtain ⟨line, hline⟩ := h.1
          obtain ⟨hlines, hfault⟩ := s.workOff_written how texts hreply hline
          obtain ⟨hmore, hend⟩ := ih _ h.2
          rw [hlines, hfault]
          refine ⟨?_, hend⟩
          rw [List.map_cons, hmore, Option.toList_some, List.singleton_append, List.map_cons,
            Reply.text?_eq hline]

/-- The first reply that cannot be written ends the work. -/
theorem workOff_of_unwritable (s : Session) (how : StreamEnd) (texts : List String)
    {before after : List Reply} {r : Reply} (hreplies : s.replies texts = before ++ r :: after)
    (h : ∀ q ∈ before, ∃ line, q.text = .ok line) {fault : CompactFault}
    (hr : r.text = .error fault) :
    (s.workOff how texts).lines.map some = before.map Reply.text? ∧
      (s.workOff how texts).fault = some (.unwritableReply fault) := by
  induction texts generalizing s before with
  | nil =>
      exact absurd (congrArg List.length hreplies) (by simp [replies])
  | cons t texts ih =>
      rw [replies] at hreplies
      cases hreply : (s.processText t).reply with
      | none =>
          rw [hreply] at hreplies
          obtain ⟨hlines, hfault⟩ := s.workOff_silent how texts hreply
          rw [hlines, hfault]
          exact ih _ hreplies h
      | some first =>
          rw [hreply, Option.toList_some, List.singleton_append] at hreplies
          cases before with
          | nil =>
              obtain ⟨rfl, -⟩ := List.cons.inj hreplies
              obtain ⟨hlines, hfault⟩ := s.workOff_unwritable how texts hreply hr
              rw [hlines, hfault]
              exact ⟨rfl, rfl⟩
          | cons q before =>
              obtain ⟨rfl, hlater⟩ := List.cons.inj hreplies
              rw [List.forall_mem_cons] at h
              obtain ⟨line, hline⟩ := h.1
              obtain ⟨hlines, hfault⟩ := s.workOff_written how texts hreply hline
              obtain ⟨hmore, hend⟩ := ih _ hlater h.2
              rw [hlines, hfault]
              refine ⟨?_, hend⟩
              rw [List.map_cons, hmore, List.map_cons, Reply.text?_eq hline]

/-- Every line that is written is the text of a reply. -/
theorem exists_reply_of_mem_lines (s : Session) (how : StreamEnd) (texts : List String) :
    ∀ line ∈ (s.workOff how texts).lines, ∃ r ∈ s.replies texts, r.text? = some line := by
  induction texts generalizing s with
  | nil => cases how <;> exact nofun
  | cons t texts ih =>
      intro line hline
      rw [replies]
      cases hreply : (s.processText t).reply with
      | none =>
          rw [(s.workOff_silent how texts hreply).1] at hline
          exact ih _ line hline
      | some r =>
          cases hr : r.text with
          | error fault =>
              rw [(s.workOff_unwritable how texts hreply hr).1] at hline
              cases hline
          | ok first =>
              rw [(s.workOff_written how texts hreply hr).1] at hline
              rcases List.mem_cons.mp hline with rfl | hline
              · exact ⟨r, List.mem_cons_self, Reply.text?_eq hr⟩
              · obtain ⟨q, hq, htext⟩ := ih _ line hline
                exact ⟨q, List.mem_cons_of_mem r hq, htext⟩

end Session

theorem splitOn_newlines {lines : List (List Char)} (h : ∀ line ∈ lines, '\n' ∉ line) :
    (lines.flatMap (· ++ ['\n'])).splitOn '\n' = lines ++ [[]] := by
  induction lines with
  | nil => rfl
  | cons line lines ih =>
      rw [List.forall_mem_cons] at h
      have hfree : ∀ c ∈ line, (c == '\n') = false :=
        fun c hc => beq_false_of_ne fun he => h.1 (he ▸ hc)
      have hrest := ih h.2
      rw [List.splitOn_eq_splitOnP] at hrest ⊢
      rw [List.flatMap_cons, List.append_assoc, List.singleton_append,
        List.splitOnP_append_cons_of_forall_mem hfree '\n' (beq_self_eq_true '\n'), hrest,
        List.cons_append]

/-- The output splits at line ends into the lines, with nothing after the last one. -/
theorem WorkerRun.splitOn_output (r : WorkerRun) (h : ∀ line ∈ r.lines, '\n' ∉ line.toList) :
    r.output.toList.splitOn '\n' = r.lines.map String.toList ++ [[]] := by
  have houtput : r.output.toList = (r.lines.map String.toList).flatMap (· ++ ['\n']) := by
    simp [output, String.toList_join, List.flatMap_map]
  rw [houtput, splitOn_newlines (List.forall_mem_map.mpr h)]

namespace Session

theorem work_eq (s : Session) {tail : List Char} {tokens : List (List Char)} {input : String}
    (h : StreamOf tail tokens input.toList) {how : StreamEnd} (hnul : ∀ c ∈ tail, c.toNat ≠ 0)
    (hend : nextItem tail = .done how) :
    s.work input = s.workOff how (tokens.map String.ofList) := by
  rw [work, h.stream_eq hnul hend]

/-- A worker answers in order, one line each, until the stream ends or a reply cannot be
written. For a stream of JSON texts that ends in white space or is broken there, the replies
are those of one session to the texts in their order. If the numbers in their identities have
doubles, all of them are written, and the work fails exactly when the stream is broken.
Otherwise the replies before the first one whose identity has a number without a double are
written, and the work fails there: the fault is that such a number is too large. No reply has a line end in its text, so the output splits
at line ends into what was written. -/
theorem work_writes_replies_in_order (s : Session) (tail : List Char) (tokens : List (List Char))
    (input : String) (h : StreamOf tail tokens input.toList) (ht : Blank tail ∨ Unfinished tail) :
    ((∀ r ∈ s.replies (tokens.map String.ofList), r.IdHasDoubles) →
      (s.work input).lines.map some = (s.replies (tokens.map String.ofList)).map Reply.text? ∧
      ((s.work input).fault = none ↔ Blank tail) ∧
      ((s.work input).fault = some .malformedInput ↔ Unfinished tail)) ∧
    (∀ before r after, s.replies (tokens.map String.ofList) = before ++ r :: after →
      (∀ q ∈ before, q.IdHasDoubles) → ¬r.IdHasDoubles →
      (s.work input).lines.map some = before.map Reply.text? ∧
      ∃ id part, r.id = some id ∧ HugePart part id.toList ∧ (s.work input).fault =
        some (.unwritableReply (.number (String.ofList part) .outOfRange))) ∧
    (∀ r ∈ s.replies (tokens.map String.ofList), ∀ line, r.text? = some line →
      '\n' ∉ line.toList) ∧
    (s.work input).output.toList.splitOn '\n' =
      (s.work input).lines.map String.toList ++ [[]] := by
  have hnul : ∀ c ∈ tail, c.toNat ≠ 0 :=
    ht.elim (fun hb => (hb.balanced : Balanced 0 tail).notNul) Unfinished.notNul
  obtain ⟨how, hend, hblank, hbroken⟩ : ∃ how, nextItem tail = .done how ∧
      (endFault how = none ↔ Blank tail) ∧
      (endFault how = some .malformedInput ↔ Unfinished tail) := by
    rcases ht with hb | hu
    · refine ⟨.finished, nextItem_blank hb, iff_of_true rfl hb, ?_⟩
      exact iff_of_false (by decide) fun hu => hu.notBlank hb
    · exact ⟨.broken, hu.nextItem, iff_of_false (by decide) hu.notBlank, iff_of_true rfl hu⟩
  have hvalues := s.idIsValue_replies h.isValue_texts
  have hnewline : ∀ r ∈ s.replies (tokens.map String.ofList), ∀ line, r.text? = some line →
      '\n' ∉ line.toList :=
    fun r hr line hline => (Reply.noControls_text? (hvalues r hr) hline).not_mem_newline
  rw [s.work_eq h hnul hend]
  refine ⟨fun hd => ?_, fun before r after hreplies hd hr => ?_, hnewline, ?_⟩
  · obtain ⟨hlines, hfault⟩ := s.workOff_of_writable how _ fun r hr =>
      (Reply.text_of_idHasDoubles (hvalues r hr) (hd r hr)).imp fun _ hline => hline.1
    rw [hfault]
    exact ⟨hlines, hblank, hbroken⟩
  · rw [hreplies, List.forall_mem_append, List.forall_mem_cons] at hvalues
    have hbefore : ∀ q ∈ before, ∃ line, q.text = .ok line := fun q hq =>
      (Reply.text_of_idHasDoubles (hvalues.1 q hq) (hd q hq)).imp fun _ hline => hline.1
    obtain ⟨id, part, hid, hpart, htext⟩ := Reply.text_of_not_idHasDoubles hvalues.2.1 hr
    obtain ⟨hlines, hfault⟩ := s.workOff_of_unwritable how _ hreplies hbefore htext
    exact ⟨hlines, id, part, hid, hpart, hfault⟩
  · refine WorkerRun.splitOn_output _ fun line hline => ?_
    obtain ⟨r, hr, htext⟩ := s.exists_reply_of_mem_lines how _ line hline
    exact hnewline r hr line htext

/-- Two questions, the first with an identity on two lines, and the start of a third request. -/
theorem work_writes_replies_in_order_cut :
    let input := "\x7b\"type\":\"CheckSyntax\",\"id\":1,\"id\":[\n1]\x7d\n" ++
      "\x7b\"type\":\"CheckSyntax\",\"id\":1,\"uri\":5\x7d\n["
    StreamOf ['\n', '['] [bareObject (checkQuestion "id" "[\n1]".toList),
        bareObject (checkQuestion "uri" ['5'])] input.toList ∧
      Unfinished ['\n', '['] ∧
      (initial.work input).lines = ["\x7b\"id\":[1],\"data\":null,\"success\":false\x7d",
        "\x7b\"id\":1,\"data\":null,\"success\":false\x7d"] ∧
      (initial.work input).fault = some .malformedInput := by
  intro input
  have hnewline : Blank ['\n'] := List.forall_mem_singleton.mpr (by decide)
  have hid : IsValue 1 "[\n1]".toList := by
    have hitem : ∀ i ∈ [(⟨['\n'], ['1'], []⟩ : Spaced)], i.Bare ∧ IsValue 0 i.token := by
      intro i hi
      rw [List.mem_singleton.mp hi]
      exact ⟨⟨hnewline, blank_nil⟩, isValue_one 0⟩
    exact .array (List.cons_ne_nil _ _) (fun i hi => (hitem i hi).1) fun i hi => (hitem i hi).2
  have hfive : IsValue 0 ['5'] := .number (isNumber_digit (by decide) (by decide))
  have hinput : input.toList = [] ++ (bareObject (checkQuestion "id" "[\n1]".toList) ++
      (['\n'] ++ (bareObject (checkQuestion "uri" ['5']) ++ ['\n', '[']))) := by
    decide
  have hstream : StreamOf ['\n', '['] [bareObject (checkQuestion "id" "[\n1]".toList),
      bareObject (checkQuestion "uri" ['5'])] input.toList := by
    rw [hinput]
    refine .cons blank_nil (isObject_checkQuestion (by decide) hid).isValue (by decide) ?_
      (.cons hnewline (isObject_checkQuestion (by decide) hfive).isValue (by decide) ?_ .nil)
    · exact fun _ => ends_cons (by decide)
    · exact fun _ => ends_cons (by decide)
  have hcut : Unfinished ['\n', '['] :=
    unfinished_of_cut (by decide) hnewline (.emptyArray blank_nil : IsValue 1 ['[', ']'])
      (List.cons_ne_nil ']' [])
  have hreplies : initial.replies [String.ofList (bareObject (checkQuestion "id" "[\n1]".toList)),
      String.ofList (bareObject (checkQuestion "uri" ['5']))] =
      [⟨some "[\n1]", none⟩, ⟨some "1", none⟩] := by
    decide +kernel
  obtain ⟨hwritten, -⟩ :=
    initial.work_writes_replies_in_order _ _ input hstream (.inr hcut)
  have hvalues := initial.idIsValue_replies hstream.isValue_texts
  rw [List.map_cons, List.map_singleton, hreplies] at hvalues hwritten
  have hwritable : ∀ r ∈ [(⟨some "[\n1]", none⟩ : Reply), ⟨some "1", none⟩],
      r.text?.isSome = true := by
    decide +kernel
  have htexts : [(⟨some "[\n1]", none⟩ : Reply), ⟨some "1", none⟩].map Reply.text? =
      ["\x7b\"id\":[1],\"data\":null,\"success\":false\x7d",
        "\x7b\"id\":1,\"data\":null,\"success\":false\x7d"].map some := by
    decide +kernel
  obtain ⟨hlines, -, hfault⟩ := hwritten fun r hr =>
    Reply.idHasDoubles_of_isSome (hvalues r hr) (hwritable r hr)
  refine ⟨hstream, hcut, ?_, hfault.mpr hcut⟩
  exact List.map_injective_iff.mpr (fun _ _ => Option.some.inj) (hlines.trans htexts)

/-- A question whose identity is too large for a double. -/
def hugeIdentity : String :=
  "\x7b\"type\":\"CheckSyntax\",\"id\":1e999\x7d"

/-- A question whose identity is a string with a line end in it. -/
def brokenIdentity : String :=
  "\x7b\"type\":\"CheckSyntax\",\"id\":\"a\nb\"\x7d"

/-- Where the work of a worker ends is not always where its input stops being JSON. A reply to
a JSON text may not be written, a text that is no JSON may be handled, and even be answered on
two lines, and a JSON text may be nested too deep to be taken. -/
theorem work_ends_elsewhere :
    ((Json.parse? hugeIdentity).isSome = true ∧ (initial.work hugeIdentity).lines = [] ∧
      (initial.work hugeIdentity).fault.map WorkerFault.message =
        some ("failed to write response: json: error calling MarshalJSON for type " ++
          "*message.Response: json: error calling MarshalJSON for type jsontext.Value: " ++
          "strconv.ParseFloat: parsing \"1e999\": value out of range")) ∧
    ((Json.parse? "\x7babc\x7d").isSome = false ∧
      (initial.work "\x7babc\x7d").fault = none) ∧
    ((Json.parse? brokenIdentity).isSome = false ∧ (initial.work brokenIdentity).fault = none ∧
      ∃ line ∈ (initial.work brokenIdentity).lines, '\n' ∈ line.toList) ∧
    (IsValue 10001 (brackets 10001) ∧
      (initial.work (String.ofList (brackets 10001))).fault = some .malformedInput) := by
  refine ⟨by decide +kernel, by decide +kernel, by decide +kernel, ?_, ?_⟩
  · exact isValue_brackets (by decide)
  · have hnests : nestsWithin maxDepth false (brackets 10001) = false :=
      nestsWithin_replicate (by decide) (by decide) _
    have hdeep : Unfinished (brackets 10001) := by
      have h := unfinished_of_deep blank_nil (isValue_brackets (by decide)) hnests ends_nil nofun
      rwa [List.nil_append, List.append_nil] at h
    have hstream : StreamOf (brackets 10001) [] (String.ofList (brackets 10001)).toList := by
      rw [String.toList_ofList]
      exact .nil
    rw [work_eq initial hstream hdeep.notNul hdeep.nextItem]
    rfl

end Session
end Stepwise
