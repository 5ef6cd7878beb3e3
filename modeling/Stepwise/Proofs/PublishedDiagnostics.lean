import Stepwise.Editor.Server
import Stepwise.Proofs.MemoFreshness

/-!
# Published diagnostics follow the documents

A call of a method either leaves the documents alone and publishes nothing, or stores
the text of one document, or closes one. The last two publish one notice, for the
document they are about. That is said once, of a call, and everything else about runs
follows from it.

In a run whose addresses all mean different documents, the last notice for an address
holds what a fresh check of the document stored there finds, and nothing when no
document is stored there. Configurations do not change in such a run: no method
changes one.
-/
namespace Stepwise.Editor

/-- What happens to a server: a call, or the loss of the markers remembered under some
keys. -/
inductive ServerEvent where
  | call (method params : String)
  | expiry (keep : String → Bool)

namespace Server

/-- A call that publishes nothing and asks the session at most one question. -/
structure Quiet (s : Server) (served : Served) : Prop where
  isConnected : served.server.isConnected = s.isConnected
  session : served.server.session = s.session ∨
    ∃ q, served.server.session = (s.session.ask none q).session
  notices : served.notices = []

theorem quiet_result (s : Server) (value : Json) (log : List LogEvent) :
    s.Quiet (s.result value log) :=
  ⟨rfl, .inl rfl, rfl⟩

theorem quiet_ask (s : Server) (q : Query) (value : Json) (log : List LogEvent) :
    s.Quiet ((s.ask q).1.result value log) :=
  ⟨rfl, .inr ⟨q, rfl⟩, rfl⟩

theorem quiet_completion (s : Server) (p : PlaceParams) : s.Quiet (s.completion p) := by
  unfold completion
  split
  · exact s.quiet_result _ _
  · dsimp only
    split <;> exact s.quiet_ask _ _ _

theorem quiet_hover (s : Server) (p : PlaceParams) : s.Quiet (s.hover p) := by
  unfold hover
  dsimp only
  split <;> exact s.quiet_ask _ _ _

theorem quiet_folding (s : Server) (p : PlaceParams) : s.Quiet (s.folding p) := by
  unfold folding
  dsimp only
  split <;> exact s.quiet_ask _ _ _

theorem quiet_links (s : Server) (uri : String) : s.Quiet (s.links uri) := by
  unfold links
  dsimp only
  split <;> exact s.quiet_ask _ _ _

theorem quiet_actions (s : Server) (p : ActionParams) : s.Quiet (s.actions p) := by
  unfold actions
  dsimp only
  split <;> exact s.quiet_ask _ _ _

/-- Parameters are refused without any effect, or the call goes on with them. -/
theorem withParams_cases {α : Type} (s : Server) (reader : Json.Reader α) (fresh : α)
    (params : String) (call : α → Served) :
    s.withParams reader fresh params call = ⟨s, .badParams, [], []⟩ ∨
      ∃ p, s.withParams reader fresh params call = call p := by
  unfold withParams
  cases reader.run fresh params with
  | none => exact .inl rfl
  | some p => exact .inr ⟨p, rfl⟩

theorem quiet_withParams {α : Type} {s : Server} (reader : Json.Reader α) (fresh : α)
    (params : String) {call : α → Served} (h : ∀ p, s.Quiet (call p)) :
    s.Quiet (s.withParams reader fresh params call) := by
  rcases s.withParams_cases reader fresh params call with hp | ⟨p, hp⟩
  · rw [hp]
    exact ⟨rfl, .inl rfl, rfl⟩
  · rw [hp]
    exact h p

/-- All that a call can do. Text is stored by two methods and a document closed by one, and
neither is refused. -/
theorem call_cases (s : Server) (params : String) (m : Method) :
    s.Quiet (s.call params m) ∨
      ((m = .didOpen ∨ m = .didChange) ∧ ∃ uri version text log,
        s.call params m = { s.store uri version text with log }) ∨
      (m = .didClose ∧ ∃ uri, s.call params m = s.closeDocument uri) := by
  cases m with
  | start => exact .inl (quiet_withParams _ _ _ fun _ => s.quiet_result _ _)
  | started => exact .inl (quiet_withParams _ _ _ fun _ => s.quiet_result _ _)
  | shutdown => exact .inl (s.quiet_result _ _)
  | exit => exact .inl ⟨rfl, .inl rfl, rfl⟩
  | didOpen =>
      rcases s.withParams_cases OpenParams.reader ⟨"", 0, ""⟩ params s.openDocument with h | ⟨p, h⟩
      · left
        rw [call, h]
        exact ⟨rfl, .inl rfl, rfl⟩
      · right; left
        rw [call, h]
        exact ⟨.inl rfl, p.uri, p.version, p.text, _, rfl⟩
  | didChange =>
      rcases s.withParams_cases ChangeParams.reader ⟨"", 0, []⟩ params s.changeDocument with
        h | ⟨p, h⟩
      · left
        rw [call, h]
        exact ⟨rfl, .inl rfl, rfl⟩
      · rw [call, h, changeDocument]
        cases p.texts.getLast? with
        | none => exact .inl (s.quiet_result _ _)
        | some text => exact .inr (.inl ⟨.inr rfl, p.uri, p.version, text, _, rfl⟩)
  | didClose =>
      rcases s.withParams_cases closedReader "" params s.closeDocument with h | ⟨uri, h⟩
      · left
        rw [call, h]
        exact ⟨rfl, .inl rfl, rfl⟩
      · right; right
        rw [call, h]
        exact ⟨rfl, uri, rfl⟩
  | completion => exact .inl (quiet_withParams _ _ _ s.quiet_completion)
  | hover => exact .inl (quiet_withParams _ _ _ s.quiet_hover)
  | foldingRange => exact .inl (quiet_withParams _ _ _ s.quiet_folding)
  | documentLink => exact .inl (quiet_withParams _ _ _ s.quiet_links)
  | codeAction => exact .inl (quiet_withParams _ _ _ s.quiet_actions)

def handle (s : Server) : ServerEvent → Served
  | .call method params => s.serve method params
  | .expiry keep => ⟨{ s with session := s.session.forget keep }, .silent, [], []⟩

def after (s : Server) : List ServerEvent → Server
  | [] => s
  | e :: rest => (s.handle e).server.after rest

def published (s : Server) : List ServerEvent → List Notice
  | [] => []
  | e :: rest => (s.handle e).notices ++ (s.handle e).server.published rest

theorem published_append (s : Server) (events later : List ServerEvent) :
    s.published (events ++ later) = s.published events ++ (s.after events).published later := by
  induction events generalizing s with
  | nil => rfl
  | cons e events ih => simp only [List.cons_append, published, after, ih, List.append_assoc]

def documentMethods : List String :=
  [Method.didOpen.name, Method.didChange.name, Method.didClose.name]

theorem store_outcome (s : Server) (uri : String) (version : Int) (text : String) :
    (s.store uri version text).outcome = .result .null := by
  unfold store
  rfl

theorem serve_cases (s : Server) (method params : String) :
    s.Quiet (s.serve method params) ∨
      (method ∈ documentMethods ∧ (s.serve method params).outcome = .result .null ∧
        ((∃ uri version text log,
          s.serve method params = { s.store uri version text with log }) ∨
        ∃ uri log, s.serve method params = { s.closeDocument uri with log })) := by
  unfold serve
  cases hm : Method.ofName? method with
  | none => exact .inl ⟨rfl, .inl rfl, rfl⟩
  | some m =>
      have hname : m.name = method := by simpa using List.find?_some hm
      dsimp only
      rcases s.call_cases params m with h | ⟨hd, uri, version, text, log, h⟩ | ⟨hd, uri, h⟩
      · exact .inl ⟨h.isConnected, h.session, h.notices⟩
      · right
        rw [h, ← hname]
        dsimp only
        refine ⟨?_, s.store_outcome uri version text,
          .inl ⟨uri, version, text, .requestReceived :: log, rfl⟩⟩
        rcases hd with rfl | rfl <;> decide
      · right
        rw [h, ← hname]
        refine ⟨?_, rfl, .inr ⟨uri, .requestReceived :: (s.closeDocument uri).log, rfl⟩⟩
        subst hd
        decide

/-- A call that is refused, or is of a method that neither stores nor closes, is quiet. -/
theorem quiet_of_refused_or_other (s : Server) {method params : String}
    (h : (s.serve method params).outcome = .badParams ∨ method ∉ documentMethods) :
    s.Quiet (s.serve method params) := by
  rcases s.serve_cases method params with hq | ⟨hmethod, hresult, _⟩
  · exact hq
  · rcases h with h | h
    · rw [hresult] at h
      cases h
    · exact absurd hmethod h

theorem Quiet.store {s : Server} {served : Served} (h : s.Quiet served) :
    served.server.session.store = s.session.store := by
  rcases h.session with hs | ⟨q, hs⟩
  · rw [hs]
  · rw [hs, Session.ask_store]

theorem Quiet.configuration {s : Server} {served : Served} (h : s.Quiet served) :
    served.server.session.configuration = s.session.configuration := by
  rcases h.session with hs | ⟨q, hs⟩
  · rw [hs]
  · rw [hs, Session.ask_configuration]

theorem Quiet.sound {s : Server} {served : Served} (h : s.Quiet served) (hs : s.session.Sound) :
    served.server.session.Sound := by
  rcases h.session with he | ⟨q, he⟩
  · rw [he]
    exact hs
  · rw [he]
    exact hs.process (.query none q)

end Server

/-- The diagnostics that a fresh check of the document at an address gives; none when no
document is there. -/
def freshDiagnostics (s : Session) (uri : String) : List Diagnostic :=
  match s.store.get? uri with
  | some d => (d.diagnostics s.configuration).map .ofMarker
  | none => []

def lastNotice? (history : List Notice) (uri : String) : Option Notice :=
  history.reverse.find? (·.uri == uri)

theorem lastNotice?_append_singleton (history : List Notice) (n : Notice) (uri : String) :
    lastNotice? (history ++ [n]) uri =
      if n.uri = uri then some n else lastNotice? history uri := by
  simp only [lastNotice?, List.reverse_append, List.reverse_singleton, List.singleton_append,
    List.find?_cons]
  by_cases h : n.uri = uri
  · simp [h]
  · simp [h, beq_eq_false_iff_ne.mpr h]

theorem mem_of_lastNotice? {history : List Notice} {uri : String} {n : Notice}
    (h : lastNotice? history uri = some n) : n ∈ history ∧ n.uri = uri := by
  have hmem := List.mem_of_find?_eq_some h
  have huri := List.find?_some h
  exact ⟨List.mem_reverse.mp hmem, by simpa using huri⟩

/-- Addresses that mean one document are one text. -/
def DistinctAddresses (history : List Notice) : Prop :=
  ∀ n ∈ history, ∀ m ∈ history,
    Location.normalize n.uri = Location.normalize m.uri → n.uri = m.uri

theorem DistinctAddresses.mono {history part : List Notice} (h : DistinctAddresses history)
    (hpart : part ⊆ history) : DistinctAddresses part :=
  fun n hn m hm => h n (hpart hn) m (hpart hm)

/-- Notices tell of every address what a fresh check would. -/
structure InStep (s : Session) (history : List Notice) : Prop where
  sound : s.Sound
  last : ∀ uri n, lastNotice? history uri = some n → n.diagnostics = freshDiagnostics s uri

theorem InStep.of_eq {s t : Session} {history : List Notice} (h : InStep s history) (ht : t.Sound)
    (hstore : t.store = s.store) (hc : t.configuration = s.configuration) : InStep t history := by
  refine ⟨ht, fun uri n hn => ?_⟩
  rw [h.last uri n hn, freshDiagnostics, freshDiagnostics, hstore, hc]

/-- Only the document of the next notice has changed, and the notice tells of it. -/
theorem InStep.publish {s t : Session} {history : List Notice} (h : InStep s history)
    (ht : t.Sound) {uri : String}
    (hd : DistinctAddresses (history ++ [⟨uri, freshDiagnostics t uri⟩]))
    (hc : t.configuration = s.configuration)
    (hother : ∀ other, Location.normalize uri ≠ Location.normalize other →
      t.store.get? other = s.store.get? other) :
    InStep t (history ++ [⟨uri, freshDiagnostics t uri⟩]) := by
  refine ⟨ht, fun other n hn => ?_⟩
  rw [lastNotice?_append_singleton] at hn
  by_cases huri : uri = other
  · subst huri
    simp only [if_true, Option.some.injEq] at hn
    rw [← hn]
  · simp only [huri, if_false] at hn
    obtain ⟨hmem, rfl⟩ := mem_of_lastNotice? hn
    have hne : Location.normalize uri ≠ Location.normalize n.uri := fun he =>
      huri (hd _ (List.mem_append_right _ (List.mem_singleton_self _)) n
        (List.mem_append_left _ hmem) he)
    rw [h.last n.uri n hn, freshDiagnostics, freshDiagnostics, hother _ hne, hc]

namespace Server

theorem diagnose_fst (s : Server) (uri : String) :
    (s.diagnose uri).1 = (s.ask (.checkSyntax uri)).1 := by
  unfold diagnose
  dsimp only
  split <;> rfl

/-- A server diagnoses as a fresh check does. -/
theorem diagnose_diagnostics {s : Server} (h : s.session.Sound) (uri : String) :
    (s.diagnose uri).2.1 = freshDiagnostics s.session uri := by
  have hreply := h.checkSyntax_reply none uri
  unfold diagnose ask freshDiagnostics
  simp only [hreply]
  cases s.session.store.get? uri <;> rfl

/-- Storing a text stores it and asks for its markers. -/
theorem store_session (s : Server) (uri : String) (version : Int) (text : String) :
    (s.store uri version text).server.session =
      ((s.session.process (.update uri version (Text.splitLines text))).session.ask none
        (.checkSyntax uri)).session := by
  unfold store
  dsimp only
  rw [diagnose_fst]
  rfl

theorem store_isConnected (s : Server) (uri : String) (version : Int) (text : String) :
    (s.store uri version text).server.isConnected = s.isConnected := by
  unfold store
  dsimp only
  rw [diagnose_fst]
  rfl

theorem store_store (s : Server) (uri : String) (version : Int) (text : String) :
    (s.store uri version text).server.session.store =
      s.session.store.update uri version (Text.splitLines text) := by
  rw [store_session, Session.ask_store]
  rfl

theorem store_configuration (s : Server) (uri : String) (version : Int) (text : String) :
    (s.store uri version text).server.session.configuration = s.session.configuration := by
  rw [store_session, Session.ask_configuration]
  rfl

theorem sound_store {s : Server} (h : s.session.Sound) (uri : String) (version : Int)
    (text : String) : (s.store uri version text).server.session.Sound := by
  rw [store_session]
  exact (h.process _).process (.query none (.checkSyntax uri))

theorem notices_of_isConnected {s : Server} (h : s.isConnected = true) (uri : String)
    (diagnostics : List Diagnostic) : s.notices uri diagnostics = [⟨uri, diagnostics⟩] :=
  if_pos h

/-- What is published for a stored text is what a check finds after the call. -/
theorem store_notices {s : Server} (h : s.session.Sound) (hconnected : s.isConnected = true)
    (uri : String) (version : Int) (text : String) :
    (s.store uri version text).notices =
      [⟨uri, freshDiagnostics (s.store uri version text).server.session uri⟩] := by
  have hfresh : freshDiagnostics (s.store uri version text).server.session uri =
      freshDiagnostics (s.session.process (.update uri version (Text.splitLines text))).session
        uri := by
    rw [freshDiagnostics, freshDiagnostics, store_store, store_configuration]
    rfl
  rw [hfresh, ← diagnose_diagnostics (s := { s with session := _ }) (h.process _)]
  unfold store
  dsimp only
  rw [diagnose_fst]
  exact notices_of_isConnected hconnected uri _

/-- An empty list is what a check finds where a document was closed. -/
theorem closeDocument_notices (s : Server) (hconnected : s.isConnected = true) (uri : String) :
    (s.closeDocument uri).notices =
      [⟨uri, freshDiagnostics (s.closeDocument uri).server.session uri⟩] := by
  have hclosed : (s.closeDocument uri).server.session.store.get? uri = none := by
    change (s.session.store.close uri).get? uri = none
    rw [Store.get?_close_eq, if_pos rfl]
  rw [freshDiagnostics, hclosed]
  exact notices_of_isConnected hconnected uri []

/-- A connected server that publishes nothing was quiet. -/
theorem quiet_of_notices_eq_nil {s : Server} (h : s.session.Sound)
    (hconnected : s.isConnected = true) {method params : String}
    (hsilent : (s.serve method params).notices = []) : s.Quiet (s.serve method params) := by
  rcases s.serve_cases method params with hq | ⟨_, _, ⟨uri, version, text, log, hs⟩ |
    ⟨uri, log, hs⟩⟩
  · exact hq
  · rw [hs] at hsilent
    exact absurd hsilent (by simp [store_notices h hconnected])
  · rw [hs] at hsilent
    exact absurd hsilent (by simp [s.closeDocument_notices hconnected])

/-- One event keeps notices and documents in step. -/
theorem inStep_handle {s : Server} {history : List Notice} (h : InStep s.session history)
    (hconnected : s.isConnected = true) (e : ServerEvent)
    (hd : DistinctAddresses (history ++ (s.handle e).notices)) :
    InStep (s.handle e).server.session (history ++ (s.handle e).notices) := by
  cases e with
  | expiry keep =>
      rw [show (s.handle (.expiry keep)).notices = [] from rfl, List.append_nil]
      exact h.of_eq (h.sound.step (.expiry keep)) rfl rfl
  | call method params =>
      change InStep (s.serve method params).server.session
        (history ++ (s.serve method params).notices)
      change DistinctAddresses (history ++ (s.serve method params).notices) at hd
      rcases s.serve_cases method params with hq | ⟨_, _, ⟨uri, version, text, log, hs⟩ |
        ⟨uri, log, hs⟩⟩
      · rw [hq.notices, List.append_nil]
        exact h.of_eq (hq.sound h.sound) hq.store hq.configuration
      · rw [hs] at hd ⊢
        dsimp only at hd ⊢
        rw [store_notices h.sound hconnected] at hd ⊢
        refine h.publish (sound_store h.sound uri version text) hd
          (s.store_configuration uri version text) fun other hne => ?_
        rw [store_store, Store.get?_update_eq, if_neg hne]
      · rw [hs] at hd ⊢
        dsimp only at hd ⊢
        rw [s.closeDocument_notices hconnected] at hd ⊢
        refine h.publish (h.sound.process (.delete uri)) hd rfl fun other hne => ?_
        change (s.session.store.close uri).get? other = _
        rw [Store.get?_close_eq, if_neg hne]

theorem handle_isConnected (s : Server) (e : ServerEvent) :
    (s.handle e).server.isConnected = s.isConnected := by
  cases e with
  | expiry keep => rfl
  | call method params =>
      change (s.serve method params).server.isConnected = s.isConnected
      rcases s.serve_cases method params with hq | ⟨_, _, ⟨uri, version, text, log, hs⟩ |
        ⟨uri, log, hs⟩⟩
      · exact hq.isConnected
      · rw [hs]
        dsimp only
        exact s.store_isConnected uri version text
      · rw [hs]
        rfl

theorem handle_configuration (s : Server) (e : ServerEvent) :
    (s.handle e).server.session.configuration = s.session.configuration := by
  cases e with
  | expiry keep => rfl
  | call method params =>
      change (s.serve method params).server.session.configuration = s.session.configuration
      rcases s.serve_cases method params with hq | ⟨_, _, ⟨uri, version, text, log, hs⟩ |
        ⟨uri, log, hs⟩⟩
      · exact hq.configuration
      · rw [hs]
        dsimp only
        exact s.store_configuration uri version text
      · rw [hs]
        rfl

theorem after_configuration (s : Server) (events : List ServerEvent) :
    (s.after events).session.configuration = s.session.configuration := by
  induction events generalizing s with
  | nil => rfl
  | cons e rest ih => rw [after, ih, handle_configuration]

theorem after_isConnected (s : Server) (events : List ServerEvent) :
    (s.after events).isConnected = s.isConnected := by
  induction events generalizing s with
  | nil => rfl
  | cons e rest ih => rw [after, ih, handle_isConnected]

/-- A whole run keeps notices and documents in step. -/
theorem inStep_after {s : Server} {history : List Notice} (h : InStep s.session history)
    (hconnected : s.isConnected = true) (events : List ServerEvent)
    (hd : DistinctAddresses (history ++ s.published events)) :
    InStep (s.after events).session (history ++ s.published events) := by
  induction events generalizing s history with
  | nil =>
      rw [published, List.append_nil]
      exact h
  | cons e rest ih =>
      rw [published, ← List.append_assoc] at hd ⊢
      have hnow : DistinctAddresses (history ++ (s.handle e).notices) :=
        hd.mono (List.subset_append_left _ _)
      exact ih (inStep_handle h hconnected e hnow) ((s.handle_isConnected e).trans hconnected) hd

/-- After every part of a run of a connected server whose addresses mean different
documents, the last notice for an address holds the diagnostics of the document stored
there, as a syntax question about it is answered, or none when no document is there. A
call that is refused or neither opens, changes nor closes publishes nothing and leaves
the documents as they are, and no call changes a document without publishing. -/
theorem notices_in_step (directives : List String) (earlier : List SessionEvent)
    (version : String) (events : List ServerEvent)
    (hd : DistinctAddresses ((Server.ofSession ((Session.withDirectives directives).run earlier)
      version true).published events)) :
    let start := Server.ofSession ((Session.withDirectives directives).run earlier) version true
    ∀ done later, events = done ++ later →
      let session := (start.after done).session
      (∀ uri n, lastNotice? (start.published done) uri = some n →
        n.diagnostics = freshDiagnostics session uri) ∧
      (∀ id uri, (session.process (.query id (.checkSyntax uri))).reply =
        some ⟨id, (session.store.get? uri).map fun d =>
          .markers (d.diagnostics session.configuration)⟩) ∧
      session.configuration = start.session.configuration ∧
      ∀ method params,
        let served := (start.after done).serve method params
        (served.outcome = .badParams ∨ method ∉ documentMethods →
          served.notices = [] ∧ served.server.session.store = session.store) ∧
        (served.notices = [] → served.server.session.store = session.store) := by
  intro start done later hevents session
  have hsound : start.session.Sound := (Session.sound_withDirectives directives).run earlier
  have hstart : InStep start.session [] := ⟨hsound, fun uri n hn => by cases hn⟩
  have hdone : DistinctAddresses ([] ++ start.published done) := by
    rw [List.nil_append]
    refine hd.mono ?_
    rw [hevents]
    change _ ⊆ start.published (done ++ later)
    rw [published_append]
    exact List.subset_append_left _ _
  have hin : InStep session (start.published done) := inStep_after hstart rfl done hdone
  refine ⟨hin.last, hin.sound.checkSyntax_reply, start.after_configuration done, ?_⟩
  intro method params
  refine ⟨fun hserved => ?_, fun hsilent => ?_⟩
  · have hq := (start.after done).quiet_of_refused_or_other hserved
    exact ⟨hq.notices, hq.store⟩
  · have hconnected := start.after_isConnected done
    exact (quiet_of_notices_eq_nil hin.sound hconnected hsilent).store

/-- A document that is opened, asked about, changed to nothing new and refused to be
closed, with everything remembered lost in between, and another one. -/
theorem notices_in_step_asked :
    let start := Server.ofSession ((Session.withDirectives []).run []) "" true
    let params (fields : String) := "\x7b\"textDocument\":\x7b" ++ fields ++ "\x7d\x7d"
    let events : List ServerEvent := [
      .call "textDocument/didOpen" (params "\"uri\":\"inmemory:a\",\"text\":\"x\""),
      .call "textDocument/foldingRange" (params "\"uri\":\"inmemory:a\""),
      .expiry fun _ => false,
      .call "textDocument/didOpen" (params "\"uri\":\"inmemory:b\""),
      .call "textDocument/didChange" (params "\"uri\":\"inmemory:a\""),
      .call "textDocument/didClose" "[]"]
    DistinctAddresses (start.published events) ∧
      (∃ n, lastNotice? (start.published events) "inmemory:a" = some n ∧
        n.diagnostics.length = 1 ∧
        n.diagnostics = freshDiagnostics (start.after events).session "inmemory:a") := by
  intro start params events
  have hd : DistinctAddresses (start.published events) := by
    unfold DistinctAddresses
    decide +kernel
  have hlast : (lastNotice? (start.published events) "inmemory:a").map (·.diagnostics.length) =
      some 1 := by
    decide +kernel
  obtain ⟨n, hn, hlength⟩ := Option.map_eq_some_iff.mp hlast
  have hstep := notices_in_step [] [] "" events hd events [] (List.append_nil events).symm
  exact ⟨hd, n, hn, hlength, hstep.1 "inmemory:a" n hn⟩

end Server
end Stepwise.Editor
