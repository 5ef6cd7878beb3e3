import Stepwise.Session.Basic

/-!
# Runs of a session

A run handles requests one after the other, some of them given as they are
written. Between two requests remembered markers may be lost, because their time
has run out; which ones and when is left open, so a statement about all runs holds
for every length of that time.

Nothing but a request changes the configuration or the store, and the loss of
markers changes neither. A question only adds to what is remembered.
-/
namespace Stepwise

/-- What happens to a session: a request, a request as it is written, or the loss of
the markers remembered under some keys. -/
inductive SessionEvent where
  | request (r : Request)
  | text (t : String)
  | expiry (keep : String → Bool)

/-- The request that an event brings, if it brings one that can be read. -/
def SessionEvent.request? : SessionEvent → Option Request
  | .request r => some r
  | .text t => (Request.decode t).toOption
  | .expiry _ => none

namespace Session

/-- Keeps of the remembered markers those under some keys. -/
def forget (s : Session) (keep : String → Bool) : Session :=
  { s with memo := s.memo.filter fun e => keep e.1 }

def step (s : Session) : SessionEvent → Session
  | .request r => (s.process r).session
  | .text t => (s.processText t).session
  | .expiry keep => s.forget keep

def replyTo (s : Session) : SessionEvent → Option Reply
  | .request r => (s.process r).reply
  | .text t => (s.processText t).reply
  | .expiry _ => none

def run (s : Session) (events : List SessionEvent) : Session :=
  events.foldl step s

@[simp] theorem run_cons (s : Session) (e : SessionEvent) (events : List SessionEvent) :
    s.run (e :: events) = (s.step e).run events := rfl

theorem run_append (s : Session) (events later : List SessionEvent) :
    s.run (events ++ later) = (s.run events).run later := by
  simp only [run, List.foldl_append]

/-- An event is one readable request, or leaves all but the memory alone. -/
theorem step_cases (s : Session) (e : SessionEvent) :
    (∃ r, e.request? = some r ∧ s.step e = (s.process r).session) ∨
      (e.request? = none ∧ ∃ memo, memo.Sublist s.memo ∧ s.step e = { s with memo }) := by
  cases e with
  | request r => exact .inl ⟨r, rfl, rfl⟩
  | text t =>
      cases hd : Request.decode t with
      | ok r =>
          refine .inl ⟨r, ?_, ?_⟩
          · rw [SessionEvent.request?, hd]
            rfl
          · rw [step, processText, hd]
      | error e =>
          refine .inr ⟨?_, s.memo, .refl _, ?_⟩
          · rw [SessionEvent.request?, hd]
            rfl
          · rw [step, processText, hd]
  | expiry keep => exact .inr ⟨rfl, _, List.filter_sublist, rfl⟩

/-- The reply to a readable request does not depend on how it was given. -/
theorem replyTo_of_request (s : Session) {e : SessionEvent} {r : Request}
    (h : e.request? = some r) : s.replyTo e = (s.process r).reply := by
  cases e with
  | request r' =>
      cases h
      rfl
  | text t =>
      cases hd : Request.decode t with
      | ok r' =>
          rw [SessionEvent.request?, hd] at h
          cases h
          rw [replyTo, processText, hd]
      | error e =>
          rw [SessionEvent.request?, hd] at h
          cases h
  | expiry keep => cases h

/-- Looking up markers changes nothing but the memory. -/
theorem markersOf_configuration (s : Session) (d : Document) :
    (s.markersOf d).2.configuration = s.configuration := by
  unfold markersOf
  dsimp only
  split <;> rfl

theorem markersOf_store (s : Session) (d : Document) :
    (s.markersOf d).2.store = s.store := by
  unfold markersOf
  dsimp only
  split <;> rfl

theorem resolve_cases (s : Session) (d : Document) (q : Query) :
    (s.resolve d q).2 = s ∨ (s.resolve d q).2 = (s.markersOf d).2 := by
  cases q with
  | checkSyntax uri => exact .inr rfl
  | _ => exact .inl rfl

theorem ask_of_closed (s : Session) (id : Option String) {q : Query} {uri : String}
    (h : q.uri? = some uri) (hd : s.store.get? uri = none) :
    s.ask id q = ⟨s, some (.failed id), [.processing, .unknownDocument]⟩ := by
  cases q with
  | completions line n column => cases h
  | _ =>
      cases h
      simp only [ask, Query.uri?, Option.getD_some, hd]

/-- A question about an open document is resolved with it. -/
theorem ask_of_open (s : Session) (id : Option String) {q : Query} {uri : String} {d : Document}
    (h : q.uri? = some uri) (hd : s.store.get? uri = some d) :
    s.ask id q = ⟨(s.resolve d q).2, some ⟨id, (s.resolve d q).1⟩, [.processing]⟩ := by
  cases q with
  | completions line n column => cases h
  | _ =>
      cases h
      simp only [ask, Query.uri?, Option.getD_some, hd]

/-- A question leaves the session as it is, or looks up the markers of an open document. -/
theorem ask_cases (s : Session) (id : Option String) (q : Query) :
    (s.ask id q).session = s ∨
      ∃ uri d, s.store.get? uri = some d ∧ (s.ask id q).session = (s.markersOf d).2 := by
  cases hq : q.uri? with
  | none =>
      cases q with
      | completions line n column => exact .inl rfl
      | _ => cases hq
  | some uri =>
      cases hd : s.store.get? uri with
      | none =>
          rw [s.ask_of_closed id hq hd]
          exact .inl rfl
      | some d =>
          rw [s.ask_of_open id hq hd]
          rcases s.resolve_cases d q with h | h
          · exact .inl h
          · exact .inr ⟨uri, d, hd, h⟩

theorem ask_configuration (s : Session) (id : Option String) (q : Query) :
    (s.ask id q).session.configuration = s.configuration := by
  rcases s.ask_cases id q with h | ⟨_, d, _, h⟩
  · rw [h]
  · rw [h, markersOf_configuration]

theorem ask_store (s : Session) (id : Option String) (q : Query) :
    (s.ask id q).session.store = s.store := by
  rcases s.ask_cases id q with h | ⟨_, d, _, h⟩
  · rw [h]
  · rw [h, markersOf_store]

end Session
end Stepwise
