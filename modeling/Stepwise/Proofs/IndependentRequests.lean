import Stepwise.Proofs.MemoFreshness

/-!
# Independent requests and unseen questions

Two runs may give a document other revisions and a configuration another generation,
and may remember other markers, and still no question tells them apart. Sessions are
alike when they hold the same registries, the same directives and, at every address,
the same lines. A question is answered from these alone.

What one event does to a registry or to the lines at an address depends on the event
and on nothing else. So two events of which at most one touches any registry and any
address can change places, a question can be asked or left out, and a configuration
request can be made twice.
-/
namespace Stepwise
namespace LineContext

theorem classify_generation (c : Configuration) (g : Nat) (before : LineContext) (line : String) :
    before.classify { c with generation := g } line = before.classify c line := by
  have hform (trimmed : String) :
      LineForm.of { c with generation := g } trimmed = LineForm.of c trimmed := rfl
  have hmiss (trimmed : String) :
      Configuration.opensWithNearMiss { c with generation := g } trimmed =
        c.opensWithNearMiss trimmed := rfl
  unfold classify
  simp only [hform]
  cases before.fence with
  | some f => rfl
  | none =>
      cases LineForm.of c (Text.trim line) with
      | free => simp only [classifyForm, hmiss]
      | _ => rfl

theorem classifyAll_generation (c : Configuration) (g : Nat) (before : LineContext)
    (lines : List String) :
    before.classifyAll { c with generation := g } lines = before.classifyAll c lines := by
  induction lines generalizing before with
  | nil => rfl
  | cons line rest ih =>
      simp only [classifyAll, classify_generation, ih]

end LineContext

namespace Document

theorem metatagFolds_generation (c : Configuration) (g : Nat) (covered : Nat → Bool)
    (free position : Nat) (lines : List String) :
    metatagFolds { c with generation := g } covered free position lines =
      metatagFolds c covered free position lines := by
  induction lines generalizing free position with
  | nil => rfl
  | cons line rest ih =>
      have htag : Configuration.isMetatag { c with generation := g } line = c.isMetatag line := rfl
      simp only [metatagFolds, htag, ih]

theorem diagnostics_generation (c : Configuration) (g : Nat) (d : Document) :
    d.diagnostics { c with generation := g } = d.diagnostics c := by
  have hclasses : d.classes { c with generation := g } = d.classes c :=
    LineContext.classifyAll_generation c g _ d.lines
  unfold diagnostics
  rw [hclasses]
  rfl

theorem folds_generation (c : Configuration) (g : Nat) (d : Document) :
    d.folds { c with generation := g } = d.folds c := by
  unfold folds
  simp only [metatagFolds_generation]
  rfl

theorem fixes_generation (c : Configuration) (g : Nat) (d : Document) (span : Span)
    (markers : List Marker) :
    d.fixes { c with generation := g } span markers = d.fixes c span markers := by
  unfold fixes
  rw [diagnostics_generation]
  rfl

section
variable {d e : Document} (h : d.lines = e.lines)
include h

theorem lastContent_congr (start limit : Nat) :
    d.lastContent start limit = e.lastContent start limit := by
  induction limit with
  | zero => rfl
  | succ limit ih => simp only [lastContent, h, ih]

theorem headingFolds_congr (headings : List Nat) :
    d.headingFolds headings = e.headingFolds headings := by
  induction headings with
  | nil => rfl
  | cons start rest ih =>
      unfold headingFolds
      rw [ih, lineCount, lineCount, h, lastContent_congr h]

theorem diagnostics_congr (c : Configuration) : d.diagnostics c = e.diagnostics c := by
  simp only [diagnostics, classes, numbered, h]

theorem folds_congr (c : Configuration) : d.folds c = e.folds c := by
  simp only [folds, headings, headingFolds_congr h, h]

theorem links_congr (c : Configuration) : d.links c = e.links c := by
  simp only [links, mentions, numbered, h]

theorem fixes_congr (c : Configuration) (span : Span) (markers : List Marker) :
    d.fixes c span markers = e.fixes c span markers := by
  simp only [fixes, fixSpan, lineCount, importFixes, mentions, numbered, line, h,
    diagnostics_congr h]

theorem hover?_congr (c : Configuration) (n column : Int) :
    d.hover? c n column = e.hover? c n column := by
  simp only [hover?, line, h]

end
end Document

/-- The answer to a question about a document, worked out anew. -/
def Document.answer? (c : Configuration) (d : Document) : Query → Option Answer
  | .completions line n column => some (.completions (c.completions line n column))
  | .codeActions _ span markers => some (.fixes (d.fixes c span markers))
  | .folding _ => some (.folds (d.folds c))
  | .links _ => some (.links (d.links c))
  | .hover _ n column => (d.hover? c n column).map .hover
  | .linkData _ name => (c.linkTarget? name).map .target
  | .checkSyntax _ => some (.markers (d.diagnostics c))

theorem Document.answer?_generation (c : Configuration) (g : Nat) (d : Document) (q : Query) :
    d.answer? { c with generation := g } q = d.answer? c q := by
  cases q with
  | codeActions uri span markers =>
      simp only [answer?, fixes_generation]
  | folding uri => simp only [answer?, folds_generation]
  | checkSyntax uri => simp only [answer?, diagnostics_generation]
  | completions line n column => rfl
  | links uri => rfl
  | hover uri n column => rfl
  | linkData uri name => rfl

theorem Document.answer?_congr {d e : Document} (h : d.lines = e.lines) (c : Configuration)
    (q : Query) : d.answer? c q = e.answer? c q := by
  cases q with
  | codeActions uri span markers => simp only [answer?, fixes_congr h]
  | folding uri => simp only [answer?, folds_congr h]
  | checkSyntax uri => simp only [answer?, diagnostics_congr h]
  | links uri => simp only [answer?, links_congr h]
  | hover uri n column => simp only [answer?, hover?_congr h]
  | completions line n column => rfl
  | linkData uri name => rfl

/-- Registries and directives make up all of a configuration but its generation. -/
theorem Configuration.eq_of_registry {c c' : Configuration}
    (hr : ∀ kind, c.registry kind = c'.registry kind) (hd : c.directives = c'.directives) :
    c' = { c with generation := c'.generation } := by
  have hlexicon : c.lexicon = c'.lexicon := hr .keywords
  have hmetatags : c.metatags = c'.metatags := hr .metatags
  have hsteps : (c.steps, c.shapes) = (c'.steps, c'.shapes) := hr .steps
  have hvars : c.vars = c'.vars := hr .vars
  have himports : c.imports = c'.imports := hr .imports
  have hmessages : c.messages = c'.messages := hr .messages
  obtain ⟨hsteps, hshapes⟩ := Prod.mk.inj hsteps
  cases c
  cases c'
  simp_all

namespace Store

/-- The lines at an address, if there is a document. -/
def lines? (st : Store) (uri : String) : Option (List String) :=
  (st.get? uri).map (·.lines)

end Store

/-- What an event puts at an address: some lines, or nothing when it closes the document
there. There is no answer for an event that leaves the address alone. -/
def SessionEvent.linesFor? (uri : String) (e : SessionEvent) : Option (Option (List String)) :=
  match e.request? with
  | some (.update u _ lines) =>
    if Location.normalize u = Location.normalize uri then some (some lines) else none
  | some (.delete u) => if Location.normalize u = Location.normalize uri then some none else none
  | _ => none

namespace Session

/-- One event changes the lines at an address only by what it puts there. -/
theorem lines?_step (s : Session) (e : SessionEvent) (uri : String) :
    (s.step e).store.lines? uri =
      match e.linesFor? uri with
      | some lines => lines
      | none => s.store.lines? uri := by
  unfold SessionEvent.linesFor?
  rcases s.step_cases e with ⟨r, hr, hs⟩ | ⟨hr, memo, _, hs⟩
  · rw [hs, hr]
    cases r with
    | update u version lines =>
        change ((s.store.update u version lines).get? uri).map (·.lines) = _
        rw [Store.get?_update_eq]
        by_cases h : Location.normalize u = Location.normalize uri
        · simp only [h, if_true]
          rfl
        · simp only [h, if_false]
          rfl
    | delete u =>
        change ((s.store.close u).get? uri).map (·.lines) = _
        rw [Store.get?_close_eq]
        by_cases h : Location.normalize u = Location.normalize uri
        · simp only [h, if_true]
          rfl
        · simp only [h, if_false]
          rfl
    | configure kind data => rfl
    | query id q => exact congrArg (Store.lines? · uri) (s.ask_store id q)
  · rw [hs, hr]

theorem directives_step (s : Session) (e : SessionEvent) :
    (s.step e).configuration.directives = s.configuration.directives := by
  rcases s.step_cases e with ⟨r, _, hs⟩ | ⟨_, memo, _, hs⟩
  · rw [hs]
    cases r with
    | update u version lines => rfl
    | delete u => rfl
    | configure kind data =>
        rw [process_configure_configuration, Configuration.apply_fst, Configuration.put_directives]
    | query id q => exact congrArg Configuration.directives (s.ask_configuration id q)
  · rw [hs]

/-- Sessions that differ at most in their counters and in what they remember. -/
structure Alike (s t : Session) : Prop where
  registry : ∀ kind, s.configuration.registry kind = t.configuration.registry kind
  directives : s.configuration.directives = t.configuration.directives
  lines : ∀ uri, s.store.lines? uri = t.store.lines? uri

theorem Alike.step {s t : Session} (h : s.Alike t) (e : SessionEvent) :
    (s.step e).Alike (t.step e) := by
  constructor
  · intro kind
    rw [registry_step, registry_step, h.registry kind]
  · rw [directives_step, directives_step, h.directives]
  · intro uri
    rw [lines?_step, lines?_step, h.lines uri]

/-- An event that touches no registry and no address leaves a session as it was. -/
theorem alike_step_of_untouched (s : Session) {e : SessionEvent}
    (hr : ∀ kind, e.dataFor? kind = none) (hl : ∀ uri, e.linesFor? uri = none) :
    s.Alike (s.step e) := by
  constructor
  · intro kind
    rw [registry_step, hr]
  · rw [directives_step]
  · intro uri
    rw [lines?_step, hl]

/-- Events of which at most one touches any registry and any address change places. -/
theorem alike_step_comm (s : Session) {a b : SessionEvent}
    (hr : ∀ kind, a.dataFor? kind = none ∨ b.dataFor? kind = none)
    (hl : ∀ uri, a.linesFor? uri = none ∨ b.linesFor? uri = none) :
    ((s.step a).step b).Alike ((s.step b).step a) := by
  constructor
  · intro kind
    rw [registry_step, registry_step, registry_step, registry_step]
    rcases hr kind with h | h <;> rw [h]
  · rw [directives_step, directives_step, directives_step, directives_step]
  · intro uri
    rw [lines?_step, lines?_step, lines?_step, lines?_step]
    rcases hl uri with h | h <;> rw [h]

/-- An event that happens twice in a row might have happened once. -/
theorem alike_step_step (s : Session) (e : SessionEvent) :
    (s.step e).Alike ((s.step e).step e) := by
  constructor
  · intro kind
    rw [registry_step (s.step e), registry_step]
    cases e.dataFor? kind <;> rfl
  · rw [directives_step (s.step e)]
  · intro uri
    rw [lines?_step (s.step e), lines?_step]
    cases e.linesFor? uri <;> rfl

/-- Whatever is remembered, a question is answered as if nothing were. -/
theorem Sound.resolve_fst {s : Session} (h : s.Sound) {d : Document}
    (hd : d ∈ s.store.documents) (q : Query) :
    (s.resolve d q).1 = d.answer? s.configuration q := by
  cases q with
  | checkSyntax uri =>
      rw [resolve, Document.answer?]
      dsimp only
      rw [h.markersOf_fst hd]
  | _ => rw [resolve, Document.answer?]

theorem Alike.answer? {s t : Session} (h : s.Alike t) {d e : Document} (hl : d.lines = e.lines)
    (q : Query) : d.answer? s.configuration q = e.answer? t.configuration q := by
  have hc := Configuration.eq_of_registry h.registry h.directives
  calc d.answer? s.configuration q
      = d.answer? { s.configuration with generation := t.configuration.generation } q :=
        (Document.answer?_generation _ _ d q).symm
    _ = d.answer? t.configuration q := by rw [← hc]
    _ = e.answer? t.configuration q := Document.answer?_congr hl _ q

theorem Alike.ask_reply {s t : Session} (h : s.Alike t) (hs : s.Sound) (ht : t.Sound)
    (id : Option String) (q : Query) : (s.ask id q).reply = (t.ask id q).reply := by
  cases hq : q.uri? with
  | none =>
      cases q with
      | completions line n column =>
          have hd : (⟨"", 0, 0, []⟩ : Document).lines = [] := rfl
          have := h.answer? (hd.trans hd.symm) (.completions line n column)
          exact congrArg (fun a => some (Reply.mk id a)) this
      | _ => cases hq
  | some uri =>
      have hl := h.lines uri
      unfold Store.lines? at hl
      cases hds : s.store.get? uri with
      | none =>
          rw [hds, Option.map_none, eq_comm, Option.map_eq_none_iff] at hl
          rw [s.ask_of_closed id hq hds, t.ask_of_closed id hq hl]
      | some d =>
          rw [hds, Option.map_some, eq_comm, Option.map_eq_some_iff] at hl
          obtain ⟨e, hdt, hlines⟩ := hl
          rw [s.ask_of_open id hq hds, t.ask_of_open id hq hdt]
          rw [hs.resolve_fst (Store.mem_of_get? hds), ht.resolve_fst (Store.mem_of_get? hdt)]
          rw [h.answer? hlines.symm]

theorem Alike.replyTo {s t : Session} (h : s.Alike t) (hs : s.Sound) (ht : t.Sound)
    (e : SessionEvent) : s.replyTo e = t.replyTo e := by
  cases hr : e.request? with
  | some r =>
      rw [s.replyTo_of_request hr, t.replyTo_of_request hr]
      cases r with
      | update uri version lines => rfl
      | delete uri => rfl
      | configure kind data => rfl
      | query id q => exact h.ask_reply hs ht id q
  | none =>
      -- a text that cannot be read is answered from itself
      cases e with
      | request r => cases hr
      | expiry keep => rfl
      | text text =>
          cases hd : Request.decode text with
          | ok r =>
              rw [SessionEvent.request?, hd] at hr
              cases hr
          | error fault => simp only [Session.replyTo, processText, hd]

end Session

/-- The document that a request stores or closes. -/
def Request.document? : Request → Option String
  | .update uri _ _ => some uri
  | .delete uri => some uri
  | .configure _ _ => none
  | .query _ _ => none

/-- Requests that change different things: two registries, two documents, or a registry
and a document. -/
inductive Request.Independent : Request → Request → Prop
  | registries {kind other : ConfigKind} (data data' : Option String) : kind ≠ other →
      Independent (.configure kind data) (.configure other data')
  | documents {r r' : Request} {uri uri' : String} : r.document? = some uri →
      r'.document? = some uri' → Location.normalize uri ≠ Location.normalize uri' →
      Independent r r'
  | registryDocument (kind : ConfigKind) (data : Option String) {r : Request} {uri : String} :
      r.document? = some uri → Independent (.configure kind data) r

namespace SessionEvent

def Independent (a b : SessionEvent) : Prop :=
  ∃ r r', a.request? = some r ∧ b.request? = some r' ∧ r.Independent r'

/-- A question, or an event that brings no request. -/
def Unseen (e : SessionEvent) : Prop :=
  ∀ r, e.request? = some r → ∃ id q, r = .query id q

def Configures (e : SessionEvent) : Prop :=
  ∃ kind data, e.request? = some (.configure kind data)

theorem dataFor?_of_document {e : SessionEvent} {r : Request} {uri : String}
    (h : e.request? = some r) (hr : r.document? = some uri) (kind : ConfigKind) :
    e.dataFor? kind = none := by
  cases r with
  | update u version lines => rw [dataFor?, h]
  | delete u => rw [dataFor?, h]
  | configure k data => cases hr
  | query id q => cases hr

theorem linesFor?_of_document {e : SessionEvent} {r : Request} {uri other : String}
    (h : e.request? = some r) (hr : r.document? = some uri)
    (hne : Location.normalize uri ≠ Location.normalize other) : e.linesFor? other = none := by
  cases r with
  | update u version lines =>
      cases hr
      simp only [linesFor?, h, hne, if_false]
  | delete u =>
      cases hr
      simp only [linesFor?, h, hne, if_false]
  | configure k data => cases hr
  | query id q => cases hr

theorem linesFor?_of_configure {e : SessionEvent} {kind : ConfigKind} {data : Option String}
    (h : e.request? = some (.configure kind data)) (uri : String) : e.linesFor? uri = none := by
  rw [linesFor?, h]

theorem Independent.dataFor? {a b : SessionEvent} (h : a.Independent b) (kind : ConfigKind) :
    a.dataFor? kind = none ∨ b.dataFor? kind = none := by
  obtain ⟨r, r', ha, hb, hi⟩ := h
  cases hi with
  | @registries k l data data' hne =>
      by_cases hk : k = kind
      · have hl : l ≠ kind := fun hl => hne (hk.trans hl.symm)
        right
        simp only [SessionEvent.dataFor?, hb, hl, if_false]
      · left
        simp only [SessionEvent.dataFor?, ha, hk, if_false]
  | documents hr hr' hne => exact .inl (dataFor?_of_document ha hr kind)
  | registryDocument k data hr => exact .inr (dataFor?_of_document hb hr kind)

theorem Independent.linesFor? {a b : SessionEvent} (h : a.Independent b) (uri : String) :
    a.linesFor? uri = none ∨ b.linesFor? uri = none := by
  obtain ⟨r, r', ha, hb, hi⟩ := h
  cases hi with
  | registries data data' hne => exact .inl (linesFor?_of_configure ha uri)
  | registryDocument k data hr => exact .inl (linesFor?_of_configure ha uri)
  | @documents r r' u u' hr hr' hne =>
      by_cases hu : Location.normalize u = Location.normalize uri
      · exact .inr (linesFor?_of_document hb hr' fun hu' => hne (hu.trans hu'.symm))
      · exact .inl (linesFor?_of_document ha hr hu)

theorem Independent.replyTo {a b : SessionEvent} (h : a.Independent b) (s : Session) :
    s.replyTo a = none ∧ s.replyTo b = none := by
  have hdocument : ∀ {r : Request} {uri : String}, r.document? = some uri →
      (s.process r).reply = none := by
    intro r uri hr
    cases r with
    | update u version lines => rfl
    | delete u => rfl
    | configure k data => cases hr
    | query id q => cases hr
  obtain ⟨r, r', ha, hb, hi⟩ := h
  rw [s.replyTo_of_request ha, s.replyTo_of_request hb]
  cases hi with
  | registries data data' hne => exact ⟨rfl, rfl⟩
  | documents hr hr' hne => exact ⟨hdocument hr, hdocument hr'⟩
  | registryDocument k data hr => exact ⟨rfl, hdocument hr⟩

theorem Unseen.dataFor? {e : SessionEvent} (h : e.Unseen) (kind : ConfigKind) :
    e.dataFor? kind = none := by
  unfold SessionEvent.dataFor?
  cases hr : e.request? with
  | none => rfl
  | some r =>
      obtain ⟨id, q, rfl⟩ := h r hr
      rfl

theorem Unseen.linesFor? {e : SessionEvent} (h : e.Unseen) (uri : String) :
    e.linesFor? uri = none := by
  unfold SessionEvent.linesFor?
  cases hr : e.request? with
  | none => rfl
  | some r =>
      obtain ⟨id, q, rfl⟩ := h r hr
      rfl

end SessionEvent

/-- An event of one of two runs that are compared. It is common when the other run has it
too; a question of one run only is not. -/
structure ComparedEvent where
  event : SessionEvent
  common : Bool

/-- One run comes from another by exchanges of neighbours that are independent, by
questions asked or left out, and by configuration requests made twice. -/
inductive Varies : List ComparedEvent → List ComparedEvent → Prop
  | refl (run : List ComparedEvent) : Varies run run
  | exchange (a b : ComparedEvent) (before after : List ComparedEvent) :
      a.event.Independent b.event →
      Varies (before ++ a :: b :: after) (before ++ b :: a :: after)
  | question (e : SessionEvent) (before after : List ComparedEvent) : e.Unseen →
      Varies (before ++ after) (before ++ ⟨e, false⟩ :: after)
  | repetition (a : ComparedEvent) (before after : List ComparedEvent) : a.event.Configures →
      Varies (before ++ a :: after) (before ++ a :: ⟨a.event, false⟩ :: after)
  | symm {run other : List ComparedEvent} : Varies run other → Varies other run
  | trans {run other third : List ComparedEvent} :
      Varies run other → Varies other third → Varies run third

namespace Session

/-- The replies to the common events of a run, in order. -/
def commonReplies (s : Session) : List ComparedEvent → List (Option Reply)
  | [] => []
  | a :: rest =>
    if a.common then s.replyTo a.event :: commonReplies (s.step a.event) rest
    else commonReplies (s.step a.event) rest

theorem commonReplies_append (s : Session) (before after : List ComparedEvent) :
    s.commonReplies (before ++ after) =
      s.commonReplies before ++ (s.run (before.map (·.event))).commonReplies after := by
  induction before generalizing s with
  | nil => rfl
  | cons a before ih =>
      simp only [List.cons_append, commonReplies, List.map_cons, run_cons, ih]
      split <;> rfl

/-- Runs from alike sessions are answered alike. -/
theorem Alike.commonReplies {s t : Session} (h : s.Alike t) (hs : s.Sound) (ht : t.Sound)
    (run : List ComparedEvent) : s.commonReplies run = t.commonReplies run := by
  induction run generalizing s t with
  | nil => rfl
  | cons a rest ih =>
      have hrest := ih (h.step a.event) (hs.step a.event) (ht.step a.event)
      simp only [Session.commonReplies, hrest, h.replyTo hs ht]

/-- Two runs from the first session, one of which varies the other, give every common
question the same reply. -/
theorem commonReplies_of_varies (directives : List String) {run other : List ComparedEvent}
    (h : Varies run other) :
    (withDirectives directives).commonReplies run =
      (withDirectives directives).commonReplies other := by
  have hsound (before : List ComparedEvent) :=
    (sound_withDirectives directives).run (before.map (·.event))
  -- every variation leaves what stands before it alone, so only its own events matter
  induction h with
  | refl run => rfl
  | symm _ ih => exact ih.symm
  | trans _ _ ih ih' => exact ih.trans ih'
  | question e before after he =>
      rw [commonReplies_append, commonReplies_append]
      congr 1
      have halike := alike_step_of_untouched
        ((withDirectives directives).run (before.map (·.event))) he.dataFor? he.linesFor?
      exact halike.commonReplies (hsound before) ((hsound before).step e) after
  | repetition a before after _ =>
      rw [commonReplies_append, commonReplies_append]
      congr 1
      have hafter := (alike_step_step _ a.event).commonReplies ((hsound before).step a.event)
        (((hsound before).step a.event).step a.event) after
      simp only [commonReplies, hafter, Bool.false_eq_true, if_false]
  | exchange a b before after hi =>
      rw [commonReplies_append, commonReplies_append]
      congr 1
      have hafter := (alike_step_comm _ hi.dataFor? hi.linesFor?).commonReplies
        (((hsound before).step a.event).step b.event)
        (((hsound before).step b.event).step a.event) after
      simp only [commonReplies, hafter, (hi.replyTo _).1, (hi.replyTo _).2]
      cases a.common <;> cases b.common <;> rfl

/-- Two documents opened in either order, a question more and metatags cleared twice. -/
theorem commonReplies_of_varies_reordered :
    let first : ComparedEvent := ⟨.request (.update "inmemory:a" 1 ["x"]), true⟩
    let second : ComparedEvent := ⟨.request (.update "inmemory:b" 7 ["try"]), true⟩
    let clear : SessionEvent := .request (.configure .metatags none)
    let ask : SessionEvent := .request (.query (some "1") (.checkSyntax "inmemory:b"))
    let run := [first, second, ⟨clear, true⟩, ⟨ask, true⟩]
    let other := [second, first, ⟨ask, false⟩, ⟨clear, true⟩, ⟨clear, false⟩, ⟨ask, true⟩]
    Varies run other ∧
      (withDirectives []).commonReplies run = (withDirectives []).commonReplies other ∧
      (withDirectives []).commonReplies run = [none, none, none,
        some ⟨some "1", some (.markers [⟨Severity.error, "Syntax error", ⟨1, 1, 1, 4⟩⟩])⟩] := by
  intro first second clear ask run other
  have hne : Location.normalize "inmemory:a" ≠ Location.normalize "inmemory:b" := by
    decide +kernel
  have hindependent : first.event.Independent second.event :=
    ⟨_, _, rfl, rfl, .documents rfl rfl hne⟩
  have hask : ask.Unseen := by
    intro r hr
    cases hr
    exact ⟨_, _, rfl⟩
  have hclear : clear.Configures := ⟨_, _, rfl⟩
  have hvaries : Varies run other := by
    refine .trans (.exchange first second [] [⟨clear, true⟩, ⟨ask, true⟩] hindependent) ?_
    refine .trans (.question ask [second, first] [⟨clear, true⟩, ⟨ask, true⟩] hask) ?_
    exact .repetition ⟨clear, true⟩ [second, first, ⟨ask, false⟩] [⟨ask, true⟩] hclear
  exact ⟨hvaries, commonReplies_of_varies [] hvaries, by decide +kernel⟩

end Session
end Stepwise
