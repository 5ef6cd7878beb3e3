import Stepwise.Proofs.RepeatedKeys
import Stepwise.Proofs.SessionRun

/-!
# Replacement of one registry

The six kinds of configuration request are one operation with parameters: a
decoder, the registry that decoded content makes, and the registry that is
installed when there is no content. The checks that data has to pass are listed as
a relation of their own, so that "accepted" does not mean "what was installed".

A request replaces the registry of its own kind and no other. Data that fails any
check empties the registry. After a run a registry depends on the data of the last
request of its kind and on nothing else that happened.
-/
namespace Stepwise
namespace ConfigKind

def Content : ConfigKind → Type
  | keywords => List Phrase
  | metatags => List String
  | steps => Steps
  | vars => Variables
  | imports => Imports
  | messages => List (String × String)

def decoder : (kind : ConfigKind) → Option Yaml.Node → Except DecodeError kind.Content
  | keywords => Payload.keywords
  | metatags => Payload.metatags
  | steps => Payload.steps
  | vars => Payload.vars
  | imports => Payload.imports
  | messages => Payload.messages

def emptyContent : (kind : ConfigKind) → kind.Content
  | keywords => []
  | metatags => []
  | steps => .empty
  | vars => .empty
  | imports => .empty
  | messages => []

/-- What a configuration keeps for a kind. The index of step shapes goes with the steps. -/
def Registry : ConfigKind → Type
  | keywords => Lexicon
  | metatags => List String
  | steps => Steps × ShapeIndex
  | vars => Variables
  | imports => Imports
  | messages => List (String × String)

def holding : (kind : ConfigKind) → kind.Content → kind.Registry
  | keywords => Lexicon.ofPhrases
  | metatags => id
  | steps => fun found => (found, .ofSteps found)
  | vars => id
  | imports => id
  | messages => id

def emptyRegistry : (kind : ConfigKind) → kind.Registry
  | keywords => .empty
  | metatags => []
  | steps => (.empty, ⟨[]⟩)
  | vars => .empty
  | imports => .empty
  | messages => []

theorem holding_emptyContent (kind : ConfigKind) :
    kind.holding kind.emptyContent = kind.emptyRegistry := by
  cases kind <;> rfl

theorem decoder_none (kind : ConfigKind) : kind.decoder none = .ok kind.emptyContent := by
  cases kind <;> rfl

/-- Data that is not there or is `null`. -/
def Absent (data : Option String) : Prop :=
  Text.trim (data.getD "") = "" ∨ Text.trim (data.getD "") = "null"

/-- Data passes the checks of a kind and has this root. Absent data passes without one. -/
inductive Admits (kind : ConfigKind) (data : Option String) : Option Yaml.Node → Prop
  | absent : Absent data → Admits kind data none
  | present {compact : String} {json : Json} {p : Payload} : ¬Absent data →
      Json.compact? false (Text.trim (data.getD "")) = some compact →
      Json.first? compact = some json → kind.violation? json = none →
      Payload.parse compact = .ok p → Admits kind data p.root

/-- Data passes all checks and decodes to this content. -/
def Yields (kind : ConfigKind) (data : Option String) (content : kind.Content) : Prop :=
  ∃ root, kind.Admits data root ∧ kind.decoder root = .ok content

theorem rootOf_of_absent (kind : ConfigKind) {data : Option String} (h : Absent data) :
    kind.rootOf data = .ok none := by
  rcases h with h | h <;> simp [rootOf, h]

/-- The checks are made in their order, and their relation misses none of them. -/
theorem rootOf_eq_ok_iff (kind : ConfigKind) (data : Option String) (root : Option Yaml.Node) :
    kind.rootOf data = .ok root ↔ kind.Admits data root := by
  by_cases ha : Absent data
  · rw [kind.rootOf_of_absent ha]
    constructor
    · intro h
      cases h
      exact .absent ha
    · intro h
      cases h with
      | absent _ => rfl
      | present hn _ _ _ _ => exact absurd ha hn
  · have hpresent : ((Text.trim (data.getD "")).isEmpty ||
        Text.trim (data.getD "") == "null") = false := by
      simpa [Absent, not_or] using ha
    unfold rootOf
    simp only [hpresent, Bool.false_eq_true, if_false]
    constructor
    · intro h
      cases hc : Json.compact? false (Text.trim (data.getD "")) with
      | none => simp [hc] at h
      | some compact =>
          cases hj : Json.first? compact with
          | none => simp [hc, hj] at h
          | some json =>
              cases hv : kind.violation? json with
              | some v => simp [hc, hj, hv] at h
              | none =>
                  cases hp : Payload.parse compact with
                  | error e => simp [hc, hj, hv, hp] at h
                  | ok p =>
                      simp only [hc, hj, hv, hp, Except.ok.injEq] at h
                      exact h ▸ .present ha hc hj hv hp
    · intro h
      cases h with
      | absent h => exact absurd h ha
      | present _ hc hj hv hp => simp [hc, hj, hv, hp]

theorem decodeWith_eq_ok_iff (kind : ConfigKind) (data : Option String) (content : kind.Content) :
    kind.decodeWith kind.decoder data = .ok content ↔ kind.Yields data content := by
  unfold decodeWith Yields
  constructor
  · intro h
    cases hr : kind.rootOf data with
    | error e => simp [hr] at h
    | ok root =>
        cases hd : kind.decoder root with
        | error e => simp [hr, hd] at h
        | ok a =>
            simp only [hr, hd, Except.ok.injEq] at h
            exact ⟨root, (kind.rootOf_eq_ok_iff data root).mp hr, h ▸ hd⟩
  · rintro ⟨root, hroot, hd⟩
    simp [(kind.rootOf_eq_ok_iff data root).mpr hroot, hd]

def contentOf (kind : ConfigKind) (data : Option String) : kind.Content :=
  (kind.decodeWith kind.decoder data).toOption.getD kind.emptyContent

def registryOf (kind : ConfigKind) (data : Option String) : kind.Registry :=
  kind.holding (kind.contentOf data)

theorem registryOf_of_yields {kind : ConfigKind} {data : Option String} {content : kind.Content}
    (h : kind.Yields data content) : kind.registryOf data = kind.holding content := by
  rw [registryOf, contentOf, (kind.decodeWith_eq_ok_iff data content).mpr h]
  rfl

theorem registryOf_of_refused {kind : ConfigKind} {data : Option String}
    (h : ∀ content, ¬kind.Yields data content) : kind.registryOf data = kind.emptyRegistry := by
  rw [registryOf, contentOf, ← kind.holding_emptyContent]
  cases hd : kind.decodeWith kind.decoder data with
  | error e => rfl
  | ok content => exact absurd ((kind.decodeWith_eq_ok_iff data content).mp hd) (h content)

theorem registryOf_of_absent (kind : ConfigKind) {data : Option String} (h : Absent data) :
    kind.registryOf data = kind.emptyRegistry := by
  rw [← kind.holding_emptyContent]
  exact registryOf_of_yields ⟨none, .absent h, kind.decoder_none⟩

/-- Data that repeats a key anywhere is refused, whatever the schema says about it. -/
theorem registryOf_of_repeatsKey (kind : ConfigKind) {data : Option String} {compact : String}
    {root : Yaml.Node} (hc : Json.compact? false (Text.trim (data.getD "")) = some compact)
    (hp : Yaml.parse compact = .ok (.root root)) (hr : root.RepeatsKey) :
    kind.registryOf data = kind.emptyRegistry := by
  by_cases ha : Absent data
  · exact kind.registryOf_of_absent ha
  · apply registryOf_of_refused
    rintro content ⟨r, hroot, _⟩
    cases hroot with
    | absent h => exact ha h
    | present _ hc' _ _ hparse =>
        rw [hc, Option.some.injEq] at hc'
        rw [← hc', Payload.parse_of_repeatsKey hp hr] at hparse
        cases hparse

end ConfigKind

namespace Configuration

def registry (c : Configuration) : (kind : ConfigKind) → kind.Registry
  | .keywords => c.lexicon
  | .metatags => c.metatags
  | .steps => (c.steps, c.shapes)
  | .vars => c.vars
  | .imports => c.imports
  | .messages => c.messages

def put (c : Configuration) : (kind : ConfigKind) → kind.Content → Configuration
  | .keywords, content => c.withLexicon (.ofPhrases content)
  | .metatags, content => c.withMetatags content
  | .steps, content => c.withSteps content
  | .vars, content => c.withVariables content
  | .imports, content => c.withImports content
  | .messages, content => c.withMessages content

theorem install_fst {α : Type} (content : Except Refusal α) (empty : α)
    (put : α → Configuration) :
    (install content empty put).1 = put (content.toOption.getD empty) := by
  cases content <;> rfl

/-- All six requests are one operation. -/
theorem apply_fst (c : Configuration) (kind : ConfigKind) (data : Option String) :
    (c.apply kind data).1 = c.put kind (kind.contentOf data) := by
  unfold apply put ConfigKind.contentOf
  cases kind <;> exact install_fst _ _ _

section
variable (c : Configuration) (kind : ConfigKind) (content : kind.Content)

theorem put_generation : (c.put kind content).generation = c.generation + 1 := by
  cases kind <;> rfl

theorem put_directives : (c.put kind content).directives = c.directives := by
  cases kind <;> rfl

theorem put_registry_self : (c.put kind content).registry kind = kind.holding content := by
  cases kind <;> rfl

theorem put_registry_of_ne {other : ConfigKind} (h : other ≠ kind) :
    (c.put kind content).registry other = c.registry other := by
  cases kind <;> cases other <;> first | exact absurd rfl h | rfl

end

theorem apply_generation (c : Configuration) (kind : ConfigKind) (data : Option String) :
    (c.apply kind data).1.generation = c.generation + 1 := by
  rw [apply_fst, put_generation]

end Configuration

def SessionEvent.dataFor? (kind : ConfigKind) (e : SessionEvent) : Option (Option String) :=
  match e.request? with
  | some (.configure k data) => if k = kind then some data else none
  | _ => none

def lastData? (kind : ConfigKind) (events : List SessionEvent) : Option (Option String) :=
  events.reverse.findSome? (·.dataFor? kind)

theorem lastData?_cons (kind : ConfigKind) (e : SessionEvent) (events : List SessionEvent) :
    lastData? kind (e :: events) = (lastData? kind events).or (e.dataFor? kind) := by
  simp [lastData?, List.findSome?_append]

namespace Session

theorem process_configure_configuration (s : Session) (kind : ConfigKind) (data : Option String) :
    (s.process (.configure kind data)).session.configuration = (s.configuration.apply kind data).1 :=
  rfl

/-- One event changes the registry of a kind only by data for that kind. -/
theorem registry_step (s : Session) (e : SessionEvent) (kind : ConfigKind) :
    (s.step e).configuration.registry kind =
      match e.dataFor? kind with
      | some data => kind.registryOf data
      | none => s.configuration.registry kind := by
  unfold SessionEvent.dataFor?
  rcases s.step_cases e with ⟨r, hr, hs⟩ | ⟨hr, memo, _, hs⟩
  · rw [hs, hr]
    cases r with
    | update uri version content => rfl
    | delete uri => rfl
    | query id q => exact congrArg (Configuration.registry · kind) (s.ask_configuration id q)
    | configure k data =>
        rw [process_configure_configuration]
        by_cases hk : k = kind
        · subst hk
          rw [Configuration.apply_fst, Configuration.put_registry_self]
          simp only [if_true]
          rw [ConfigKind.registryOf]
        · rw [Configuration.apply_fst, Configuration.put_registry_of_ne _ _ _ (Ne.symm hk)]
          simp only [hk, if_false]
  · rw [hs, hr]

/-- After a run a registry is that of the last data for its kind. -/
theorem registry_run (s : Session) (events : List SessionEvent) (kind : ConfigKind) :
    (s.run events).configuration.registry kind =
      match lastData? kind events with
      | some data => kind.registryOf data
      | none => s.configuration.registry kind := by
  induction events generalizing s with
  | nil => rfl
  | cons e events ih =>
      rw [run_cons, ih, lastData?_cons, registry_step]
      cases lastData? kind events <;> cases e.dataFor? kind <;> rfl

/-- A configuration request is never answered. It counts up the generation and replaces
the registry of its kind by the content of its data, or by nothing when the data is
absent or fails a check; every other registry, the import directives and the documents
stay. So after any run a registry is what the last request of its kind makes of it
anywhere else, and as it was when there was none. -/
theorem configure_replaces_own_registry (s : Session) (kind : ConfigKind) (data : Option String) :
    let after := s.process (.configure kind data)
    let c := after.session.configuration
    after.reply = none ∧ c.generation = s.configuration.generation + 1 ∧
      (∀ content, kind.Yields data content → c.registry kind = kind.holding content) ∧
      ((∀ content, ¬kind.Yields data content) → c.registry kind = kind.emptyRegistry) ∧
      (ConfigKind.Absent data → c.registry kind = kind.emptyRegistry) ∧
      (∀ compact root, Json.compact? false (Text.trim (data.getD "")) = some compact →
        Yaml.parse compact = .ok (.root root) → root.RepeatsKey →
        c.registry kind = kind.emptyRegistry) ∧
      (∀ other, other ≠ kind → c.registry other = s.configuration.registry other) ∧
      c.directives = s.configuration.directives ∧ after.session.store = s.store ∧
      (∀ t : Session, ∀ events, lastData? kind events = some data →
        (t.run events).configuration.registry kind = c.registry kind) ∧
      (∀ events, lastData? kind events = none →
        (s.run events).configuration.registry kind = s.configuration.registry kind) := by
  intro after c
  have happly : c = s.configuration.put kind (kind.contentOf data) :=
    s.configuration.apply_fst kind data
  have hc : c.registry kind = kind.registryOf data := by
    rw [happly, Configuration.put_registry_self, ConfigKind.registryOf]
  refine ⟨rfl, s.configuration.apply_generation kind data, ?_, ?_, ?_, ?_, ?_,
    by rw [happly, Configuration.put_directives], rfl, ?_, ?_⟩
  · intro content h
    rw [hc, ConfigKind.registryOf_of_yields h]
  · intro h
    rw [hc, ConfigKind.registryOf_of_refused h]
  · intro h
    rw [hc, kind.registryOf_of_absent h]
  · intro compact root h hp hr
    rw [hc, kind.registryOf_of_repeatsKey h hp hr]
  · intro other h
    rw [happly, Configuration.put_registry_of_ne _ _ _ h]
  · intro t events h
    rw [registry_run, h, hc]
  · intro events h
    rw [registry_run, h]

end Session
end Stepwise
