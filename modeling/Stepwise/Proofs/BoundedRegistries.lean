import Stepwise.Configuration.Apply
import Stepwise.Proofs.BoundedLines

/-!
# Registries are built and searched within bounds

A registry of steps is a list and an index of its keys: a key that comes again is
written over the definition at its position, and a definition is read at the position
of its key. Variables are found by an index of their names, which grows with them, and
steps also by one of the shapes of their keys. The index of a list names positions in
it, whatever was declared.

Nodes of a payload hold their members in pairs, so that decoding one has no positions.
-/
namespace Stepwise.Bounded

/-- The item at the position that an index gives for a key, if it gives one. -/
def itemAt {α : Type} (all : List α) : Option Nat → Option (Option α)
  | none => some none
  | some i => do return some (← at? all i)

theorem itemAt_findIdx? {α : Type} (p : α → Bool) (all : List α) :
    itemAt all (all.findIdx? p) = some (all.find? p) := by
  rw [← findIdx?_bind_getElem?]
  cases hi : all.findIdx? p with
  | none => rfl
  | some i =>
      obtain ⟨hlt, -⟩ := List.findIdx?_eq_some_iff_getElem.mp hi
      simp only [itemAt, at?_natCast, List.getElem?_eq_getElem hlt, Option.bind_eq_bind,
        Option.bind_some]
      rfl

/-- Names, each with its first position, counted from a position on. -/
def firstPositions (entries : List (String × Nat)) (position : Nat) :
    List String → List (String × Nat)
  | [] => entries
  | name :: rest => firstPositions (ShapeIndex.add entries name position) (position + 1) rest

theorem lookup_firstPositions (entries : List (String × Nat)) (position : Nat)
    (names : List String) (name : String) :
    (firstPositions entries position names).lookup name =
      (entries.lookup name).or ((names.findIdx? (· == name)).map (· + position)) := by
  induction names generalizing entries position with
  | nil => simp [firstPositions]
  | cons first names ih =>
      rw [firstPositions, ih, ShapeIndex.lookup_add, List.findIdx?_cons, Option.or_assoc]
      congr 1
      split
      · simp
      · simp only [Option.none_or, Option.map_map]
        congr 1
        funext n
        simp only [Function.comp_apply]
        omega

/-- The first variable with a name, by an index of the names in lower case. -/
def findVariable (v : Variables) (name : String) : Option (Option Variable) :=
  let index := firstPositions [] 0 (v.all.map fun x => Text.lowerSimple x.name)
  itemAt v.all (index.lookup (Text.lowerSimple (Variables.bareName name)))

theorem findVariable_eq (v : Variables) (name : String) :
    findVariable v name = some (v.find? name) := by
  unfold findVariable Variables.find?
  dsimp only
  rw [lookup_firstPositions, List.lookup_nil, Option.none_or, List.findIdx?_map,
    Function.comp_def]
  simp only [Nat.add_zero, Option.map_id']
  exact itemAt_findIdx? _ _

/-- Variables together with an index of their names in lower case. -/
abbrev IndexedVariables := List Variable × List (String × Nat)

/-- Adds a variable. The index keeps the first position of a name. -/
def putVariable (v : IndexedVariables) (x : Variable) : IndexedVariables :=
  (v.1 ++ [x], ShapeIndex.add v.2 (Text.lowerSimple x.name) v.1.length)

def indexVariables (vars : List Variable) : IndexedVariables :=
  vars.foldl putVariable ([], [])

def getVariable (v : IndexedVariables) (name : String) : Option (Option Variable) :=
  itemAt v.1 (v.2.lookup (Text.lowerSimple (Variables.bareName name)))

theorem foldl_putVariable (v : IndexedVariables) (vars : List Variable) :
    vars.foldl putVariable v =
      (v.1 ++ vars, firstPositions v.2 v.1.length (vars.map fun x => Text.lowerSimple x.name)) := by
  induction vars generalizing v with
  | nil => simp [firstPositions]
  | cons x vars ih =>
      rw [List.foldl_cons, ih, List.map_cons, firstPositions, putVariable, List.append_assoc,
        List.length_append]
      rfl

/-- An index that grows with the variables finds what one of all of them finds. -/
theorem getVariable_indexVariables (vars : List Variable) (name : String) :
    getVariable (indexVariables vars) name = some ((Variables.ofList vars).find? name) := by
  rw [← findVariable_eq, indexVariables, foldl_putVariable]
  rfl

/-- Definitions together with an index of their keys. -/
abbrev IndexedSteps := List StepDefinition × List (String × Nat)

/-- Adds a definition, over the one at the position of its key if there is one. -/
def putStep (s : IndexedSteps) (d : StepDefinition) : Option IndexedSteps :=
  match s.2.lookup d.key with
  | some i => do return (← set? s.1 i d, s.2)
  | none => some (s.1 ++ [d], (d.key, s.1.length) :: s.2)

def indexSteps (defs : List StepDefinition) : Option IndexedSteps :=
  defs.foldlM putStep ([], [])

def stepsOf (defs : List StepDefinition) : Option Steps := do
  return ⟨(← indexSteps defs).1⟩

def getStep (s : IndexedSteps) (key : String) : Option (Option StepDefinition) :=
  itemAt s.1 (s.2.lookup key)

/-- The index gives the first position of every key. -/
def Indexes (s : IndexedSteps) : Prop :=
  ∀ key, s.2.lookup key = (s.1.map (·.key)).findIdx? (· == key)

theorem put_of_new {d : StepDefinition} {steps : List StepDefinition}
    (h : ∀ s ∈ steps, s.key ≠ d.key) : Steps.put d steps = steps ++ [d] := by
  induction steps with
  | nil => rfl
  | cons s steps ih =>
      have hs : (s.key == d.key) = false := beq_false_of_ne (h s List.mem_cons_self)
      rw [Steps.put, hs, ih fun s' hs' => h s' (List.mem_cons_of_mem s hs')]
      rfl

theorem put_of_known {d s : StepDefinition} {before after : List StepDefinition}
    (h : ∀ s ∈ before, s.key ≠ d.key) (hs : s.key = d.key) :
    Steps.put d (before ++ s :: after) = before ++ d :: after := by
  induction before with
  | nil => simp [Steps.put, hs]
  | cons b before ih =>
      have hb : (b.key == d.key) = false := beq_false_of_ne (h b List.mem_cons_self)
      rw [List.cons_append, Steps.put, hb, ih fun s' hs' => h s' (List.mem_cons_of_mem b hs')]
      rfl

/-- One declaration keeps list and index together. -/
theorem putStep_eq {s : IndexedSteps} (h : Indexes s) (d : StepDefinition) :
    ∃ index, putStep s d = some (Steps.put d s.1, index) ∧ Indexes (Steps.put d s.1, index) := by
  unfold putStep
  cases hi : s.2.lookup d.key with
  | none =>
      have hnew : ∀ k ∈ s.1, k.key ≠ d.key := by
        rw [h, List.findIdx?_eq_none_iff] at hi
        intro k hk
        simpa using hi k.key (List.mem_map_of_mem hk)
      refine ⟨(d.key, s.1.length) :: s.2, by rw [put_of_new hnew], fun key => ?_⟩
      rw [put_of_new hnew]
      by_cases hk : key = d.key
      · subst hk
        rw [h] at hi
        simp [List.findIdx?_append, hi]
      · have hb : (key == d.key) = false := beq_false_of_ne hk
        have hb' : (d.key == key) = false := beq_false_of_ne (Ne.symm hk)
        simp [List.findIdx?_append, List.lookup_cons, hb, hb', h key]
  | some i =>
      rw [h, List.findIdx?_map] at hi
      obtain ⟨hlt, hkey, hbefore⟩ := List.findIdx?_eq_some_iff_getElem.mp hi
      obtain ⟨before, k, after, hs, hlength⟩ : ∃ before k after, s.1 = before ++ k :: after ∧
          before.length = i := by
        refine ⟨s.1.take i, s.1[i], s.1.drop (i + 1), ?_, ?_⟩
        · rw [List.getElem_cons_drop, List.take_append_drop]
        · rw [List.length_take]
          omega
      have hknown : k.key = d.key := by
        simp only [hs, ← hlength] at hkey
        simpa using hkey
      have hnew : ∀ b ∈ before, b.key ≠ d.key := by
        intro b hb
        obtain ⟨j, hj, rfl⟩ := List.getElem_of_mem hb
        have := hbefore j (by omega)
        simp only [hs] at this
        rw [List.getElem_append_left hj] at this
        simpa using this
      have hput : Steps.put d s.1 = before ++ d :: after := by
        rw [hs, put_of_known hnew hknown]
      refine ⟨s.2, ?_, fun key => ?_⟩
      · rw [hput, hs, ← hlength]
        simp only [set?_append, Option.bind_eq_bind, Option.bind_some]
        rfl
      · rw [hput, h key, hs]
        simp [hknown]

/-- After any declarations the index is that of the list. -/
theorem indexSteps_eq (defs : List StepDefinition) : ∃ index,
    indexSteps defs = some ((Steps.ofList defs).all, index) ∧
      Indexes ((Steps.ofList defs).all, index) := by
  have hloop : ∀ s : IndexedSteps, Indexes s → ∃ index,
      defs.foldlM putStep s = some (defs.foldl (fun all d => Steps.put d all) s.1, index) ∧
        Indexes (defs.foldl (fun all d => Steps.put d all) s.1, index) := by
    induction defs with
    | nil => exact fun s hs => ⟨s.2, rfl, hs⟩
    | cons d defs ih =>
        intro s hs
        obtain ⟨index, hput, hnext⟩ := putStep_eq hs d
        obtain ⟨last, hlast, hindexes⟩ := ih _ hnext
        refine ⟨last, ?_, hindexes⟩
        rw [List.foldlM_cons, hput]
        exact hlast
  exact hloop ([], []) fun _ => rfl

theorem stepsOf_eq (defs : List StepDefinition) : stepsOf defs = some (Steps.ofList defs) := by
  obtain ⟨index, hindex, -⟩ := indexSteps_eq defs
  rw [stepsOf, hindex]
  rfl

theorem getStep_eq {s : IndexedSteps} (h : Indexes s) (key : String) :
    getStep s key = some (s.1.find? (·.key == key)) := by
  rw [getStep, h, List.findIdx?_map]
  exact itemAt_findIdx? _ _

/-- The keyword that a declaration gives. Its first word is looked at when it is the only
one. -/
def keyword (p : Phrase) : Option (Option Keyword) :=
  let words := p.plainWords
  if words.isEmpty then some none
  else if words.length = 1 then do
    if (← at? words 0) == "*" then return none
    else return some ⟨words, Language.parse p.language, p.kind⟩
  else some (some ⟨words, Language.parse p.language, p.kind⟩)

def lexiconEntry (k : Keyword) : Option LexiconEntry := do
  return ⟨k, ← lowerWords k.tag k.words⟩

def lexicon (phrases : List Phrase) : Option Lexicon := do
  let keywords := (← phrases.mapM keyword).filterMap id
  let entries ← keywords.mapM lexiconEntry
  return {
    steps := entries.filter fun e => !e.keyword.kind.isHeader
    headers := entries.filter fun e => e.keyword.kind.isHeader
    tags := (keywords.map (·.tag)).eraseDups
    width := (keywords.map (·.size)).foldl max 0 }

theorem keyword_eq (p : Phrase) : keyword p = some p.keyword? := by
  unfold keyword Phrase.keyword?
  match p.plainWords with
  | [] => rfl
  | [word] =>
      by_cases hword : word = "*"
      · subst hword
        rfl
      · simp [hword]
  | _ :: _ :: _ => simp

theorem lexicon_eq (phrases : List Phrase) : lexicon phrases = some (.ofPhrases phrases) := by
  have hkeywords : phrases.mapM keyword = some (phrases.map Phrase.keyword?) :=
    mapM_eq_some_map fun p _ => keyword_eq p
  have hentries : ∀ ks : List Keyword,
      ks.mapM lexiconEntry = some (ks.map fun k => LexiconEntry.mk k k.lowered) := by
    intro ks
    refine mapM_eq_some_map fun k _ => ?_
    rw [lexiconEntry, lowerWords_eq]
    rfl
  unfold lexicon
  simp only [hkeywords, hentries, List.filterMap_map, Option.bind_eq_bind, Option.bind_some]
  rfl

def shapeIndex (steps : Steps) : Option ShapeIndex := do
  return ⟨firstPositions [] 0 (← (steps.all.map (·.key)).mapM shape)⟩

theorem shapeIndex_eq (steps : Steps) : shapeIndex steps = some (.ofSteps steps) := by
  have hkeys : ∀ (keys : List String) (entries : List (String × Nat)) (position : Nat),
      firstPositions entries position (keys.map Step.shape) =
        ShapeIndex.ofKeys entries position keys := by
    intro keys
    induction keys with
    | nil => exact fun _ _ => rfl
    | cons key keys ih =>
        intro entries position
        rw [List.map_cons, firstPositions, ih, ShapeIndex.ofKeys]
  unfold shapeIndex
  rw [mapM_eq_some_map fun key _ => shape_eq key, ShapeIndex.ofSteps, ← hkeys]
  rfl

def definitions : Option Yaml.Node → Except DecodeError (List StepDefinition)
  | none => .ok []
  | some (.mapping _ _ members) =>
    members.mapM fun m => do
      let d ← Payload.stepDefinition m.2
      return { d with key := m.1.value }
  | some (.sequence _ _ items) => items.mapM Payload.stepDefinition
  | some n => .error (.shape .steps n.line)

theorem steps_eq_definitions (root : Option Yaml.Node) :
    Payload.steps root = (definitions root).map Steps.ofList := by
  match root with
  | none => rfl
  | some (.mapping _ _ _) => rfl
  | some (.sequence _ _ _) => rfl
  | some (.scalar ..) => rfl
  | some (.reference ..) => rfl

def install {α : Type} (content : Except Refusal α) (empty : α)
    (put : α → Option Configuration) : Option Configuration.Applied :=
  match content with
  | .ok a => do return (← put a, none)
  | .error e => do return (← put empty, some e)

/-- Replaces the registry of a kind. Keywords and steps are the kinds whose registries are
built by position. -/
def apply (c : Configuration) (kind : ConfigKind) (data : Option String) :
    Option Configuration.Applied :=
  match kind with
  | .keywords =>
    install (ConfigKind.keywords.decodeWith Payload.keywords data) [] fun phrases => do
      return c.withLexicon (← lexicon phrases)
  | .steps =>
    install (ConfigKind.steps.decodeWith definitions data) [] fun defs => do
      let steps ← stepsOf defs
      return { c.advance with steps, shapes := ← shapeIndex steps }
  | kind => some (c.apply kind data)

theorem install_eq {α : Type} {put : α → Option Configuration} {total : α → Configuration}
    (h : ∀ a, put a = some (total a)) (content : Except Refusal α) (empty : α) :
    install content empty put = some (Configuration.install content empty total) := by
  cases content with
  | ok a =>
      rw [install, h]
      rfl
  | error e =>
      rw [install, h]
      rfl

theorem decodeWith_map {α β : Type} (kind : ConfigKind) (f : α → β)
    (decode : Option Yaml.Node → Except DecodeError α) (data : Option String) :
    kind.decodeWith (fun root => (decode root).map f) data =
      (kind.decodeWith decode data).map f := by
  unfold ConfigKind.decodeWith
  cases kind.rootOf data with
  | error e => rfl
  | ok root =>
      dsimp only
      cases decode root <;> rfl

theorem apply_eq (c : Configuration) (kind : ConfigKind) (data : Option String) :
    apply c kind data = some (c.apply kind data) := by
  cases kind with
  | keywords =>
      have hput : ∀ phrases, (do return c.withLexicon (← lexicon phrases) : Option Configuration) =
          some (c.withLexicon (.ofPhrases phrases)) := by
        intro phrases
        rw [lexicon_eq]
        rfl
      rw [apply, install_eq hput, Configuration.apply]
  | steps =>
      have hput : ∀ defs, (do
          let steps ← stepsOf defs
          return { c.advance with steps, shapes := ← shapeIndex steps } : Option Configuration) =
            some (c.withSteps (.ofList defs)) := by
        intro defs
        simp only [stepsOf_eq, shapeIndex_eq, Option.bind_eq_bind, Option.bind_some]
        rfl
      have hdecoder : Payload.steps = fun root => (definitions root).map Steps.ofList :=
        funext steps_eq_definitions
      rw [apply, install_eq hput, Configuration.apply, hdecoder, decodeWith_map]
      cases ConfigKind.steps.decodeWith definitions data <;> rfl
  | _ => rfl

end Stepwise.Bounded
