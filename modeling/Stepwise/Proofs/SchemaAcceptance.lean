import Mathlib.Data.List.Basic
import Stepwise.Schema.Violation

/-!
# What a schema accepts

A check collects findings and a score, and the score only chooses among findings.
So acceptance is the absence of findings, and it is read off the parts of a schema:
the type, one of the alternatives, all of the parts, and the items or members of the
value. The path of a check is shown to the user and decides nothing.
-/
namespace Stepwise

namespace Json
variable {v : Json}

theorem eq_string_of_mem (h : JsonType.string ∈ v.types) : ∃ text, v = .string text := by
  cases v with
  | string text => exact ⟨text, rfl⟩
  | number text =>
      rw [types] at h
      split at h <;> simp at h
  | _ => simp [types] at h

theorem eq_array_of_mem (h : JsonType.array ∈ v.types) : ∃ items, v = .array items := by
  cases v with
  | array items => exact ⟨items, rfl⟩
  | number text =>
      rw [types] at h
      split at h <;> simp at h
  | _ => simp [types] at h

theorem eq_object_of_mem (h : JsonType.object ∈ v.types) : ∃ members, v = .object members := by
  cases v with
  | object members => exact ⟨members, rfl⟩
  | number text =>
      rw [types] at h
      split at h <;> simp at h
  | _ => simp [types] at h

end Json

namespace Report

@[simp] theorem pass_findings (r : Report) : r.pass.findings = r.findings := rfl

@[simp] theorem fail_findings (r : Report) (fault : Fault) (path : List String) :
    (r.fail fault path).findings = r.findings ++ [⟨fault, path⟩] := rfl

@[simp] theorem merge_findings (r s : Report) :
    (r.merge s).findings = r.findings ++ s.findings := rfl

theorem isValid_iff (r : Report) : r.isValid = true ↔ r.findings = [] := by
  simp [isValid]

theorem foldl_merge_findings (rs : List Report) (r : Report)
    (h : (rs.foldl merge r).findings = []) :
    r.findings = [] ∧ ∀ s ∈ rs, s.findings = [] := by
  induction rs generalizing r with
  | nil => exact ⟨h, nofun⟩
  | cons s rs ih =>
      obtain ⟨hr, hrs⟩ := ih _ h
      rw [merge_findings, List.append_eq_nil_iff] at hr
      refine ⟨hr.1, ?_⟩
      intro t ht
      rcases List.mem_cons.mp ht with rfl | ht
      · exact hr.2
      · exact hrs t ht

end Report

namespace Schema

/-- A check of the value finds nothing, wherever the value stands. -/
def Accepts (s : Schema) (v : Json) : Prop :=
  ∃ path, (s.check v path).findings = []

theorem checkAny_eq_none {alternatives : List Schema} {v : Json} {path : List String}
    {best : Option Report} (h : checkAny alternatives v path best = none) :
    alternatives = [] ∨ ∃ s ∈ alternatives, s.Accepts v := by
  induction alternatives generalizing best with
  | nil => exact .inl rfl
  | cons s rest ih =>
      right
      rw [checkAny] at h
      split at h
      · rename_i hs
        exact ⟨s, List.mem_cons_self, path, (Report.isValid_iff _).mp hs⟩
      · rename_i hs
        have hbetter : rest ≠ [] := by
          rintro rfl
          rw [checkAny] at h
          unfold Report.better at h
          split at h
          · split at h <;> cases h
          · cases h
        obtain ⟨t, ht, hv⟩ := (ih h).resolve_left hbetter
        exact ⟨t, List.mem_cons_of_mem s ht, hv⟩

theorem checkAll_findings {parts : List Schema} {v : Json} {path : List String} {r : Report}
    (h : (checkAll parts v path r).1.findings = []) :
    r.findings = [] ∧ ∀ s ∈ parts, s.Accepts v := by
  induction parts generalizing r with
  | nil => exact ⟨by simpa [checkAll] using h, nofun⟩
  | cons s rest ih =>
      rw [checkAll] at h
      obtain ⟨hr, hrest⟩ := ih h
      rw [Report.merge_findings, List.append_eq_nil_iff] at hr
      refine ⟨hr.1, ?_⟩
      intro t ht
      rcases List.mem_cons.mp ht with rfl | ht
      · exact ⟨path, hr.2⟩
      · exact hrest t ht

theorem checkRequired_findings {required : List String} {members : List (String × Json)}
    {path : List String} {r : Report}
    (h : (checkRequired required members path r).findings = []) :
    r.findings = [] ∧ ∀ name ∈ required, ∃ m ∈ members, m.1 = name := by
  unfold checkRequired at h
  induction required generalizing r with
  | nil => exact ⟨h, nofun⟩
  | cons name rest ih =>
      obtain ⟨hr, hrest⟩ := ih h
      dsimp only at hr
      split at hr
      · rename_i hname
        refine ⟨hr, ?_⟩
        intro other hother
        rcases List.mem_cons.mp hother with rfl | hother
        · simpa using hname
        · exact hrest other hother
      · simp at hr

theorem foldl_fail_findings {others : List (String × Json)} {path : List String} {r : Report}
    (h : (others.foldl (fun r m => r.fail (.unknownProperty m.1) path) r).findings = []) :
    r.findings = [] ∧ others = [] := by
  induction others generalizing r with
  | nil => exact ⟨h, rfl⟩
  | cons m rest ih =>
      obtain ⟨hr, -⟩ := ih h
      simp at hr

theorem checkProperties_findings {properties : List (String × Schema)}
    {members : List (String × Json)} {path : List String} {r : Report}
    (h : (checkProperties properties members path r).findings = []) :
    r.findings = [] ∧ ∀ p ∈ properties, ∀ v, members.lookup p.1 = some v → p.2.Accepts v := by
  induction properties generalizing r with
  | nil => exact ⟨by simpa [checkProperties] using h, nofun⟩
  | cons p rest ih =>
      obtain ⟨name, s⟩ := p
      rw [checkProperties] at h
      obtain ⟨hr, hrest⟩ := ih h
      cases hv : members.lookup name with
      | none =>
          rw [hv] at hr
          refine ⟨hr, ?_⟩
          intro q hq v hlookup
          rcases List.mem_cons.mp hq with rfl | hq
          · rw [hv] at hlookup
            cases hlookup
          · exact hrest q hq v hlookup
      | some w =>
          rw [hv] at hr
          simp only [Report.merge_findings, List.append_eq_nil_iff] at hr
          refine ⟨hr.1, ?_⟩
          intro q hq v hlookup
          rcases List.mem_cons.mp hq with rfl | hq
          · rw [hv, Option.some.injEq] at hlookup
            exact ⟨_, hlookup ▸ hr.2⟩
          · exact hrest q hq v hlookup

/-! ## The parts of a check -/

def afterAlternatives (anyOf : List Schema) (v : Json) (path : List String) (r : Report) : Report :=
  match anyOf with
  | [] => r
  | _ :: _ =>
    match checkAny anyOf v path none with
    | none => r
    | some best => (r.fail .noAlternative path).merge best

def afterParts (allOf : List Schema) (v : Json) (path : List String) (r : Report) : Report :=
  match allOf with
  | [] => r
  | _ :: _ =>
    let (r, failed) := checkAll allOf v path r
    if failed then r.fail .notAllParts path else r

def afterItems (items : Option Schema) (minItems : Nat) (values : List Json) (path : List String)
    (r : Report) : Report :=
  let r := (checkItems items values path).foldl Report.merge r
  let r := if values.length < minItems then r.fail (.tooFewItems minItems) path else r
  r.pass.pass.pass

/-- A report after the members that no property lists. -/
def afterOthers (additional : Option Schema) (closed : Bool) (others : List (String × Json))
    (path : List String) (r : Report) : Report :=
  if closed then others.foldl (fun r m => r.fail (.unknownProperty m.1) path) r
  else (checkOthers additional others path).foldl Report.merge r

def afterMembers (properties : List (String × Schema)) (required : List String)
    (additional : Option Schema) (closed : Bool) (members : List (String × Json))
    (path : List String) (r : Report) : Report :=
  let others := members.filter fun m => !properties.any (·.1 == m.1)
  let r := afterOthers additional closed others path (checkRequired required members path r)
  (checkProperties properties members path r.pass.pass).pass

theorem afterAlternatives_findings {anyOf : List Schema} {v : Json} {path : List String}
    {r : Report} (h : (afterAlternatives anyOf v path r).findings = []) :
    r.findings = [] ∧ (anyOf = [] ∨ ∃ s ∈ anyOf, s.Accepts v) := by
  unfold afterAlternatives at h
  split at h
  · exact ⟨h, .inl rfl⟩
  · split at h
    · rename_i hnone
      exact ⟨h, checkAny_eq_none hnone⟩
    · simp at h

theorem afterParts_findings {allOf : List Schema} {v : Json} {path : List String} {r : Report}
    (h : (afterParts allOf v path r).findings = []) :
    r.findings = [] ∧ ∀ s ∈ allOf, s.Accepts v := by
  unfold afterParts at h
  split at h
  · exact ⟨h, nofun⟩
  · dsimp only at h
    split at h
    · simp at h
    · exact checkAll_findings h

theorem afterItems_findings {items : Option Schema} {minItems : Nat} {values : List Json}
    {path : List String} {r : Report} (h : (afterItems items minItems values path r).findings = []) :
    r.findings = [] ∧ ∀ s, items = some s → ∀ v ∈ values, s.Accepts v := by
  unfold afterItems at h
  dsimp only [Report.pass_findings] at h
  split at h
  · simp at h
  · obtain ⟨hr, hitems⟩ := Report.foldl_merge_findings _ _ h
    refine ⟨hr, ?_⟩
    rintro s rfl v hv
    obtain ⟨i, hi, rfl⟩ := List.getElem_of_mem hv
    refine ⟨path ++ [toString i], hitems _ ?_⟩
    rw [checkItems]
    exact List.mem_map.mpr ⟨(values[i], i), List.mk_mem_zipIdx_iff_getElem?.mpr
      (List.getElem?_eq_getElem hi), rfl⟩

theorem afterOthers_findings {additional : Option Schema} {closed : Bool}
    {others : List (String × Json)} {path : List String} {r : Report}
    (h : (afterOthers additional closed others path r).findings = []) :
    r.findings = [] ∧ (closed = true → others = []) ∧
      ∀ s, closed = false → additional = some s → ∀ m ∈ others, s.Accepts m.2 := by
  unfold afterOthers at h
  split at h
  · rename_i hclosed
    obtain ⟨hr, hnone⟩ := foldl_fail_findings h
    exact ⟨hr, fun _ => hnone, fun s ho => absurd hclosed (by simp [ho])⟩
  · rename_i hclosed
    obtain ⟨hr, hothers⟩ := Report.foldl_merge_findings _ _ h
    refine ⟨hr, fun hc => absurd hc hclosed, ?_⟩
    rintro s - rfl m hm
    refine ⟨path ++ [m.1], hothers _ ?_⟩
    rw [checkOthers]
    exact List.mem_map.mpr ⟨m, hm, rfl⟩

section
variable {types : List JsonType} {anyOf allOf : List Schema} {items : Option Schema}
  {minItems : Nat} {properties : List (String × Schema)} {required : List String}
  {additional : Option Schema} {closed : Bool} {minLength : Nat} {minimum : Option Nat} {v : Json}

theorem afterMembers_findings {members : List (String × Json)} {path : List String} {r : Report}
    (h : (afterMembers properties required additional closed members path r).findings = []) :
    r.findings = [] ∧ (∀ name ∈ required, ∃ m ∈ members, m.1 = name) ∧
      (∀ m ∈ members, (∃ p ∈ properties, p.1 = m.1) ∨
        closed = false ∧ ∀ s, additional = some s → s.Accepts m.2) ∧
      ∀ p ∈ properties, ∀ value, members.lookup p.1 = some value → p.2.Accepts value := by
  unfold afterMembers at h
  dsimp only [Report.pass_findings] at h
  obtain ⟨h, hproperties⟩ := checkProperties_findings h
  simp only [Report.pass_findings] at h
  obtain ⟨h, hclosed, hothers⟩ := afterOthers_findings h
  obtain ⟨h, hrequired⟩ := checkRequired_findings h
  refine ⟨h, hrequired, ?_, hproperties⟩
  intro m hm
  by_cases hlisted : ∃ p ∈ properties, p.1 = m.1
  · exact .inl hlisted
  · have hother : m ∈ members.filter fun m => !properties.any (·.1 == m.1) := by
      refine List.mem_filter.mpr ⟨hm, ?_⟩
      rw [Bool.not_eq_true', List.any_eq_false]
      intro p hp he
      exact hlisted ⟨p, hp, by simpa using he⟩
    refine .inr ⟨?_, ?_⟩
    · by_contra hc
      rw [hclosed (by simpa using hc)] at hother
      cases hother
    · intro s hs
      refine hothers s ?_ hs m hother
      by_contra hc
      rw [hclosed (by simpa using hc)] at hother
      cases hother

theorem check_rules (path : List String) :
    check (.rules types anyOf allOf items minItems properties required additional closed minLength
      minimum) v path =
    if !typeFits types v then Report.start.fail (.wrongType types) path
    else
      let r := (afterParts allOf v path (afterAlternatives anyOf v path .start)).pass
      match v with
      | .array values => afterItems items minItems values path r
      | .object members =>
        afterMembers properties required additional closed (Json.lastMembers members) path r
      | .number text => (checkNumber minimum text path r).pass.pass
      | .string s => (checkText minLength s path r.pass).pass
      | .bool _ => r.pass.pass
      | .null => r.pass.pass := by
  rw [check]
  rfl

theorem checkNumber_findings {text : String} {path : List String} {r : Report}
    (h : (checkNumber minimum text path r).findings = []) : r.findings = [] := by
  unfold checkNumber at h
  split at h
  · split at h
    · simp at h
    · exact h
  · exact h

theorem checkText_findings {text : String} {path : List String} {r : Report}
    (h : (checkText minLength text path r).findings = []) : r.findings = [] := by
  unfold checkText at h
  split at h
  · simp at h
  · exact h

/-- What a schema asks of the parts of a value. -/
def ContentAccepted (items : Option Schema) (properties : List (String × Schema))
    (required : List String) (additional : Option Schema) (closed : Bool) : Json → Prop
  | .array values => ∀ s, items = some s → ∀ value ∈ values, s.Accepts value
  | .object members =>
    let members := Json.lastMembers members
    (∀ name ∈ required, ∃ m ∈ members, m.1 = name) ∧
      (∀ m ∈ members, (∃ p ∈ properties, p.1 = m.1) ∨
        closed = false ∧ ∀ s, additional = some s → s.Accepts m.2) ∧
      ∀ p ∈ properties, ∀ value, members.lookup p.1 = some value → p.2.Accepts value
  | _ => True

theorem Accepts.rules
    (h : (Schema.rules types anyOf allOf items minItems properties required additional closed
      minLength minimum).Accepts v) :
    typeFits types v = true ∧ (anyOf = [] ∨ ∃ s ∈ anyOf, s.Accepts v) ∧
      (∀ s ∈ allOf, s.Accepts v) ∧
      ContentAccepted items properties required additional closed v := by
  obtain ⟨path, h⟩ := h
  rw [check_rules] at h
  split at h
  · simp at h
  rename_i htypes
  have hcontent : (afterParts allOf v path (afterAlternatives anyOf v path .start)).pass.findings = [] ∧
      ContentAccepted items properties required additional closed v := by
    cases v with
    | array values => exact afterItems_findings h
    | object members => exact afterMembers_findings h
    | number text => exact ⟨checkNumber_findings h, trivial⟩
    | string s => exact ⟨(checkText_findings h : (Report.pass _).findings = []), trivial⟩
    | bool b => exact ⟨h, trivial⟩
    | null => exact ⟨h, trivial⟩
  obtain ⟨hparts, hall⟩ := afterParts_findings hcontent.1
  exact ⟨by simpa using htypes, (afterAlternatives_findings hparts).2, hall, hcontent.2⟩

end

/-! ## The forms of schemas -/

section
variable {v : Json} {s : Schema}

theorem Accepts.hasType {types : List JsonType} (hne : types ≠ [])
    (h : (ofTypes types).Accepts v) : ∃ t ∈ v.types, t ∈ types := by
  have hfits := h.rules.1
  simpa [typeFits, hne] using hfits

theorem Accepts.isString (h : (ofTypes [.string]).Accepts v) : ∃ text, v = .string text := by
  obtain ⟨t, ht, he⟩ := h.hasType (by simp)
  rw [List.mem_singleton.mp he] at ht
  exact Json.eq_string_of_mem ht

theorem Accepts.isText {least : Nat} (h : (text least).Accepts v) : ∃ text, v = .string text := by
  have hfits := h.rules.1
  exact Json.eq_string_of_mem (by simpa [typeFits] using hfits)

theorem Accepts.isArray {least : Nat} (h : (arrayOf s least).Accepts v) :
    ∃ values, v = .array values ∧ ∀ value ∈ values, s.Accepts value := by
  obtain ⟨hfits, -, -, hcontent⟩ := h.rules
  obtain ⟨values, rfl⟩ := Json.eq_array_of_mem (by simpa [typeFits] using hfits)
  exact ⟨values, rfl, hcontent s rfl⟩

theorem Accepts.isMap (h : (mapOf s).Accepts v) :
    ∃ members, v = .object members ∧ ∀ m ∈ Json.lastMembers members, s.Accepts m.2 := by
  obtain ⟨hfits, -, -, hcontent⟩ := h.rules
  obtain ⟨members, rfl⟩ := Json.eq_object_of_mem (by simpa [typeFits] using hfits)
  refine ⟨members, rfl, ?_⟩
  intro m hm
  rcases hcontent.2.1 m hm with ⟨p, hp, -⟩ | ⟨-, hs⟩
  · cases hp
  · exact hs s rfl

theorem Accepts.isRecord {properties : List (String × Schema)} {required : List String}
    {alternatives : List Schema} (h : (record properties required alternatives).Accepts v) :
    ∃ members, v = .object members ∧
      (∀ m ∈ Json.lastMembers members, ∃ p ∈ properties, p.1 = m.1) ∧
      ∀ p ∈ properties, ∀ value, (Json.lastMembers members).lookup p.1 = some value →
        p.2.Accepts value := by
  obtain ⟨hfits, -, -, hcontent⟩ := h.rules
  obtain ⟨members, rfl⟩ := Json.eq_object_of_mem (by simpa [typeFits] using hfits)
  refine ⟨members, rfl, ?_, hcontent.2.2⟩
  intro m hm
  exact (hcontent.2.1 m hm).resolve_right fun hopen => nomatch hopen.1

theorem Accepts.either {s t : Schema} (h : (oneOf [s, t]).Accepts v) :
    s.Accepts v ∨ t.Accepts v := by
  simpa using h.rules.2.1

theorem Accepts.everyPart {parts : List Schema} (h : (Schema.allOf parts).Accepts v) :
    ∀ s ∈ parts, s.Accepts v :=
  h.rules.2.2.1

end
end Schema

/-- Data without a violation is accepted by the schema of its kind. -/
theorem ConfigKind.accepts_of_violation?_eq_none {kind : ConfigKind} {v : Json}
    (h : kind.violation? v = none) : kind.schema.Accepts v := by
  refine ⟨[], ?_⟩
  unfold violation? at h
  cases hf : (kind.schema.check v []).findings with
  | nil => rfl
  | cons f rest =>
      rw [hf] at h
      cases h

end Stepwise
