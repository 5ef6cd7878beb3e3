import Stepwise.Proofs.BoundedRegistries
import Stepwise.Proofs.KeyedItems
import Stepwise.Registry.Imports
import Stepwise.Registry.Steps
import Stepwise.Registry.Variables

/-!
# What registries keep of their declarations

Registries are made of lists of declarations, in which a key may come again. Steps replace the
definition where it stands. Imports keep the name where it stands and replace its target.
Variables keep all that is declared. So keys stand in the order of their first declarations; a
step and a target are those that were declared last, the name of an import and the variable that
answers to a name are those that were declared first.

Steps and imports grow by one declaration at a time, each as a list of items with keys. Beside
their lists registries have tables, by which they answer: steps and variables an index of
positions, and imports a table of targets next to the list of names. One declaration keeps list
and table together, so the tables answer as the lists do.
-/
namespace Stepwise

/-! ## Steps -/

namespace Steps

structure Keeps (defs : List StepDefinition) (s : Steps) : Prop where
  distinct : (s.all.map (·.key)).Nodup
  ordered : s.all.map (·.key) = (defs.map (·.key)).eraseDups
  last : ∀ d ∈ s.all, Keyed.IsLast (·.key) defs d.key d
  get?_iff : ∀ key d, s.get? key = some d ↔ d ∈ s.all ∧ d.key = key

theorem put_eq_keyed (d : StepDefinition) (all : List StepDefinition) :
    put d all = Keyed.put (·.key) (fun _ d => d) d all := by
  induction all with
  | nil => rfl
  | cons s all ih => rw [put, Keyed.put, ih]

theorem all_ofList (defs : List StepDefinition) :
    (ofList defs).all = Keyed.kept (·.key) (fun _ d => d) defs := by
  simp only [ofList, Keyed.kept, put_eq_keyed]

theorem keys_ofList (defs : List StepDefinition) :
    (ofList defs).all.map (·.key) = (defs.map (·.key)).eraseDups := by
  rw [all_ofList, Keyed.keys_kept _ _ fun _ _ _ => rfl]

theorem get?_ofList (defs : List StepDefinition) (key : String) :
    (ofList defs).get? key = defs.reverse.find? (·.key == key) := by
  have hlast := Keyed.find?_kept_last (·.key) (fun _ d => d) (fun _ _ _ => rfl) defs key
    (f := id) fun _ _ => rfl
  rw [← all_ofList, Option.map_id_fun] at hlast
  exact hlast

theorem keeps_ofList (defs : List StepDefinition) : (ofList defs).Keeps defs := by
  have hdistinct : ((ofList defs).all.map (·.key)).Nodup := by
    rw [keys_ofList]
    exact Keyed.nodup_eraseDups
  have hget : ∀ key d, (ofList defs).get? key = some d ↔ d ∈ (ofList defs).all ∧ d.key = key :=
    fun key d => Keyed.find?_eq_some_iff_of_nodup hdistinct
  refine ⟨hdistinct, keys_ofList defs, fun d hd => ?_, hget⟩
  rw [← Keyed.find?_reverse_eq_some_iff_isLast, ← get?_ofList, hget]
  exact ⟨hd, rfl⟩

end Steps

/-! ## Imports -/

namespace Imports

structure Keeps (entries : List ImportEntry) (im : Imports) : Prop where
  distinct : (im.names.map key).Nodup
  ordered : im.names.map key = (entries.map fun e => key e.name).eraseDups
  first : ∀ name ∈ im.names,
    ∃ e, Keyed.IsFirst (fun e => key e.name) entries (key name) e ∧ e.name = name
  find?_iff : ∀ name target, im.find? name = some target ↔
    ∃ e, Keyed.IsLast (fun e => key e.name) entries (key name) e ∧
      ⟨Location.resolve e.location, e.lineNumber⟩ = target
  resolves : ∀ name ∈ im.names, (im.find? name).isSome = true

def item (e : ImportEntry) : String × Target :=
  (e.name, ⟨Location.resolve e.location, e.lineNumber⟩)

/-- A name that is there keeps its spelling and gets the new target. -/
def renew (old new : String × Target) : String × Target :=
  (old.1, new.2)

theorem key_renew (old new : String × Target) (h : key old.1 = key new.1) :
    key (renew old new).1 = key new.1 := h

theorem put_eq_keyed (name : String) (target : Target) (all : List (String × Target)) :
    put name target all = Keyed.put (key ·.1) renew (name, target) all := by
  induction all with
  | nil => rfl
  | cons e all ih =>
      rw [put, Keyed.put, ih]
      rfl

theorem all_ofList (entries : List ImportEntry) :
    (ofList entries).all = Keyed.kept (key ·.1) renew (entries.map item) := by
  simp only [ofList, Keyed.kept, put_eq_keyed, List.foldl_map, item]

theorem keys_ofList (entries : List ImportEntry) :
    (ofList entries).all.map (key ·.1) = (entries.map fun e => key e.name).eraseDups := by
  rw [all_ofList, Keyed.keys_kept _ renew key_renew, List.map_map]
  rfl

theorem find?_ofList (entries : List ImportEntry) (name : String) :
    (ofList entries).find? name =
      (entries.reverse.find? fun e => key e.name == key name).map fun e => (item e).2 := by
  have hlast := Keyed.find?_kept_last _ renew key_renew (entries.map item) (key name)
    (f := Prod.snd) fun _ _ => rfl
  rw [← all_ofList, ← List.map_reverse, List.find?_map, Option.map_map] at hlast
  exact hlast

/-- A name that stands in the table is spelled as it was declared first. -/
theorem exists_isFirst {entries : List ImportEntry} {name : String}
    (h : name ∈ (ofList entries).names) :
    ∃ e, Keyed.IsFirst (fun e => key e.name) entries (key name) e ∧ e.name = name := by
  obtain ⟨p, hp, rfl⟩ := List.mem_map.mp h
  have hdistinct : ((ofList entries).all.map (key ·.1)).Nodup := by
    rw [keys_ofList]
    exact Keyed.nodup_eraseDups
  have hfirst := Keyed.find?_kept_first _ renew key_renew (entries.map item) (key p.1)
    (f := Prod.fst) fun _ _ => rfl
  rw [← all_ofList, (Keyed.find?_eq_some_iff_of_nodup hdistinct).mpr ⟨hp, rfl⟩, List.find?_map,
    Option.map_map] at hfirst
  obtain ⟨e, he, hname⟩ := Option.map_eq_some_iff.mp hfirst.symm
  exact ⟨e, Keyed.find?_eq_some_iff_isFirst.mp he, hname⟩

theorem keeps_ofList (entries : List ImportEntry) : (ofList entries).Keeps entries := by
  have hkeys : (ofList entries).names.map key = (entries.map fun e => key e.name).eraseDups := by
    rw [← keys_ofList, names, List.map_map]
    rfl
  refine ⟨?_, hkeys, fun name => exists_isFirst, fun name target => ?_, fun name hname => ?_⟩
  · rw [hkeys]
    exact Keyed.nodup_eraseDups
  · rw [find?_ofList, Option.map_eq_some_iff]
    exact exists_congr fun e => and_congr_left fun _ => Keyed.find?_reverse_eq_some_iff_isLast
  · obtain ⟨p, hp, rfl⟩ := List.mem_map.mp hname
    rw [find?, Option.isSome_map, List.find?_isSome]
    exact ⟨p, hp, beq_self_eq_true _⟩

/-- The names of imports, and beside them their targets by key. Of two targets for a key the one
in front counts. -/
structure Table where
  names : List String
  targets : List (String × Target)

def Table.put (t : Table) (e : ImportEntry) : Table where
  names := if (t.targets.lookup (key e.name)).isSome then t.names else t.names ++ [e.name]
  targets := (key e.name, ⟨Location.resolve e.location, e.lineNumber⟩) :: t.targets

def Table.ofList (entries : List ImportEntry) : Table :=
  entries.foldl Table.put ⟨[], []⟩

def Table.find? (t : Table) (name : String) : Option Target :=
  t.targets.lookup (key name)

/-- A table has the names and the targets of a list. -/
structure Table.Tabulates (t : Table) (all : List (String × Target)) : Prop where
  names : t.names = all.map (·.1)
  targets : ∀ k, t.targets.lookup k = (all.find? (key ·.1 == k)).map (·.2)

theorem names_put (name : String) (target : Target) (all : List (String × Target)) :
    (put name target all).map (·.1) =
      if (all.find? (key ·.1 == key name)).isSome then all.map (·.1)
      else all.map (·.1) ++ [name] := by
  induction all with
  | nil => rfl
  | cons e all ih =>
      rw [put, List.find?_cons]
      by_cases he : key e.1 = key name
      · simp [he]
      · simp only [beq_false_of_ne he, Bool.false_eq_true, if_false, List.map_cons, ih]
        split <;> rfl

/-- One declaration keeps names and targets together. -/
theorem Table.Tabulates.put {t : Table} {all : List (String × Target)} (h : t.Tabulates all)
    (e : ImportEntry) :
    (t.put e).Tabulates
      (Imports.put e.name ⟨Location.resolve e.location, e.lineNumber⟩ all) := by
  refine ⟨?_, fun k => ?_⟩
  · rw [names_put, Table.put, h.names, h.targets, Option.isSome_map]
  · rw [put_eq_keyed, Keyed.find?_put _ renew key_renew, Table.put, List.lookup_cons]
    by_cases hk : key e.name = k
    · rw [if_pos hk, hk, BEq.rfl]
      cases all.find? (key ·.1 == k) <;> rfl
    · rw [if_neg hk, beq_false_of_ne (Ne.symm hk), h.targets]

theorem Table.tabulates_ofList (entries : List ImportEntry) :
    (Table.ofList entries).Tabulates (Imports.ofList entries).all := by
  have hloop : ∀ (t : Table) (all : List (String × Target)), t.Tabulates all →
      (entries.foldl Table.put t).Tabulates (entries.foldl (fun all e =>
        Imports.put e.name ⟨Location.resolve e.location, e.lineNumber⟩ all) all) := by
    induction entries with
    | nil => exact fun _ _ h => h
    | cons e entries ih => exact fun t all h => ih _ _ (h.put e)
  exact hloop ⟨[], []⟩ [] ⟨rfl, fun _ => rfl⟩

example :
    let im := ofList [⟨"Users", "/a", 0⟩, ⟨"roles", "/r", 0⟩, ⟨"users", "/b", 7⟩]
    im.names = ["Users", "roles"] ∧ im.find? "USERS" = some ⟨"file:///b", 7⟩ := by
  decide +kernel

end Imports

/-! ## Variables -/

namespace Variables

structure Keeps (vars : List Variable) (v : Variables) : Prop where
  all_eq : v.all = vars
  find?_iff : ∀ name x, v.find? name = some x ↔
    Keyed.IsFirst (fun x => Text.lowerSimple x.name) vars (Text.lowerSimple (bareName name)) x

theorem keeps_ofList (vars : List Variable) : (ofList vars).Keeps vars := by
  constructor
  · rfl
  · intro name x
    exact Keyed.find?_eq_some_iff_isFirst

theorem exists_leading_dollars (text : List Char) :
    ∃ i, text = List.replicate i '$' ++ text.dropWhile (· == '$') ∧
      (text.dropWhile (· == '$')).head? ≠ some '$' := by
  induction text with
  | nil => exact ⟨0, rfl, nofun⟩
  | cons c text ih =>
      rw [List.dropWhile_cons]
      split
      · rename_i hc
        obtain ⟨i, hi, hhead⟩ := ih
        refine ⟨i + 1, ?_, hhead⟩
        rw [List.replicate_succ, List.cons_append, ← hi, eq_of_beq hc]
      · rename_i hc
        exact ⟨0, rfl, by simpa using hc⟩

/-- The bare name is what stands between the dollars at both ends. -/
theorem exists_dollars (name : String) :
    ∃ i j, name.toList =
        List.replicate i '$' ++ ((bareName name).toList ++ List.replicate j '$') ∧
      (bareName name).toList.head? ≠ some '$' ∧ (bareName name).toList.getLast? ≠ some '$' := by
  obtain ⟨i, hfront, hhead⟩ := exists_leading_dollars name.toList
  obtain ⟨j, hback, hlast⟩ :=
    exists_leading_dollars (name.toList.dropWhile (· == '$')).reverse
  have hbare : name.toList.dropWhile (· == '$') =
      (bareName name).toList ++ List.replicate j '$' := by
    rw [← List.reverse_inj, hback]
    simp [bareName]
  refine ⟨i, j, by rw [← hbare, ← hfront], ?_, ?_⟩
  · rw [hbare] at hhead
    cases hname : (bareName name).toList with
    | nil => exact nofun
    | cons c rest =>
        rw [hname, List.cons_append] at hhead
        exact hhead
  · simpa [bareName, List.getLast?_reverse] using hlast

end Variables

/-- Steps keep each key once, in the order of the first declarations and with the definition that
was declared last, and a key is answered with the one definition that has it. Imports keep one
name for each key, in the order and spelling of the first declarations, and answer to a name with
the last target that was declared for it, so that each name they keep is answered. Variables keep
all that is declared and answer to a name, without the dollars at its ends, with the first. The
tables that grow with the declarations hold the same items and give the same answers, and no
position in them is out of bounds. -/
theorem registries_of_declarations (defs : List StepDefinition) (entries : List ImportEntry)
    (vars : List Variable) :
    ((Steps.ofList defs).Keeps defs ∧ (Imports.ofList entries).Keeps entries ∧
      (Variables.ofList vars).Keeps vars ∧
      ∀ name, ∃ i j, name.toList =
          List.replicate i '$' ++ ((Variables.bareName name).toList ++ List.replicate j '$') ∧
        (Variables.bareName name).toList.head? ≠ some '$' ∧
        (Variables.bareName name).toList.getLast? ≠ some '$') ∧
    (∃ s, Bounded.indexSteps defs = some s ∧ s.1 = (Steps.ofList defs).all ∧
      ∀ key, Bounded.getStep s key = some ((Steps.ofList defs).get? key)) ∧
    ((Imports.Table.ofList entries).names = (Imports.ofList entries).names ∧
      ∀ name, (Imports.Table.ofList entries).find? name = (Imports.ofList entries).find? name) ∧
    (Bounded.indexVariables vars).1 = (Variables.ofList vars).all ∧
      ∀ name, Bounded.getVariable (Bounded.indexVariables vars) name =
        some ((Variables.ofList vars).find? name) := by
  obtain ⟨index, hsteps, hindexes⟩ := Bounded.indexSteps_eq defs
  have himports := Imports.Table.tabulates_ofList entries
  refine ⟨⟨Steps.keeps_ofList defs, Imports.keeps_ofList entries, Variables.keeps_ofList vars,
    Variables.exists_dollars⟩, ⟨_, hsteps, rfl, Bounded.getStep_eq hindexes⟩,
    ⟨himports.names, fun name => himports.targets _⟩, ?_,
    Bounded.getVariable_indexVariables vars⟩
  rw [Bounded.indexVariables, Bounded.foldl_putVariable]
  rfl

end Stepwise
