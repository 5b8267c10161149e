/-
The parameters of a query, and those that occur in it.

- `Query.parameter_mem`: the parameters that occur in a query are parameters of the query.
- `Query.paramNames_eq`: the explicit names of a query are those of its parameters, written out or not.
-/
import SqlTree.Proofs.Clause.Operands
import SqlTree.Proofs.Rendering.Occurrence
import SqlTree.Proofs.Rendering.Registering
import SqlTree.Proofs.Statement.Built

namespace SqlTree

/-! ## Parameters that occur -/

/-- the occurrences are literals, or of parameters among these -/
def Occurrence.Within (ps : List Parameter) (os : List Occurrence) : Prop :=
  ∀ o ∈ os, ∀ p, o.param? = some p → p ∈ ps

namespace Occurrence.Within

variable {ps ps' : List Parameter} {os os' : List Occurrence}

theorem nil : Within ps [] := fun _ h => by cases h

theorem append (h : Within ps os) (h' : Within ps' os') : Within (ps ++ ps') (os ++ os') := by
  intro o ho p hp
  rcases List.mem_append.1 ho with ho | ho
  · exact List.mem_append_left ps' (h o ho p hp)
  · exact List.mem_append_right ps (h' o ho p hp)

theorem flatMap {α : Type} {f : α → List Parameter} {g : α → List Occurrence} {as : List α}
    (h : ∀ a ∈ as, Within (f a) (g a)) : Within (as.flatMap f) (as.flatMap g) := by
  intro o ho p hp
  obtain ⟨a, ha, ho⟩ := List.mem_flatMap.1 ho
  exact List.mem_flatMap.2 ⟨a, ha, h a ha o ho p hp⟩

theorem subset (h : Within ps os) (sub : os' ⊆ os) : Within ps os' := fun o ho => h o (sub ho)

end Occurrence.Within

open Occurrence (Within)

/-- What occurs in a clause that is no parameter occurs right below it; the subject of an empty list does not. -/
theorem Clause.occurrences_subset (c : Clause) (hp : c.kind ≠ .param) (hc : c.kind ≠ .constant) :
    c.occurrences ⊆ c.operands.flatMap occurrences ++ c.query?.toList.flatMap Select.occurrences := by
  cases c with
  | param => exact absurd rfl hp
  | constant => exact absurd rfl hc
  | inList subject items negated =>
    rw [occurrences, occurrencesAll_eq]
    split
    · exact List.nil_subset _
    · simp [operands, query?]
  | aggregate fn arg distinct => cases arg <;> simp [occurrences, operands, query?]
  | _ => simp [occurrences, operands, query?, occurrencesAll_eq]

/-- The parameters that occur in clauses and selects are parameters of theirs, by induction on the tree. -/
theorem Clause.occurrences_within :
    (∀ c : Clause, Within c.parameters c.occurrences) ∧ ∀ s : Select, Within s.parameters s.occurrences := by
  refine Clause.operandInduction (fun c operands query => ?_) fun s clauses => ?_
  · have below := (Within.flatMap operands).append (Within.flatMap fun s hs => query s (Option.mem_toList.1 hs))
    cases c with
    | param p =>
      intro o ho p' hp'
      obtain rfl := List.mem_singleton.1 ho
      exact List.mem_singleton.2 (Option.some.inj hp').symm
    | constant v =>
      intro o ho p hp
      rw [occurrences] at ho
      split at ho
      · cases ho
      · rw [List.mem_singleton.1 ho] at hp
        cases hp
    | _ =>
      rw [parameters_eq _ (by simp [kind])]
      exact below.subset (occurrences_subset _ (by simp [kind]) (by simp [kind]))
  · rw [s.parameters_eq, s.occurrences_eq]
    exact Within.flatMap clauses

theorem Statement.occurrences_within (d : Dialect) (s : Statement) : Within s.parameters (s.occurrences d) := by
  have list : ∀ cs, Within (Clause.parametersAll cs) (Clause.occurrencesAll cs) := fun cs => by
    rw [Clause.parametersAll_eq, Clause.occurrencesAll_eq]
    exact Within.flatMap fun c _ => Clause.occurrences_within.1 c
  have option : ∀ o, Within (Clause.parametersOption o) (Clause.occurrencesOption o) := fun o => by
    rw [Clause.parametersOption_eq, Clause.occurrencesOption_eq]
    exact Within.flatMap fun c _ => Clause.occurrences_within.1 c
  have result : ∀ (e : Exec) placed, Within e.returns.toList (e.receiver placed) := by
    intro e placed o ho p hp
    obtain ⟨p', hp', rfl⟩ := List.mem_map.1 ho
    obtain rfl := Option.some.inj hp
    exact hp'
  cases s with
  | select s => exact Clause.occurrences_within.2 s
  | insert i =>
    rw [Statement.parameters, Statement.occurrences]
    rcases hs : i.source with _ | query
    · rw [Option.map_none, Option.getD_none, List.append_nil]
      exact (list _).append (list _)
    · have rows := Clause.occurrences_within.2 query
      have columns : Within (Clause.parametersAll i.columns ++ Clause.parametersAll i.values)
          (Clause.occurrencesAll i.columns) := by
        have nothing : Within (Clause.parametersAll i.values) [] := .nil
        simpa using (list i.columns).append nothing
      exact columns.append rows
  | update u => exact (list _).append (option _)
  | delete s => exact option _
  | exec e =>
    rw [Statement.parameters, Statement.occurrences]
    cases d.calls with
    | call => exact ((result e false).append (list _)).subset (List.append_subset.2 (by simp))
    | exec | block => exact (result e true).append (list _)
  | createTable t => exact .nil
  | dropTable t => exact .nil

/-- The parameters that occur in a query are parameters of the query. -/
theorem Query.parameter_mem {d : Dialect} {q : Query} {o : Occurrence} (ho : o ∈ q.occurrences d) {p : Parameter}
    (hp : o.param? = some p) : p ∈ q.parameters :=
  Within.flatMap (fun s _ => s.occurrences_within d) o ho p hp

/-! ## Explicit names -/

/-- The explicit names in clauses and selects are those of their parameters, by induction on the tree. -/
theorem Clause.paramNames_eq :
    (∀ c : Clause, c.paramNames = c.parameters.filterMap Parameter.name)
      ∧ ∀ s : Select, s.paramNames = s.parameters.filterMap Parameter.name := by
  refine Clause.operandInduction (fun c operands query => ?_) fun s clauses => ?_
  · cases c with
    | param p => cases hp : p.name <;> simp [paramNames, parameters, hp]
    | _ =>
      rw [paramNames_below _ (by simp [kind]), parameters_eq _ (by simp [kind]), List.filterMap_append,
        List.filterMap_flatMap, List.filterMap_flatMap, List.flatMap_congr operands,
        List.flatMap_congr fun s hs => query s (Option.mem_toList.1 hs)]
  · rw [s.paramNames_clauses, s.parameters_eq, List.filterMap_flatMap, List.flatMap_congr clauses]

/-- **Every parameter of a query has its explicit name kept away from generated ones.** -/
theorem Query.paramNames_eq (q : Query) : q.paramNames = q.parameters.filterMap Parameter.name := by
  have list : ∀ cs, Clause.paramNamesAll cs = (Clause.parametersAll cs).filterMap Parameter.name := fun cs => by
    rw [Clause.paramNamesAll_eq, Clause.parametersAll_eq, List.filterMap_flatMap,
      List.flatMap_congr fun c _ => Clause.paramNames_eq.1 c]
  have option : ∀ o, Clause.paramNamesOption o = (Clause.parametersOption o).filterMap Parameter.name := fun o => by
    cases o with
    | none => rfl
    | some c => exact Clause.paramNames_eq.1 c
  rw [Query.paramNames, Query.parameters, List.filterMap_flatMap]
  refine List.flatMap_congr fun s _ => ?_
  cases s with
  | select s => exact Clause.paramNames_eq.2 s
  | insert i =>
    simp only [Statement.paramNames, Statement.parameters, List.filterMap_append, list]
    cases i.source with
    | none => rfl
    | some s => exact congrArg _ (Clause.paramNames_eq.2 s)
  | update u => simp only [Statement.paramNames, Statement.parameters, List.filterMap_append, list, option]
  | delete s => exact option _
  | exec e =>
    simp only [Statement.paramNames, Statement.parameters, List.filterMap_append, list]
    rcases he : e.returns with _ | p
    · rfl
    · cases hp : p.name <;> simp [hp]
  | createTable t => rfl
  | dropTable t => rfl

end SqlTree
