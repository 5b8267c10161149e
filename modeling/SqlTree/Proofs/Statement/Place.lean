/-
The places of a statement that a clause can stand at.

A place asks for a sort of clause: a scalar where a value is expected, a table where rows come from, a sort item in an
ORDER BY list, an assignment in a SET list, a column where a value is assigned.

- `Query.Holds`: a clause stands at a place of a query, at the top of a section or at any depth below it.
- `Place.Admits`: the clause is of the sort that the place asks for.
- `Query.assignment_held`: an assignment that a query asks its dialect for is one that it holds.
-/
import Mathlib.Logic.Relation
import SqlTree.Proofs.Clause.Operands
import SqlTree.Proofs.Rendering.Demand

namespace SqlTree

/-! ## Places -/

/-- what the place of a clause is for -/
inductive Place where
  /-- a value: an operand, an argument, a predicate, a value that is written to a column -/
  | value
  /-- an item of a SELECT or GROUP BY list, which may have an alias -/
  | item
  /-- an item of a FROM list, the target of a join, or what an alias there names -/
  | source
  /-- an item of an ORDER BY list -/
  | sortItem
  /-- an item of a SET list -/
  | setItem
  /-- a column that a value is written to -/
  | column
  deriving DecidableEq

/-- the place of the items of a section -/
def SectionKind.place : SectionKind → Place
  | .fields | .groupBy => .item
  | .sources => .source
  | .filter | .having | .values => .value
  | .orderBy => .sortItem
  | .assignments => .setItem
  | .columns => .column

/-- the clauses at the top of the sections of a select, each with its place -/
def Select.places : Select → List (Place × Clause)
  | .mk _ _ fields sources filter groupBy having orderBy =>
    fields.map (.item, ·) ++ sources.map (.source, ·) ++ filter.toList.map (.value, ·) ++ groupBy.map (.item, ·)
      ++ having.toList.map (.value, ·) ++ orderBy.map (.sortItem, ·)

/-- the clauses right below a clause that stands at a place, each with its own place -/
def Clause.placesBelow (p : Place) : Clause → List (Place × Clause)
  | .aliased subject _ => [(p, subject)]
  | .join _ target condition => [(.source, target), (.value, condition)]
  | .assign target value => [(.column, target), (.value, value)]
  | .anyRow query | .subQuery query => query.places
  | c => c.operands.map (.value, ·)

/-- the clauses at the top of the sections of a statement, each with its place -/
def Statement.places : Statement → List (Place × Clause)
  | .select s => s.places
  | .insert i => i.columns.map (.column, ·) ++ i.values.map (.value, ·) ++ i.source.toList.flatMap Select.places
  | .update u => u.assignments.map (.setItem, ·) ++ u.filter.toList.map (.value, ·)
  | .delete s => s.filter.toList.map (.value, ·)
  | .exec e => e.args.map (.value, ·)
  | .createTable _ | .dropTable _ => []

def Query.places (q : Query) : List (Place × Clause) := q.statements.flatMap Statement.places

/-- a clause at its place, and one that stands right below it -/
def Place.Below (x y : Place × Clause) : Prop := y ∈ x.2.placesBelow x.1

/-- a clause stands at a place of a query, at any depth -/
def Query.Holds (q : Query) (p : Place) (c : Clause) : Prop :=
  ∃ top ∈ q.places, Relation.ReflTransGen Place.Below top (p, c)

/-- A clause is of the sort that its place asks for. Values are scalars without an alias; tables stand where rows come
from, sort items in an ORDER BY list, assignments in a SET list, and what is written to is a column. -/
structure Place.Admits (p : Place) (c : Clause) : Prop where
  value : p = .value → c.isExpression = true ∧ c.isAliased = false
  table : c.kind = .table → p = .source
  order : c.kind = .order → p = .sortItem
  assign : ∀ target value, c = .assign target value → p = .setItem ∧ target.kind = .field
  column : p = .column → c.kind = .field

/-! ## What stands where -/

/-- Each operand of a clause stands somewhere below it. -/
theorem Clause.placesBelow_of_operand (p : Place) {c x : Clause} (hx : x ∈ c.operands) :
    ∃ r, (r, x) ∈ c.placesBelow p := by
  cases c with
  | aliased subject name =>
    rw [List.mem_singleton.1 hx]
    exact ⟨p, List.mem_singleton_self _⟩
  | join kind target condition =>
    rcases List.mem_pair.1 hx with rfl | rfl
    · exact ⟨.source, by simp [placesBelow]⟩
    · exact ⟨.value, by simp [placesBelow]⟩
  | assign target value =>
    rcases List.mem_pair.1 hx with rfl | rfl
    · exact ⟨.column, by simp [placesBelow]⟩
    · exact ⟨.value, by simp [placesBelow]⟩
  | anyRow | subQuery => cases hx
  | _ => exact ⟨.value, List.mem_map_of_mem hx⟩

theorem Clause.placesBelow_of_query (p : Place) {c : Clause} {s : Select} (hs : s ∈ c.query?) :
    c.placesBelow p = s.places := by
  cases c with
  | anyRow | subQuery =>
    obtain rfl := Option.mem_some_iff.1 hs
    rfl
  | _ => cases hs

theorem Select.place_of_clause {s : Select} {c : Clause} (hc : c ∈ s.clauses) : ∃ p, (p, c) ∈ s.places := by
  obtain ⟨distinct, limit, fields, sources, filter, groupBy, having, orderBy⟩ := s
  simp only [Select.clauses, List.mem_append] at hc
  simp only [Select.places, List.mem_append]
  rcases hc with ((((hc | hc) | hc) | hc) | hc) | hc
  · exact ⟨.item, .inl (.inl (.inl (.inl (.inl (List.mem_map_of_mem hc)))))⟩
  · exact ⟨.source, .inl (.inl (.inl (.inl (.inr (List.mem_map_of_mem hc)))))⟩
  · exact ⟨.value, .inl (.inl (.inl (.inr (List.mem_map_of_mem hc))))⟩
  · exact ⟨.item, .inl (.inl (.inr (List.mem_map_of_mem hc)))⟩
  · exact ⟨.value, .inl (.inr (List.mem_map_of_mem hc))⟩
  · exact ⟨.sortItem, .inr (List.mem_map_of_mem hc)⟩

/-! ## Where assignments come from -/

/-- An assignment is asked for by the clause that it is, or by what is right below it. -/
theorem Clause.assignment_demanded {c : Clause} {k : ClauseKind} (h : Demand.assignment k ∈ c.demands) :
    (∃ target value, c = .assign target value ∧ target.kind = k) ∨ (∃ x ∈ c.operands, Demand.assignment k ∈ x.demands)
      ∨ ∃ s ∈ c.query?, Demand.assignment k ∈ s.demands := by
  cases c with
  | field | allFields | constant | param | table => simp [demands] at h
  | builtin fn =>
    cases fn with
    | lastId sequence => cases sequence <;> simp [demands, Builtin.demands] at h
    | _ => simp [demands, Builtin.demands] at h
  | anyRow query | subQuery query => exact .inr (.inr ⟨query, rfl, h⟩)
  | aggregate fn arg distinct =>
    cases arg with
    | none => simp [demands] at h
    | some arg => exact .inr (.inl ⟨arg, List.mem_singleton_self arg, h⟩)
  | inList subject items negated =>
    rw [demands, demandsAll_eq] at h
    split at h
    · cases h
    · exact .inr (.inl (by simpa [operands] using h))
  | assign target value =>
    rcases List.mem_cons.1 h with same | h
    · exact .inl ⟨target, value, rfl, (Demand.assignment.inj same).symm⟩
    · exact .inr (.inl (by simpa [operands] using List.mem_append.1 h))
  | _ => exact .inr (.inl (by simpa [demands, demandsAll_eq, operands, or_assoc] using h))

theorem Select.assignment_demanded {s : Select} {k : ClauseKind} (h : Demand.assignment k ∈ s.demands) :
    ∃ c ∈ s.clauses, Demand.assignment k ∈ c.demands := by
  obtain ⟨distinct, limit, fields, sources, filter, groupBy, having, orderBy⟩ := s
  have limits : Demand.assignment k ∉ limit.toList.map RowLimit.demand := by simp [RowLimit.demand]
  have listed := (List.mem_append.1 h).resolve_left limits
  simpa only [Clause.demandsAll_eq, Clause.demandsOption_eq, ← List.flatMap_append, List.mem_flatMap, clauses]
    using listed

/-- an assignment with a target of one sort stands at a clause or below it -/
def Place.Reaches (k : ClauseKind) (x : Place × Clause) : Prop :=
  ∃ p target value, Relation.ReflTransGen Place.Below x (p, .assign target value) ∧ target.kind = k

theorem Place.Reaches.above {k : ClauseKind} {x y : Place × Clause} (hy : Reaches k y) (h : Below x y) :
    Reaches k x := by
  obtain ⟨p, target, value, path, kind⟩ := hy
  exact ⟨p, target, value, .head h path, kind⟩

/-- An assignment that a clause or a select asks for is reached from there, by induction on the tree. -/
theorem assignment_reached (k : ClauseKind) :
    (∀ c : Clause, Demand.assignment k ∈ c.demands → ∀ p, Place.Reaches k (p, c))
      ∧ ∀ s : Select, Demand.assignment k ∈ s.demands → ∃ top ∈ s.places, Place.Reaches k top := by
  refine Clause.operandInduction (fun c operands query h p => ?_) (fun s clauses h => ?_)
  · rcases c.assignment_demanded h with ⟨target, value, rfl, kind⟩ | ⟨x, hx, asked⟩ | ⟨s, hs, asked⟩
    · exact ⟨p, target, value, .refl, kind⟩
    · obtain ⟨r, below⟩ := c.placesBelow_of_operand p hx
      exact (operands x hx asked r).above below
    · obtain ⟨top, inside, reached⟩ := query s hs asked
      have below : Place.Below (p, c) top := by
        rw [Place.Below, Clause.placesBelow_of_query p hs]
        exact inside
      exact reached.above below
  · obtain ⟨c, hc, asked⟩ := s.assignment_demanded h
    obtain ⟨p, inside⟩ := s.place_of_clause hc
    exact ⟨(p, c), inside, clauses c hc asked p⟩

/-- An assignment that a statement asks for is reached from the top of a section. -/
theorem Statement.assignment_reached {s : Statement} {k : ClauseKind} (h : Demand.assignment k ∈ s.demands) :
    ∃ top ∈ s.places, Place.Reaches k top := by
  obtain ⟨clause, select⟩ := SqlTree.assignment_reached k
  have listed : ∀ (p : Place) (cs : List Clause), Demand.assignment k ∈ cs.flatMap Clause.demands →
      ∃ top ∈ cs.map (p, ·), Place.Reaches k top := by
    intro p cs asked
    obtain ⟨c, hc, asked⟩ := List.mem_flatMap.1 asked
    exact ⟨(p, c), List.mem_map_of_mem hc, clause c asked p⟩
  have left : ∀ {xs ys : List (Place × Clause)}, (∃ top ∈ xs, Place.Reaches k top) →
      ∃ top ∈ xs ++ ys, Place.Reaches k top := fun h => h.imp fun _ h => ⟨List.mem_append_left _ h.1, h.2⟩
  have right : ∀ {xs ys : List (Place × Clause)}, (∃ top ∈ ys, Place.Reaches k top) →
      ∃ top ∈ xs ++ ys, Place.Reaches k top := fun h => h.imp fun _ h => ⟨List.mem_append_right _ h.1, h.2⟩
  cases s with
  | select s => exact select s h
  | insert i =>
    simp only [demands, Clause.demandsAll_eq, List.mem_append] at h
    rcases h with h | h | h
    · exact left (left (listed .column _ h))
    · exact left (right (listed .value _ h))
    · cases hs : i.source with
      | none => simp [hs] at h
      | some query =>
        refine right ?_
        rw [hs]
        simpa using select query (by simpa [hs] using h)
  | update u =>
    simp only [demands, Clause.demandsAll_eq, Clause.demandsOption_eq, List.mem_append] at h
    rcases h with h | h
    · exact left (listed .setItem _ h)
    · exact right (listed .value _ h)
  | delete s =>
    rw [demands, Clause.demandsOption_eq] at h
    exact listed .value _ h
  | exec e =>
    rw [demands, Clause.demandsAll_eq] at h
    exact listed .value _ h
  | createTable t =>
    refine absurd h ?_
    cases hn : t.ifNotExists <;> simp [demands, existenceDemands, ColumnDef.demand, hn]
  | dropTable t =>
    refine absurd h ?_
    cases hn : t.ifExists <;> simp [demands, existenceDemands, hn]

/-- **An assignment that a query asks for stands in it.** -/
theorem Query.assignment_held {q : Query} {k : ClauseKind} (h : Demand.assignment k ∈ q.demands) :
    ∃ p target value, q.Holds p (.assign target value) ∧ target.kind = k := by
  have member : ∃ s ∈ q.statements, Demand.assignment k ∈ s.demands := by
    cases q with
    | single s => exact ⟨s, List.mem_singleton_self s, h⟩
    | script members => exact List.mem_flatMap.1 ((List.mem_cons.1 h).resolve_left (by simp))
  obtain ⟨s, hs, asked⟩ := member
  obtain ⟨top, inside, p, target, value, path, kind⟩ := s.assignment_reached asked
  exact ⟨p, target, value, ⟨top, List.mem_flatMap.2 ⟨s, hs, inside⟩, path⟩, kind⟩

end SqlTree
