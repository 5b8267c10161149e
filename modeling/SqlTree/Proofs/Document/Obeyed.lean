/-
Rules that reading enforces.

A statement that is read from a document was put together by a reader, not by the steps that build one. `Part.Obeys`
says of a part of a statement what those steps make sure of there, whatever is below it: sections that rebuild
themselves, the check of the statement as a whole, arguments that a call may have.

- `Query.ofDocument_obeys`: every part of what is read obeys, but for calls, whose arguments the
  reader does not look at.
- `unfitArguments_read`: a table, an alias and the negation of a column are read as the arguments of a call.
-/
import SqlTree.Proofs.Document.Learned
import SqlTree.Proofs.Statement.Parts

namespace SqlTree

open Section (Rebuilds)

/-- what the steps that build a statement make sure of, by itself -/
def Statement.Obeys : Statement → Prop
  | .select s => Rebuilds .fields s.fields ∧ Rebuilds .sources s.sources ∧ Rebuilds .filter s.filter.toList
    ∧ Rebuilds .groupBy s.groupBy ∧ Rebuilds .having s.having.toList ∧ Rebuilds .orderBy s.orderBy
  | .insert i => Rebuilds .columns i.columns ∧ Rebuilds .values i.values ∧ i.check = .ok ()
  | .update u => Rebuilds .assignments u.assignments ∧ Rebuilds .filter u.filter.toList ∧ u.check = .ok ()
  | .delete d => Rebuilds .filter d.filter.toList
  | .exec e => ∀ a ∈ e.args, a.checkArgument = .ok ()
  | .createTable t => t.check = .ok ()
  | .dropTable _ => True

/-- what the steps that build a statement make sure of at one part of it -/
def Part.Obeys : Part → Prop
  | .clause c => c.OperandsReadable
  | .statement s => s.Obeys
  | .column _ => True

/-! ## What can be held obeys -/

/-- Every part of a clause or a select that can be held obeys; no call is among them. -/
theorem Recordable.parts_obey_all :
    (∀ c : Clause, c.Recordable → ∀ p ∈ c.parts, p.Obeys)
      ∧ ∀ s : Select, s.Recordable → ∀ p ∈ s.parts, p.Obeys := by
  refine Clause.operandInduction (fun c operands query held => ?_) fun s clauses held => ?_
  · obtain ⟨own, heldOperands, heldQuery⟩ := held
    rw [Clause.parts_eq]
    refine List.forall_mem_append.2 ⟨List.forall_mem_cons.2 ⟨own, ?_⟩, ?_⟩
    · exact List.forall_mem_flatMap.2 fun x hx => operands x hx (heldOperands x hx)
    · refine List.forall_mem_flatMap.2 fun s hs => ?_
      exact query s (Option.mem_toList.1 hs) (heldQuery s (Option.mem_toList.1 hs))
  · obtain ⟨fields, sources, filter, groupBy, having, orderBy, heldClauses⟩ := held
    rw [Select.parts_eq]
    refine List.forall_mem_cons.2 ⟨⟨fields, sources, filter, groupBy, having, orderBy⟩, ?_⟩
    exact List.forall_mem_flatMap.2 fun c hc => clauses c hc (heldClauses c hc)

theorem Recordable.clauses_obey {cs : List Clause} (h : ∀ c ∈ cs, c.Recordable) :
    ∀ p ∈ cs.flatMap Clause.parts, p.Obeys :=
  List.forall_mem_flatMap.2 fun c hc => Recordable.parts_obey_all.1 c (h c hc)

/-- A statement that can be held obeys with all that is in it, but it may be a call of which nothing is known itself. -/
theorem Statement.Recordable.parts_obey {s : Statement} (h : s.Recordable) :
    ∀ p ∈ s.parts, p.Obeys ∨ ∃ x, s = .exec x ∧ p = .statement (.exec x) := by
  have all : (∀ p ∈ s.parts, p.Obeys) → ∀ p ∈ s.parts, p.Obeys ∨ ∃ x, s = .exec x ∧ p = .statement (.exec x) :=
    fun obeys p hp => .inl (obeys p hp)
  cases s with
  | select s => exact all (Recordable.parts_obey_all.2 s h)
  | insert i =>
    obtain ⟨columns, values, clauses, source, check⟩ := h
    refine all (List.forall_mem_append.2 ⟨List.forall_mem_cons.2 ⟨⟨columns, values, check⟩, ?_⟩, ?_⟩)
    · exact Recordable.clauses_obey clauses
    · refine List.forall_mem_flatMap.2 fun q hq => ?_
      exact Recordable.parts_obey_all.2 q (source q (Option.mem_toList.1 hq))
  | update u =>
    obtain ⟨assignments, filter, clauses, check⟩ := h
    exact all (List.forall_mem_cons.2 ⟨⟨assignments, filter, check⟩, Recordable.clauses_obey clauses⟩)
  | delete d =>
    obtain ⟨filter, clauses⟩ := h
    refine all (List.forall_mem_cons.2 ⟨filter, Recordable.clauses_obey ?_⟩)
    exact fun c hc => clauses c (Option.mem_toList.1 hc)
  | exec x =>
    refine List.forall_mem_cons.2 ⟨.inr ⟨x, rfl, rfl⟩, fun p hp => .inl ?_⟩
    refine Recordable.clauses_obey (List.forall_mem_append.2 ⟨?_, h⟩) p hp
    exact List.forall_mem_map.2 fun p _ => .leaf rfl rfl
  | createTable t =>
    refine all (List.forall_mem_cons.2 ⟨h, ?_⟩)
    exact List.forall_mem_map.2 fun _ _ => trivial
  | dropTable t => exact all (List.forall_mem_singleton.2 trivial)

theorem Statement.mem_parts (s : Statement) : .statement s ∈ s.parts := by
  cases s with
  | select s =>
    rw [Statement.parts, Select.parts_eq]
    exact List.mem_cons_self
  | dropTable t => exact List.mem_singleton_self _
  | _ => simp [Statement.parts]

namespace Query

/-- **What is read of a document obeys the rules by which statements are built**, at every depth, in the members of
scripts and in the selects inside clauses; only of the arguments of a call is nothing known. So all of it obeys if and
only if every argument of every call is one that a call may have. -/
theorem ofDocument_obeys {r : Registry} {e : Element} {q : Query} (h : Query.ofDocument r e = .ok q) :
    (∀ p ∈ q.parts, (∀ x, p ≠ .statement (.exec x)) → p.Obeys)
      ∧ ((∀ p ∈ q.parts, p.Obeys) ↔ ∀ x, .exec x ∈ q.statements → ∀ a ∈ x.args, a.checkArgument = .ok ()) := by
  obtain ⟨recordable, -, -⟩ := ofDocument_recordable h
  have parts : ∀ p ∈ q.parts, p.Obeys ∨ ∃ x, .exec x ∈ q.statements ∧ p = .statement (.exec x) := by
    refine List.forall_mem_flatMap.2 fun s hs p hp => ?_
    rcases (recordable s hs).parts_obey p hp with obeys | ⟨x, rfl, same⟩
    · exact .inl obeys
    · exact .inr ⟨x, hs, same⟩
  refine ⟨fun p hp other => ?_, fun obeys x hx => ?_, fun args p hp => ?_⟩
  · rcases parts p hp with obeys | ⟨x, -, same⟩
    · exact obeys
    · exact absurd same (other x)
  · exact obeys (.statement (.exec x)) (List.mem_flatMap.2 ⟨_, hx, Statement.mem_parts _⟩)
  · rcases parts p hp with obeys | ⟨x, hx, rfl⟩
    · exact obeys
    · exact args x hx

end Query

/-- a call of a routine with what elements stand for as its arguments -/
def callOf (args : List Element) : Element := ⟨"exec", [("routine", "p")], [⟨"args", [], args⟩]⟩

def columnA : Element := ⟨"field", [("name", "a")], []⟩

def rowsWithoutA : Select := .mk false none [] [] (some (.isNull (.ofName "a") false)) [] none []

/-- A script with a call whose only argument is a select with a filter: all of it obeys, down to the column. -/
theorem ofDocument_obeys_callOf :
    let q : Query := .script [.exec ⟨"p", [.subQuery rowsWithoutA], none⟩]
    Query.ofDocument .standard ⟨"script", [], [callOf [⟨"sub-query", [], [⟨"select", [],
        [⟨"where", [], [⟨"is-null", [], [columnA]⟩]⟩]⟩]⟩]]⟩ = .ok q
      ∧ .clause (.ofName "a") ∈ q.parts ∧ ∀ p ∈ q.parts, p.Obeys := by
  have read : Query.ofDocument .standard ⟨"script", [], [callOf [⟨"sub-query", [], [⟨"select", [],
      [⟨"where", [], [⟨"is-null", [], [columnA]⟩]⟩]⟩]⟩]]⟩
      = .ok (.script [.exec ⟨"p", [.subQuery rowsWithoutA], none⟩]) := rfl
  refine ⟨read, ?_, (Query.ofDocument_obeys read).2.2 fun x hx => ?_⟩
  · simp [-List.mem_flatMap, Query.parts, Query.statements, Statement.parts, Clause.parts_eq, Select.parts_eq,
      Clause.operands, Clause.query?, Select.clauses, rowsWithoutA]
  · cases List.mem_singleton.1 hx
    exact List.forall_mem_singleton.2 rfl

/-- **The reader takes what a call may not have**: a table, an alias, and the negation of what is no predicate, each of
which building a call refuses. -/
theorem unfitArguments_read :
    ∃ x, Query.ofDocument .standard
        (callOf [⟨"table", [("table", "t")], []⟩, ⟨"alias", [("alias", "b")], [columnA]⟩, ⟨"not", [], [columnA]⟩])
        = .ok (.single (.exec x))
      ∧ x.args.map Clause.checkArgument
        = [.error (.construction (.routineArgument .table)), .error (.construction (.routineArgument .aliased)),
          .error (.construction (.operand .not .field .predicate))]
      ∧ ¬Part.Obeys (.statement (.exec x)) := by
  refine ⟨_, rfl, rfl, fun obeys => ?_⟩
  cases obeys (.table ⟨none, "t"⟩) List.mem_cons_self

end SqlTree
