/-
Statements that a document can hold.

The reader of a document asks less than the steps that build a statement: the operands of arithmetic, of negation and of
a join are looked at only where a section takes the clause. `Recordable` says what the reader asks, and what it gives.

- `Query.Built.recordable`: what was put together by the rules can be held.
-/
import SqlTree.Proofs.Statement.Built

namespace SqlTree

open Section (Rebuilds)

/-- what a reader asks of the operands of a clause: a connective joins predicates, and an alias stands on what may have
one -/
def Clause.OperandsReadable : Clause → Prop
  | .logic left _ right => left.isPredicate ∧ right.isPredicate
  | .aliased subject _ => subject.isAliasable
  | _ => True

mutual

/-- a clause that an element can stand for, with everything in it -/
inductive Clause.Recordable : Clause → Prop
  | node {c : Clause} (own : c.OperandsReadable) (operands : ∀ x ∈ c.operands, Clause.Recordable x)
    (query : ∀ s ∈ c.query?, Select.Recordable s) : Clause.Recordable c

/-- a select whose sections rebuild themselves, with clauses that can be held -/
inductive Select.Recordable : Select → Prop
  | sections {s : Select} (fields : Rebuilds .fields s.fields) (sources : Rebuilds .sources s.sources)
    (filter : Rebuilds .filter s.filter.toList) (groupBy : Rebuilds .groupBy s.groupBy)
    (having : Rebuilds .having s.having.toList) (orderBy : Rebuilds .orderBy s.orderBy)
    (clauses : ∀ c ∈ s.clauses, Clause.Recordable c) : Select.Recordable s

end

theorem Clause.operandsReadable_of_nil {c : Clause} (h : c.operands = []) : c.OperandsReadable := by
  cases c <;> trivial

theorem Clause.Recordable.leaf {c : Clause} (operands : c.operands = []) (query : c.query? = none) : c.Recordable :=
  .node (Clause.operandsReadable_of_nil operands) (by simp [operands]) (by simp [query])

/-- a statement that a document can hold -/
def Statement.Recordable : Statement → Prop
  | .select s => s.Recordable
  | .insert i => Rebuilds .columns i.columns ∧ Rebuilds .values i.values ∧ (∀ c ∈ i.columns ++ i.values, c.Recordable)
    ∧ (∀ s ∈ i.source, s.Recordable) ∧ i.check = .ok ()
  | .update u => Rebuilds .assignments u.assignments ∧ Rebuilds .filter u.filter.toList
    ∧ (∀ c ∈ u.assignments ++ u.filter.toList, c.Recordable) ∧ u.check = .ok ()
  | .delete s => Rebuilds .filter s.filter.toList ∧ ∀ c ∈ s.filter, c.Recordable
  | .exec e => ∀ a ∈ e.args, a.Recordable
  | .createTable t => t.check = .ok ()
  | .dropTable _ => True

def Query.Recordable (q : Query) : Prop := ∀ s ∈ q.statements, s.Recordable

/-! ## What was built can be held -/

theorem Built.recordable_all :
    (∀ c : Clause, c.Built → c.check = .ok () → c.Recordable) ∧ ∀ s : Select, s.Built → s.Recordable := by
  refine Clause.operandInduction (fun c operands query built check => ?_) fun s clauses built => ?_
  · obtain ⟨aliasable, builtOperands, builtQuery⟩ := built
    rw [Clause.check_eq_ok_iff] at check
    refine .node ?_ (fun x hx => operands x hx (builtOperands x hx) (check.2 x hx)) fun s hs =>
      query s hs (builtQuery s hs)
    cases c with
    | logic => exact check.1
    | aliased subject name => exact aliasable subject name rfl
    | _ => trivial
  · have checked := built.check
    obtain ⟨fields, sources, filter, groupBy, having, orderBy, builtClauses⟩ := built
    exact .sections fields sources filter groupBy having orderBy fun c hc =>
      clauses c hc (builtClauses c hc) (checked c hc)

theorem Select.Built.recordable {s : Select} (h : s.Built) : s.Recordable := Built.recordable_all.2 s h

/-- The clauses of a section that rebuilds itself can be held if they are built. -/
theorem Section.Rebuilds.recordable {kind : SectionKind} {cs : List Clause} (h : Rebuilds kind cs)
    (built : ∀ c ∈ cs, c.Built) : ∀ c ∈ cs, c.Recordable := fun c hc =>
  Built.recordable_all.1 c (built c hc) (h.check c hc)

theorem Statement.Built.recordable {s : Statement} (h : s.Built) : s.Recordable := by
  cases s with
  | select s => exact Select.Built.recordable h
  | insert i =>
    obtain ⟨columns, values, clauses, source, check⟩ := h
    rw [List.forall_mem_append] at clauses
    refine ⟨columns, values, ?_, fun s hs => (source s hs).recordable, check⟩
    exact List.forall_mem_append.2 ⟨columns.recordable clauses.1, values.recordable clauses.2⟩
  | update u =>
    obtain ⟨assignments, filter, clauses, check⟩ := h
    rw [List.forall_mem_append] at clauses
    refine ⟨assignments, filter, ?_, check⟩
    exact List.forall_mem_append.2 ⟨assignments.recordable clauses.1, filter.recordable clauses.2⟩
  | delete d =>
    obtain ⟨filter, clauses⟩ := h
    exact ⟨filter, by simpa using filter.recordable (by simpa using clauses)⟩
  | exec e => exact fun a ha => Built.recordable_all.1 a (h a ha).2 (Clause.then_eq_ok_iff.1 (h a ha).1).1
  | createTable t => exact h
  | dropTable t => trivial

/-- **What was put together by the rules can be held by a document.** -/
theorem Query.Built.recordable {q : Query} (h : q.Built) : q.Recordable := fun s hs => (h s hs).recordable

end SqlTree
