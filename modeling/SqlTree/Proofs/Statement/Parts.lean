/-
The parts of a statement.

`Query.parts` are the statements of a query, the columns they define and the clauses in them, at any depth, with the
selects that clauses hold.

- `Clause.parts_eq`, `Select.parts_eq`: the parts of a tree are the tree itself and those of what is right below it.
-/
import SqlTree.Proofs.Clause.Operands
import SqlTree.Statement

namespace SqlTree

/-- a statement, or something in one -/
inductive Part where
  | clause (c : Clause)
  | statement (s : Statement)
  | column (c : ColumnDef)

theorem Clause.sizeOf_operand {c x : Clause} (h : x ∈ c.operands) : sizeOf x < sizeOf c := by
  have listed : ∀ cs : List Clause, x ∈ cs → sizeOf x < sizeOf cs := fun cs hx => List.sizeOf_lt_of_mem hx
  cases c with
  | function name args =>
    have := listed args h
    simp only [function.sizeOf_spec]
    omega
  | concat parts =>
    have := listed parts h
    simp only [concat.sizeOf_spec]
    omega
  | inList subject items negated =>
    simp only [inList.sizeOf_spec]
    rcases List.mem_cons.1 h with rfl | h
    · omega
    · have := listed items h
      omega
  | aggregate fn arg distinct =>
    obtain rfl : arg = some x := by simpa [operands] using h
    simp only [aggregate.sizeOf_spec, Option.some.sizeOf_spec]
    omega
  | between subject low high =>
    simp only [operands, List.mem_cons, List.not_mem_nil, or_false] at h
    simp only [between.sizeOf_spec]
    rcases h with rfl | rfl | rfl <;> omega
  | compare | logic | «calc» | join | assign =>
    simp only [operands, List.mem_cons, List.not_mem_nil, or_false] at h
    simp only [compare.sizeOf_spec, logic.sizeOf_spec, calc.sizeOf_spec, join.sizeOf_spec, assign.sizeOf_spec]
    rcases h with rfl | rfl <;> omega
  | isNull | not | cast | aliased | order =>
    obtain rfl := List.mem_singleton.1 h
    simp only [isNull.sizeOf_spec, not.sizeOf_spec, cast.sizeOf_spec, aliased.sizeOf_spec, order.sizeOf_spec]
    omega
  | _ => cases h

theorem Clause.sizeOf_query {c : Clause} {s : Select} (h : c.query? = some s) : sizeOf s < sizeOf c := by
  cases c <;> simp only [query?, reduceCtorEq, Option.some.injEq] at h <;> subst h <;> simp

theorem Select.sizeOf_clause {s : Select} {c : Clause} (h : c ∈ s.clauses) : sizeOf c < sizeOf s := by
  obtain ⟨distinct, limit, fields, sources, filter, groupBy, having, orderBy⟩ := s
  have listed : ∀ cs : List Clause, c ∈ cs → sizeOf c < sizeOf cs := fun cs hx => List.sizeOf_lt_of_mem hx
  have held : ∀ x : Option Clause, x = some c → sizeOf c < sizeOf x := by
    rintro _ rfl
    simp
  simp only [clauses, List.mem_append, Option.mem_toList] at h
  rw [mk.sizeOf_spec]
  rcases h with ((((h | h) | h) | h) | h) | h
  · have := listed _ h
    omega
  · have := listed _ h
    omega
  · have := held _ h
    omega
  · have := listed _ h
    omega
  · have := held _ h
    omega
  · have := listed _ h
    omega

mutual

def Clause.parts (c : Clause) : List Part :=
  .clause c :: c.operands.attach.flatMap (fun x => x.1.parts) ++ c.query?.toList.attach.flatMap (fun s => s.1.parts)
termination_by sizeOf c
decreasing_by
  · exact Clause.sizeOf_operand x.2
  · exact Clause.sizeOf_query (Option.mem_toList.1 s.2)

def Select.parts (s : Select) : List Part := .statement (.select s) :: s.clauses.attach.flatMap fun c => c.1.parts
termination_by sizeOf s
decreasing_by exact Select.sizeOf_clause c.2

end

theorem flatMap_attach {α β : Type} (xs : List α) (f : α → List β) :
    xs.attach.flatMap (fun x => f x.1) = xs.flatMap f := by
  rw [← List.flatMap_map, List.attach_map_subtype_val]

theorem Clause.parts_eq (c : Clause) :
    c.parts = .clause c :: c.operands.flatMap parts ++ c.query?.toList.flatMap Select.parts := by
  rw [parts, flatMap_attach, flatMap_attach]

theorem Select.parts_eq (s : Select) : s.parts = .statement (.select s) :: s.clauses.flatMap Clause.parts := by
  rw [parts, flatMap_attach]

def Statement.parts : Statement → List Part
  | .select s => s.parts
  | .insert i =>
    .statement (.insert i) :: (i.columns ++ i.values).flatMap Clause.parts ++ i.source.toList.flatMap Select.parts
  | .update u => .statement (.update u) :: (u.assignments ++ u.filter.toList).flatMap Clause.parts
  | .delete d => .statement (.delete d) :: d.filter.toList.flatMap Clause.parts
  | .exec e => .statement (.exec e) :: (e.returns.toList.map Clause.param ++ e.args).flatMap Clause.parts
  | .createTable c => .statement (.createTable c) :: c.columns.map Part.column
  | .dropTable d => [.statement (.dropTable d)]

/-- the statements of a query and what is in them -/
def Query.parts (q : Query) : List Part := q.statements.flatMap Statement.parts

theorem Query.parts_single (s : Statement) : (Query.single s).parts = s.parts := List.flatMap_singleton ..

theorem Query.parts_ofList (qs : List Query) : (Query.ofList qs).parts = qs.flatMap Query.parts := List.flatMap_assoc ..

end SqlTree
