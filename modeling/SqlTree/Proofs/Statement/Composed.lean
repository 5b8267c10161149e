/-
Queries that are built from given clauses.

`Query.Composed P S` says that a query was built step by step, put together from built ones or extended by joins, and
what was given to it on the way: every clause has the property `P`, as the section it was given to keeps it, and every
select whose rows an insert takes has the property `S`.

- `Query.Composed.given`: such a query is one that the library gives, so it is regular.
-/
import SqlTree.Proofs.Statement.Given

namespace SqlTree

/-- the clauses given to a step, as their sections keep them -/
def SelectStep.given : SelectStep → List Clause
  | .add kind c => [Section.admitted kind c]
  | .combine _ c | .calc _ c => [c]
  | .aliasAs _ | .distinct | .limit _ => []

/-- the clauses given to a step; names of columns are none -/
def InsertStep.given : InsertStep → List Clause
  | .value _ c | .calc _ c => [c]
  | .column _ | .source _ => []

/-- the select given to a step -/
def InsertStep.query? : InsertStep → Option Select
  | .source s => some s
  | _ => none

/-- the clauses given to a step; a value is given as part of its assignment -/
def UpdateStep.given : UpdateStep → List Clause
  | .set column c => [.assign (.ofName column) c]
  | .filter c | .combine _ c | .calc _ c => [c]

def DeleteStep.given : DeleteStep → List Clause
  | .filter c | .combine _ c => [c]

def ExecStep.given : ExecStep → List Clause
  | .arg c => [c]
  | .returns _ => []

/-- a query that was built from clauses with the property `P` and selects with the property `S` -/
inductive Query.Composed (P : Clause → Prop) (S : Select → Prop) : Query → Prop
  | select {steps : List SelectStep} {s : Select} (built : SelectDraft.build steps = .ok s)
    (clauses : ∀ b ∈ steps, ∀ c ∈ b.given, P c) : Composed P S (.single (.select s))
  | insert {table : TableRef} {steps : List InsertStep} {draft : InsertDraft} {i : Insert}
    (built : steps.foldlM InsertDraft.apply { table := table } = .ok draft) (finished : draft.finish = .ok i)
    (clauses : ∀ b ∈ steps, ∀ c ∈ b.given, P c) (rows : ∀ b ∈ steps, ∀ s ∈ b.query?, S s) :
    Composed P S (.single (.insert i))
  | update {table : TableRef} {steps : List UpdateStep} {draft : UpdateDraft} {u : Update}
    (built : steps.foldlM UpdateDraft.apply { table := table } = .ok draft) (finished : draft.finish = .ok u)
    (clauses : ∀ b ∈ steps, ∀ c ∈ b.given, P c) : Composed P S (.single (.update u))
  | delete {table : TableRef} {steps : List DeleteStep} {draft : DeleteDraft}
    (built : steps.foldlM DeleteDraft.apply { table := table } = .ok draft)
    (clauses : ∀ b ∈ steps, ∀ c ∈ b.given, P c) : Composed P S (.single (.delete draft.finish))
  | exec {routine : String} {steps : List ExecStep} {e : Exec}
    (built : steps.foldlM Exec.apply ⟨routine, [], none⟩ = .ok e) (clauses : ∀ b ∈ steps, ∀ c ∈ b.given, P c) :
    Composed P S (.single (.exec e))
  | createTable {table : TableRef} {steps : List CreateTableStep} {t : CreateTable}
    (built : steps.foldl CreateTable.apply ⟨table, [], false⟩ = t) (finished : t.check = .ok ()) :
    Composed P S (.single (.createTable t))
  | dropTable (t : DropTable) : Composed P S (.single (.dropTable t))
  | script {members : List Query} (composed : ∀ q ∈ members, Composed P S q) : Composed P S (.ofList members)
  | join {q q' : Query} {kind : JoinKind} {target condition : Clause} (composed : Composed P S q)
    (joined : q.addJoin kind target condition = .ok q') (clause : P (.join kind target condition)) : Composed P S q'

/-- A query that is built from given clauses is one that the library gives. -/
theorem Query.Composed.given {P : Clause → Prop} {S : Select → Prop} {q : Query} (h : q.Composed P S) : q.Given := by
  induction h with
  | select built => exact .select built
  | insert built finished => exact .insert built finished
  | update built finished => exact .update built finished
  | delete built => exact .delete built
  | exec built => exact .exec built
  | createTable built finished => exact .createTable built finished
  | dropTable t => exact .dropTable t
  | script _ given => exact .script given
  | join _ joined _ given => exact .join given joined

end SqlTree
