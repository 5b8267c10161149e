/-
Statements under construction.

There is a draft for each sort of statement, with the steps that build it. `finish` checks the rules that concern the
statement as a whole; selects, deletes, calls and drops have none.
-/
import SqlTree.Draft.Select

namespace SqlTree

/-- an insert under construction -/
structure InsertDraft where
  table : TableRef
  columns : Section := .empty .columns
  values : Section := .empty .values
  source : Option Select := none

inductive InsertStep where
  /-- adds a column with its value -/
  | value (column : String) (c : Clause)
  /-- adds a column without a value, for the rows of a query -/
  | column (name : String)
  /-- takes the rows of a query -/
  | source (s : Select)
  /-- extends the value added last by arithmetic -/
  | calc (op : Arithmetic) (operand : Clause)

structure UpdateDraft where
  table : TableRef
  assignments : Section := .empty .assignments
  filter : Section := .empty .filter
  /-- whether the predicate was added to last -/
  filtering : Bool := false

inductive UpdateStep where
  /-- gives a column a value -/
  | set (column : String) (c : Clause)
  | filter (c : Clause)
  /-- joins a predicate onto that of the current section -/
  | combine (op : Connective) (c : Clause)
  /-- extends the current item by arithmetic -/
  | calc (op : Arithmetic) (operand : Clause)

structure DeleteDraft where
  table : TableRef
  filter : Section := .empty .filter

inductive DeleteStep where
  | filter (c : Clause)
  /-- joins a predicate onto that of the statement -/
  | combine (op : Connective) (c : Clause)

/-- one step in building a routine call -/
inductive ExecStep where
  | arg (c : Clause)
  /-- lets a parameter receive the result -/
  | returns (p : Parameter)

inductive CreateTableStep where
  | column (c : ColumnDef)
  | ifNotExists

namespace InsertDraft

/-- the column sections and the value sections after one more column -/
def pushColumn (d : InsertDraft) (name : String) : Result InsertDraft :=
  (d.columns.apply (.push (.ofName name))).map ({ d with columns := · })

def apply (d : InsertDraft) : InsertStep → Result InsertDraft
  | .value name c => do
    let values ← d.values.apply (.push c)
    pushColumn { d with values } name
  | .column name => d.pushColumn name
  | .source s => .ok { d with source := some s }
  | .calc op operand => (d.values.apply (.calc op operand)).map ({ d with values := · })

def finish (d : InsertDraft) : Result Insert := do
  let i : Insert := ⟨d.table, d.columns.items, d.values.items, d.source⟩
  i.check
  return i

end InsertDraft

namespace UpdateDraft

/-- carries out an operation on the current section -/
def edit (d : UpdateDraft) (e : SectionEdit) : Result UpdateDraft :=
  if d.filtering then (d.filter.apply e).map ({ d with filter := · })
  else (d.assignments.apply e).map ({ d with assignments := · })

def apply (d : UpdateDraft) : UpdateStep → Result UpdateDraft
  | .set name c => edit { d with filtering := false } (.push (.assign (.ofName name) c))
  | .filter c => edit { d with filtering := true } (.push c)
  | .combine op c => d.edit (.combine op c)
  | .calc op operand => d.edit (.calc op operand)

def finish (d : UpdateDraft) : Result Update := do
  let u : Update := ⟨d.table, d.assignments.items, d.filter.items.head?⟩
  u.check
  return u

end UpdateDraft

namespace DeleteDraft

def apply (d : DeleteDraft) : DeleteStep → Result DeleteDraft
  | .filter c => (d.filter.apply (.push c)).map ({ d with filter := · })
  | .combine op c => (d.filter.apply (.combine op c)).map ({ d with filter := · })

def finish (d : DeleteDraft) : Delete := ⟨d.table, d.filter.items.head?⟩

end DeleteDraft

def Exec.apply (e : Exec) : ExecStep → Result Exec
  | .arg c => do
    c.checkArgument
    return { e with args := e.args ++ [c] }
  | .returns p => .ok { e with returns := some p }

def CreateTable.apply (t : CreateTable) : CreateTableStep → CreateTable
  | .column c => { t with columns := t.columns ++ [c] }
  | .ifNotExists => { t with ifNotExists := true }

/-- a statement of any sort under construction -/
inductive Draft where
  | select (d : SelectDraft)
  | insert (d : InsertDraft)
  | update (d : UpdateDraft)
  | delete (d : DeleteDraft)
  | exec (e : Exec)
  | script (members : List Query)
  | createTable (c : CreateTable)
  | dropTable (d : DropTable)

namespace Draft

/-- the draft with nothing in it; the name is that of the table or the routine -/
def empty (kind : StatementKind) (name : String) : Draft :=
  match kind with
  | .select => .select {}
  | .insert => .insert { table := .ofName name }
  | .update => .update { table := .ofName name }
  | .delete => .delete { table := .ofName name }
  | .exec => .exec ⟨name, [], none⟩
  | .script => .script []
  | .createTable => .createTable ⟨.ofName name, [], false⟩
  | .dropTable => .dropTable ⟨.ofName name, false⟩

def finish : Draft → Result Query
  | .select d => .ok (.single (.select d.finish))
  | .insert d => d.finish.map fun i => .single (.insert i)
  | .update d => d.finish.map fun u => .single (.update u)
  | .delete d => .ok (.single (.delete d.finish))
  | .exec e => .ok (.single (.exec e))
  | .script members => .ok (.ofList members)
  | .createTable c => do
    c.check
    return .single (.createTable c)
  | .dropTable d => .ok (.single (.dropTable d))

end Draft
end SqlTree
