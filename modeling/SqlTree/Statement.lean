/-
Statements as finished trees.

A `Query` is one statement or a script. The members of a script are statements that are no scripts, so a script put
into a script becomes part of it (`Query.ofList`). This is narrower than a public list of queries: a script whose list
was filled by hand, with a script left whole inside another one, has no value here. Builders and documents make none;
what they put together, they put together with `ofList`, one level at a time. The rules that no single section can check
are `check` functions.
-/
import SqlTree.Section

namespace SqlTree

/-- adds one row, or the rows of a query -/
structure Insert where
  table : TableRef
  columns : List Clause
  values : List Clause
  /-- the query whose rows are added in place of `values` -/
  source : Option Select

structure Update where
  table : TableRef
  assignments : List Clause
  filter : Option Clause

structure Delete where
  table : TableRef
  filter : Option Clause

structure Exec where
  routine : String
  args : List Clause
  /-- receives the result of the routine -/
  returns : Option Parameter

/-- a column of a table to create -/
structure ColumnDef where
  name : String
  type : DataType
  nullable : Bool
  primaryKey : Bool
  deriving DecidableEq

structure CreateTable where
  table : TableRef
  columns : List ColumnDef
  ifNotExists : Bool
  deriving DecidableEq

structure DropTable where
  table : TableRef
  ifExists : Bool
  deriving DecidableEq

/-- one statement that is no script -/
inductive Statement where
  | select (s : Select)
  | insert (i : Insert)
  | update (u : Update)
  | delete (d : Delete)
  | exec (e : Exec)
  | createTable (c : CreateTable)
  | dropTable (d : DropTable)

/-- a statement, or several in order -/
inductive Query where
  | single (s : Statement)
  | script (members : List Statement)

def Statement.kind : Statement → StatementKind
  | .select _ => .select
  | .insert _ => .insert
  | .update _ => .update
  | .delete _ => .delete
  | .exec _ => .exec
  | .createTable _ => .createTable
  | .dropTable _ => .dropTable

theorem Statement.kind_ne_script (s : Statement) : s.kind ≠ .script := by
  cases s <;> exact nofun

/-- whether a statement gives rows -/
def Statement.givesRows : Statement → Bool
  | .select _ => true
  | _ => false

/-- whether a statement changes what tables there are -/
def Statement.isDefinition : Statement → Bool
  | .createTable _ | .dropTable _ => true
  | _ => false

/-- an insert takes as many values as it names columns, or a query and no values -/
def Insert.check (i : Insert) : Result Unit :=
  if i.source.isSome then
    if i.values.isEmpty then .ok () else .error (.construction .valuesAndSource)
  else if i.values.isEmpty then .error (.construction .noValues)
  else if i.columns.length ≠ i.values.length then
    .error (.construction (.columnCount i.columns.length i.values.length))
  else .ok ()

/-- an update assigns something -/
def Update.check (u : Update) : Result Unit :=
  if u.assignments.isEmpty then .error (.construction .noAssignments) else .ok ()

def CreateTable.check (c : CreateTable) : Result Unit :=
  if c.columns.isEmpty then .error (.construction .noColumns) else .ok ()

namespace Statement

/-- equality of statements, part by part -/
protected def beq : Statement → Statement → Bool
  | .select s, .select s' => s == s'
  | .insert i, .insert i' =>
    i.table == i'.table && i.columns == i'.columns && i.values == i'.values && i.source == i'.source
  | .update u, .update u' => u.table == u'.table && u.assignments == u'.assignments && u.filter == u'.filter
  | .delete d, .delete d' => d.table == d'.table && d.filter == d'.filter
  | .exec e, .exec e' => e.routine == e'.routine && e.args == e'.args && e.returns == e'.returns
  | .createTable c, .createTable c' => c == c'
  | .dropTable d, .dropTable d' => d == d'
  | _, _ => false

instance : BEq Statement := ⟨Statement.beq⟩

end Statement

namespace Query

def kind : Query → StatementKind
  | .single s => s.kind
  | .script _ => .script

def statements : Query → List Statement
  | .single s => [s]
  | .script members => members

/-- the script of several queries, scripts among them taken apart -/
def ofList (queries : List Query) : Query :=
  .script (queries.flatMap statements)

/-- A script among the members of a script stands for its own members, wherever it stands and however it was made. -/
theorem ofList_script (before members behind : List Query) :
    ofList (before ++ ofList members :: behind) = ofList (before ++ members ++ behind) := by
  simp [ofList, statements]

/-- equality of queries; a script of one statement is not that statement -/
protected def beq : Query → Query → Bool
  | .single s, .single s' => s == s'
  | .script m, .script m' => m == m'
  | _, _ => false

instance : BEq Query := ⟨Query.beq⟩

/-- adds a join to the sources of a select -/
def addJoin (q : Query) (kind : JoinKind) (target condition : Clause) : Result Query :=
  match q with
  | .single (.select (.mk distinct limit fields sources filter groupBy having orderBy)) => do
    let joined ← Section.apply (.push (.join kind target condition)) ⟨.sources, sources, none⟩
    return .single (.select (.mk distinct limit fields joined.items filter groupBy having orderBy))
  | q => .error (.construction (.joinOutsideSelect q.kind))

end Query
end SqlTree
