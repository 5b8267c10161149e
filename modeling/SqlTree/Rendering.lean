/-
Writing statements and scripts.

`render` writes a query for a dialect in one pass. It reports the parameters whose values were asked for also when it
fails, so that feeds can be read on from where they stand.
-/
import SqlTree.Rendering.Clause

namespace SqlTree

namespace Writing

/-- writes a predicate behind its keyword, if there is one -/
def filter (d : Dialect) (predicate : Option Clause) : Writing Unit :=
  optional " WHERE " (nodeOption d predicate)

def insert (d : Dialect) (i : Insert) : Writing Unit := do
  emit "INSERT INTO "
  table d i.table
  if !i.columns.isEmpty then
    emit " ("
    separated ", " (i.columns.map (columnName d))
    emit ")"
  match i.source with
  | some query => do
    emit " "
    select d query
  | none => do
    emit " VALUES ("
    list d ", " i.values
    emit ")"

def update (d : Dialect) (u : Update) : Writing Unit := do
  emit "UPDATE "
  table d u.table
  emit " SET "
  list d ", " u.assignments
  filter d u.filter

def delete (d : Dialect) (s : Delete) : Writing Unit := do
  emit "DELETE FROM "
  table d s.table
  filter d s.filter

def columnDef (d : Dialect) (c : ColumnDef) : Writing Unit := do
  ident d c.name
  emit " "
  let name ← ofResult (d.nativeType c.type)
  emit (name ++ (if c.nullable then "" else " NOT NULL"))

/-- writes the creation of a table, with the key columns at the end -/
def createTable (d : Dialect) (t : CreateTable) : Writing Unit := do
  emit "CREATE TABLE "
  if t.ifNotExists then
    ofResult (d.require .existenceCheck "create table if not exists")
    emit "IF NOT EXISTS "
  table d t.table
  emit " ("
  separated ", " (t.columns.map (columnDef d))
  let keys := t.columns.filter (·.primaryKey)
  if !keys.isEmpty then
    emit ", PRIMARY KEY ("
    separated ", " (keys.map fun c => ident d c.name)
    emit ")"
  emit ")"

def dropTable (d : Dialect) (t : DropTable) : Writing Unit := do
  emit "DROP TABLE "
  if t.ifExists then
    ofResult (d.require .existenceCheck "drop table if exists")
    emit "IF EXISTS "
  table d t.table

/-- registers the parameter that receives a result, writes its placeholder and what assigns to it -/
def receiver (d : Dialect) (assignment : String) : Option Parameter → Writing Unit
  | none => pure ()
  | some p => do
    let i ← register d p .result
    placeholder d i
    emit assignment

/-- whether an argument is a parameter that the routine writes to -/
def isOutputArg : Clause → Bool
  | .param p => p.direction.isOutput
  | _ => false

/-- writes an argument of a call without parentheses -/
def bareArg (d : Dialect) (c : Clause) : Writing Unit := do
  clause d c
  emit (if isOutputArg c then " OUTPUT" else "")

def routineCall (d : Dialect) (e : Exec) : Writing Unit := do
  routine d e.routine
  emit "("
  list d ", " e.args
  emit ")"

/-- writes a call; a result that has no place in the text is registered behind the arguments -/
def exec (d : Dialect) (e : Exec) : Writing Unit :=
  match d.calls with
  | .call => do
    emit (if e.returns.isSome then "SELECT " else "CALL ")
    routineCall d e
    match e.returns with
    | none => pure ()
    | some p => do
      let _ ← register d p .result
  | .exec => do
    emit "EXEC "
    receiver d " = " e.returns
    routine d e.routine
    emit (if e.args.isEmpty then "" else " ")
    separated ", " (e.args.map (bareArg d))
  | .block => do
    let standalone := (← get).scriptDepth = 0
    emit (if standalone then "BEGIN " else "")
    receiver d " := " e.returns
    routineCall d e
    emit (if standalone then "; END;" else "")

def statement (d : Dialect) : Statement → Writing Unit
  | .select s => select d s
  | .insert i => insert d i
  | .update u => update d u
  | .delete s => delete d s
  | .exec e => exec d e
  | .createTable t => createTable d t
  | .dropTable t => dropTable d t

/-- the text of a statement that needs no parameters, written by itself -/
def standaloneText (d : Dialect) (s : Statement) : Result String :=
  match (statement d s).run (Pass.start fun _ _ => .null) with
  | (.ok _, p) => .ok p.text
  | (.error e, _) => .error e

/-- writes the members of a script one after another, each closed by a semicolon -/
def sequence (d : Dialect) (members : List Statement) : Writing Unit :=
  separated "\n" (members.map fun s => do
    statement d s
    emit ";")

/-- the declarations of cursors for the statements that give rows -/
def cursorDeclarations (count : Nat) : String :=
  if count = 0 then "" else
    "DECLARE\n" ++ String.join ((List.range count).map fun i => "c" ++ Decimal.ofNat (i + 1) ++ " SYS_REFCURSOR;\n")

/-- Writes the members of a block. One that gives rows is opened as a cursor, `n` cursors being open before it, and one
that defines a table is given as a string literal, for it is no statement of a block. -/
def blockMembers (d : Dialect) : Nat → List Statement → Writing Unit
  | _, [] => pure ()
  | n, s :: rest =>
    if s.givesRows then do
      let cursor := "c" ++ Decimal.ofNat (n + 1)
      emit ("OPEN " ++ cursor ++ " FOR ")
      statement d s
      emit (";\nDBMS_SQL.RETURN_RESULT(" ++ cursor ++ ");\n")
      blockMembers d (n + 1) rest
    else do
      if s.isDefinition then
        let text ← ofResult (standaloneText d s)
        emit ("EXECUTE IMMEDIATE " ++ Dialect.literal text ++ ";\n")
      else
        statement d s
        emit ";\n"
      blockMembers d n rest

def block (d : Dialect) (members : List Statement) : Writing Unit := do
  emit (cursorDeclarations (members.filter Statement.givesRows).length)
  emit "BEGIN\n"
  blockMembers d 0 members
  emit "END;"

def query (d : Dialect) : Query → Writing Unit
  | .single s => statement d s
  | .script members => do
    ofResult (d.require .scripts "script")
    inScript (match d.scripts with
      | .sequence => sequence d members
      | .block => block d members)

end Writing

/-- what a pass over a query gives -/
structure Rendering where
  result : Result Rendered
  /-- the parameters whose values were asked for, in order -/
  produced : List Parameter

/-- writes a query for a dialect, keeping its explicit parameter names away from generated ones -/
def render (d : Dialect) (q : Query) (supply : Supply) : Rendering :=
  let (outcome, p) := (Writing.query d q).run ((Pass.start supply).reserve d q.paramNames)
  ⟨outcome.map fun _ => p.finish, p.produced⟩

end SqlTree
