/-
What is written, before it is written: statements as lists of pieces.

A `Piece` is a text, a quoted name, a place where a parameter enters, a hook's action, a fault, or a select with the
pieces inside its frame. `Clause.pieces`, `Statement.pieces` and `Query.pieces` lay a statement out without looking at
the state of a pass; `playAll` carries a list of pieces out.

Main statement (in `Rendering/Play`): writing a statement is playing its pieces.
-/
import SqlTree.Rendering

namespace SqlTree

/-- a place where a parameter enters a statement -/
inductive Occurrence where
  /-- a literal that is not null, which is a parameter of its own -/
  | constant (v : Value)
  /-- a parameter; `placed` says whether it has a placeholder there -/
  | param (p : Parameter) (direction : Direction) (placed : Bool)

/-- a part of a statement in the order of writing -/
inductive Piece where
  | text (t : String)
  /-- a quoted identifier -/
  | ident (name : String)
  /-- a string literal -/
  | literal (t : String)
  | value (o : Occurrence)
  /-- an action of a hook inside a select -/
  | act (a : HookAction)
  /-- nothing behind this is written -/
  | stop (e : Error)
  /-- a select, with the actions of its hooks before and behind its text -/
  | frame (opening : List HookAction) (body : List Piece) (closing : List HookAction)

/-- what holds of every list of pieces, if a piece in front hands it on, and a frame does so from
the pieces inside it -/
theorem Piece.listInduction {P : List Piece → Prop} (nil : P []) (text : ∀ t xs, P xs → P (.text t :: xs))
    (ident : ∀ name xs, P xs → P (.ident name :: xs)) (literal : ∀ t xs, P xs → P (.literal t :: xs))
    (value : ∀ o xs, P xs → P (.value o :: xs)) (act : ∀ a xs, P xs → P (.act a :: xs))
    (stop : ∀ e xs, P xs → P (.stop e :: xs))
    (frame : ∀ opening body closing xs, P body → P xs → P (.frame opening body closing :: xs)) (xs : List Piece) :
    P xs :=
  @Piece.rec_1 (fun x => ∀ xs, P xs → P (x :: xs)) P text ident literal value act stop
    (fun opening body closing hbody xs => frame opening body closing xs hbody) nil (fun _ xs hx hxs => hx xs hxs) xs

/-- registers an occurrence of a parameter and writes its placeholder, if it has one -/
def Occurrence.play (d : Dialect) : Occurrence → Writing Unit
  | .constant v => do
    let name ← Writing.freshName
    let s ← get
    set (s.addParam name ⟨d.boundName name, v.dataType, .input, v, false⟩)
    Writing.placeholder d s.params.length
  | .param p direction placed => do
    let i ← Writing.register d p direction
    if placed then Writing.placeholder d i

mutual

def Piece.play (d : Dialect) : Piece → Writing Unit
  | .text t => Writing.emit t
  | .ident name => Writing.ident d name
  | .literal t => Writing.emit (Dialect.literal t)
  | .value o => o.play d
  | .act a => Writing.act d a
  | .stop e => throw e
  | .frame opening body closing => Writing.inFrame d do
    Writing.actAll d opening
    Piece.playAll d body
    Writing.actAll d closing

def Piece.playAll (d : Dialect) : List Piece → Writing Unit
  | [] => pure ()
  | x :: xs => do
    x.play d
    Piece.playAll d xs

end

namespace Piece

variable (d : Dialect)

@[simp] theorem playAll_nil : playAll d [] = pure () := rfl

@[simp] theorem playAll_cons (x : Piece) (xs : List Piece) : playAll d (x :: xs) = (do x.play d; playAll d xs) := rfl

@[simp] theorem playAll_append (xs ys : List Piece) : playAll d (xs ++ ys) = (do playAll d xs; playAll d ys) := by
  induction xs with
  | nil => simp
  | cons x xs ih => simp [ih]

@[simp] theorem play_text (t : String) : (Piece.text t).play d = Writing.emit t := rfl

@[simp] theorem play_ident (name : String) : (Piece.ident name).play d = Writing.ident d name := rfl

@[simp] theorem play_literal (t : String) : (Piece.literal t).play d = Writing.emit (Dialect.literal t) := rfl

@[simp] theorem play_value (o : Occurrence) : (Piece.value o).play d = o.play d := rfl

@[simp] theorem play_act (a : HookAction) : (Piece.act a).play d = Writing.act d a := rfl

@[simp] theorem play_stop (e : Error) : (Piece.stop e).play d = throw e := rfl

@[simp] theorem play_frame (opening closing : List HookAction) (body : List Piece) :
    (Piece.frame opening body closing).play d
      = Writing.inFrame d (do Writing.actAll d opening; playAll d body; Writing.actAll d closing) := rfl

end Piece

namespace Piece

/-- the piece of a result, or the fault it is -/
def ofResult {α : Type} (r : Result α) (pieces : α → List Piece) : List Piece :=
  match r with
  | .ok a => pieces a
  | .error e => [.stop e]

/-- pieces in parentheses, if asked for -/
def wrapped (wrap : Bool) (body : List Piece) : List Piece :=
  if wrap then .text "(" :: body ++ [.text ")"] else body

def asValue (d : Dialect) (c : Clause) (body : List Piece) : List Piece :=
  if c.isPredicate && !d.caps.booleanExpressions then
    .text "CASE WHEN " :: body ++ [.text " THEN 1 ELSE 0 END"]
  else body

def asOperand (d : Dialect) (c : Clause) (body : List Piece) : List Piece :=
  wrapped (c.isPredicate && d.caps.booleanExpressions) (asValue d c body)

/-- the pieces of several members with a separator between them -/
def separated (separator : String) : List (List Piece) → List Piece
  | [] => []
  | xs :: rest => xs ++ rest.flatMap (.text separator :: ·)

def qualifier : Option String → List Piece
  | none => []
  | some name => [.ident name, .text "."]

def table (t : TableRef) : List Piece := qualifier t.schema ++ [.ident t.name]

/-- the column that is assigned to, without its table -/
def columnName (d : Dialect) : Clause → List Piece
  | .field _ name => [.ident name]
  | c => [.stop (.render d.name (.notColumn c.kind))]

/-- the members of a FROM list behind the first or from the first on -/
def sources (d : Dialect) : Bool → List (Clause × List Piece) → List Piece
  | _, [] => []
  | first, (c, body) :: rest =>
    .text (Writing.sourceGap first c) :: asValue d c body ++ sources d false rest

def optional (keywords : String) : Option (List Piece) → List Piece
  | none => []
  | some body => .text keywords :: body

/-- values with commas between them, each given with its pieces -/
def values (d : Dialect) (separator : String) (members : List (Clause × List Piece)) : List Piece :=
  separated separator (members.map fun (c, body) => asValue d c body)

/-- a section behind its keywords, if it holds anything -/
def listed (d : Dialect) (keywords : String) (members : List (Clause × List Piece)) : List Piece :=
  if members.isEmpty then [] else .text keywords :: values d ", " members

/-- the tables of a select, or the table that the dialect puts where there is none -/
def fromSection (d : Dialect) (members : List (Clause × List Piece)) : List Piece :=
  if members.isEmpty then
    match d.dual with
    | some dual => [.text (" FROM " ++ dual)]
    | none => []
  else .text " FROM " :: sources d true members

/-- the fault of a row limit that the dialect cannot express -/
def limitFault (d : Dialect) : Option RowLimit → List Piece
  | none => []
  | some limit => ofResult (d.require limit.capability (limit.describe ++ " on select")) fun _ => []

def sequenceCall (sequence : String) : SequenceSpelling → List Piece
  | .phrase words => [.text (words ++ " "), .ident sequence]
  | .literal fn => [.text (fn ++ "("), .literal sequence, .text ")"]
  | .member fn => [.ident sequence, .text ("." ++ fn)]

def builtin (d : Dialect) : Builtin → List Piece
  | .currentDate => [.text d.builtins.currentDate]
  | .currentTimestamp => [.text d.builtins.currentTimestamp]
  | .lastId sequence =>
    match d.builtins.lastId, sequence with
    | .constant call, _ => [.text call]
    | .ofSequence _ spelling, some name => sequenceCall name spelling
    | .ofSequence (some call) _, none => [.text call]
    | .ofSequence none _, none => [.stop (.render d.name .sequenceNeeded)]
  | .nextId sequence =>
    ofResult (d.require .sequences "next-id") fun _ => sequenceCall sequence d.builtins.nextId

end Piece

open Piece (asValue asOperand)

mutual

/-- the pieces of a clause as it is -/
def Clause.pieces (d : Dialect) : Clause → List Piece
  | .field of name => Piece.qualifier of ++ [.ident name]
  | .allFields of => Piece.qualifier of ++ [.text "*"]
  | .constant v => if v.isNull then [.text "NULL"] else [.value (.constant v)]
  | .param p => [.value (.param p p.direction true)]
  | .compare left op right =>
    asOperand d left (left.pieces d) ++ .text (" " ++ op.sql ++ " ") :: asOperand d right (right.pieces d)
  | .isNull subject negated =>
    asOperand d subject (subject.pieces d) ++ [.text (if negated then " IS NOT NULL" else " IS NULL")]
  | .inList subject items negated =>
    if items.isEmpty then [.text (if negated then "1 = 1" else "1 = 0")] else
      asOperand d subject (subject.pieces d) ++ .text (if negated then " NOT IN (" else " IN (")
        :: Piece.values d ", " (Clause.piecesAll d items) ++ [.text ")"]
  | .between subject low high =>
    asOperand d subject (subject.pieces d) ++ .text " BETWEEN " :: asOperand d low (low.pieces d)
      ++ .text " AND " :: asOperand d high (high.pieces d)
  | .anyRow query => .text "EXISTS (" :: query.pieces d ++ [.text ")"]
  | .logic left op right =>
    Piece.wrapped (Writing.mixes op left) (left.pieces d) ++ .text (" " ++ op.sql ++ " ")
      :: Piece.wrapped (Writing.mixes op right) (right.pieces d)
  | .not inner => .text "NOT (" :: inner.pieces d ++ [.text ")"]
  | .aggregate fn none distinct =>
    [.text (fn.sql ++ "(" ++ (if distinct then "DISTINCT " else "")), .text "*)"]
  | .aggregate fn (some arg) distinct =>
    .text (fn.sql ++ "(" ++ (if distinct then "DISTINCT " else "")) :: asValue d arg (arg.pieces d) ++ [.text ")"]
  | .function name args => .text (name ++ "(") :: Piece.values d ", " (Clause.piecesAll d args) ++ [.text ")"]
  | .builtin fn => Piece.builtin d fn
  | .concat parts =>
    .text d.concat.before
      :: Piece.separated d.concat.between ((Clause.piecesAll d parts).map fun (c, body) => asOperand d c body)
      ++ [.text d.concat.after]
  | .cast subject type => Piece.ofResult (d.nativeType type) fun name =>
    .text "CAST(" :: asValue d subject (subject.pieces d) ++ [.text (" AS " ++ name ++ ")")]
  | .calc left op right =>
    Piece.wrapped (Writing.bindsLooser op left) (asValue d left (left.pieces d)) ++ .text (" " ++ op.sql ++ " ")
      :: Piece.wrapped (Writing.isCalc right) (asValue d right (right.pieces d))
  | .aliased subject name =>
    asValue d subject (subject.pieces d)
      ++ [.text (if subject.isTableLike && !d.tableAliasAs then " " else " AS "), .ident name]
  | .table ref => Piece.table ref
  | .join kind target condition =>
    .text (kind.sql ++ " ") :: asValue d target (target.pieces d) ++ .text " ON " :: condition.pieces d
  | .order subject direction =>
    asValue d subject (subject.pieces d) ++ [.text (if direction = .descending then " DESC" else "")]
  | .assign target value => Piece.columnName d target ++ .text " = " :: asValue d value (value.pieces d)
  | .subQuery query => .text "(" :: query.pieces d ++ [.text ")"]

def Clause.piecesAll (d : Dialect) : List Clause → List (Clause × List Piece)
  | [] => []
  | c :: cs => (c, c.pieces d) :: Clause.piecesAll d cs

def Clause.piecesOption (d : Dialect) : Option Clause → Option (List Piece)
  | none => none
  | some c => some (c.pieces d)

def Select.pieces (d : Dialect) : Select → List Piece
  | s@(.mk distinct limit fields tables filter groupBy having orderBy) =>
    Piece.limitFault d limit ++ [.frame (d.hooks.opening s)
      (.text "SELECT " :: .text (if distinct then "DISTINCT " else "")
        :: (d.hooks.heading s).map .act
        ++ (if fields.isEmpty then [.text "*"] else Piece.values d ", " (Clause.piecesAll d fields))
        ++ Piece.fromSection d (Clause.piecesAll d tables)
        ++ Piece.optional " WHERE " (Clause.piecesOption d filter)
        ++ Piece.listed d " GROUP BY " (Clause.piecesAll d groupBy)
        ++ Piece.optional " HAVING " (Clause.piecesOption d having)
        ++ Piece.listed d " ORDER BY " (Clause.piecesAll d orderBy)
        ++ (d.hooks.trailing s).map .act)
      (d.hooks.closing s)]

end

/-- the pieces inside the frame of a select -/
def Select.inner (d : Dialect) (s : Select) : List Piece :=
  .text "SELECT " :: .text (if s.distinct then "DISTINCT " else "")
    :: (d.hooks.heading s).map .act
    ++ (if s.fields.isEmpty then [.text "*"] else Piece.values d ", " (Clause.piecesAll d s.fields))
    ++ Piece.fromSection d (Clause.piecesAll d s.sources)
    ++ Piece.optional " WHERE " (Clause.piecesOption d s.filter)
    ++ Piece.listed d " GROUP BY " (Clause.piecesAll d s.groupBy)
    ++ Piece.optional " HAVING " (Clause.piecesOption d s.having)
    ++ Piece.listed d " ORDER BY " (Clause.piecesAll d s.orderBy)
    ++ (d.hooks.trailing s).map .act

theorem Select.pieces_eq (d : Dialect) (s : Select) :
    s.pieces d = Piece.limitFault d s.limit ++ [.frame (d.hooks.opening s) (s.inner d) (d.hooks.closing s)] := by
  cases s
  rfl

namespace Piece

def filter (d : Dialect) (predicate : Option Clause) : List Piece :=
  optional " WHERE " (Clause.piecesOption d predicate)

/-- clauses where values are expected, with a separator between them -/
def list (d : Dialect) (separator : String) (cs : List Clause) : List Piece :=
  values d separator (Clause.piecesAll d cs)

def insert (d : Dialect) (i : Insert) : List Piece :=
  .text "INSERT INTO " :: table i.table
    ++ (if i.columns.isEmpty then [] else
      .text " (" :: separated ", " (i.columns.map (columnName d)) ++ [.text ")"])
    ++ match i.source with
      | some query => .text " " :: query.pieces d
      | none => .text " VALUES (" :: list d ", " i.values ++ [.text ")"]

def update (d : Dialect) (u : Update) : List Piece :=
  .text "UPDATE " :: table u.table ++ .text " SET " :: list d ", " u.assignments ++ filter d u.filter

def delete (d : Dialect) (s : Delete) : List Piece :=
  .text "DELETE FROM " :: table s.table ++ filter d s.filter

def columnDef (d : Dialect) (c : ColumnDef) : List Piece :=
  .ident c.name :: .text " "
    :: ofResult (d.nativeType c.type) fun name => [.text (name ++ (if c.nullable then "" else " NOT NULL"))]

/-- a condition on the existence of a table, if there is one -/
def existence (d : Dialect) (asked : Bool) (context words : String) : List Piece :=
  if asked then ofResult (d.require .existenceCheck context) fun _ => [.text words] else []

def createTable (d : Dialect) (t : CreateTable) : List Piece :=
  .text "CREATE TABLE " :: existence d t.ifNotExists "create table if not exists" "IF NOT EXISTS "
    ++ table t.table ++ .text " (" :: separated ", " (t.columns.map (columnDef d))
    ++ (if (t.columns.filter (·.primaryKey)).isEmpty then [] else
      .text ", PRIMARY KEY (" :: separated ", " ((t.columns.filter (·.primaryKey)).map fun c => [.ident c.name])
        ++ [.text ")"])
    ++ [.text ")"]

def dropTable (d : Dialect) (t : DropTable) : List Piece :=
  .text "DROP TABLE " :: existence d t.ifExists "drop table if exists" "IF EXISTS " ++ table t.table

/-- the parameter that receives a result, with its placeholder and what assigns to it -/
def receiver (assignment : String) : Option Parameter → List Piece
  | none => []
  | some p => [.value (.param p .result true), .text assignment]

/-- an argument of a call without parentheses -/
def bareArg (d : Dialect) (c : Clause) : List Piece :=
  asValue d c (c.pieces d) ++ [.text (if Writing.isOutputArg c then " OUTPUT" else "")]

def routineCall (d : Dialect) (e : Exec) : List Piece :=
  table (.ofName e.routine) ++ .text "(" :: list d ", " e.args ++ [.text ")"]

/-- a call; `inside` says that it stands in a script -/
def exec (d : Dialect) (inside : Bool) (e : Exec) : List Piece :=
  match d.calls with
  | .call => .text (if e.returns.isSome then "SELECT " else "CALL ") :: routineCall d e
    ++ match e.returns with
      | none => []
      | some p => [.value (.param p .result false)]
  | .exec => .text "EXEC " :: receiver " = " e.returns ++ table (.ofName e.routine)
    ++ .text (if e.args.isEmpty then "" else " ") :: separated ", " (e.args.map (bareArg d))
  | .block => .text (if inside then "" else "BEGIN ") :: receiver " := " e.returns ++ routineCall d e
    ++ [.text (if inside then "" else "; END;")]

end Piece

/-- the pieces of a statement; `inside` says that it stands in a script -/
def Statement.pieces (d : Dialect) (inside : Bool) : Statement → List Piece
  | .select s => s.pieces d
  | .insert i => Piece.insert d i
  | .update u => Piece.update d u
  | .delete s => Piece.delete d s
  | .exec e => Piece.exec d inside e
  | .createTable t => Piece.createTable d t
  | .dropTable t => Piece.dropTable d t

namespace Piece

def sequence (d : Dialect) (members : List Statement) : List Piece :=
  separated "\n" (members.map fun s => s.pieces d true ++ [.text ";"])

/-- the members of a block, `n` cursors being open before them -/
def blockMembers (d : Dialect) : Nat → List Statement → List Piece
  | _, [] => []
  | n, s :: rest =>
    if s.givesRows then
      .text ("OPEN " ++ ("c" ++ Decimal.ofNat (n + 1)) ++ " FOR ") :: s.pieces d true
        ++ .text (";\nDBMS_SQL.RETURN_RESULT(" ++ ("c" ++ Decimal.ofNat (n + 1)) ++ ");\n")
          :: blockMembers d (n + 1) rest
    else
      (if s.isDefinition then
        ofResult (Writing.standaloneText d s) fun t => [.text "EXECUTE IMMEDIATE ", .literal t, .text ";\n"]
      else s.pieces d true ++ [.text ";\n"]) ++ blockMembers d n rest

def block (d : Dialect) (members : List Statement) : List Piece :=
  .text (Writing.cursorDeclarations (members.filter Statement.givesRows).length) :: .text "BEGIN\n"
    :: blockMembers d 0 members ++ [.text "END;"]

end Piece

def Query.pieces (d : Dialect) : Query → List Piece
  | .single s => s.pieces d false
  | .script members => Piece.ofResult (d.require .scripts "script") fun _ =>
    match d.scripts with
    | .sequence => Piece.sequence d members
    | .block => Piece.block d members

end SqlTree
