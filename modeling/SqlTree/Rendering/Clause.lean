/-
Writing clauses and selects.

`node` writes a clause as it is; where a value is expected, `asValue` turns a predicate into a number on dialects that
have no truth values, and `asOperand` puts it in parentheses on those that have. The connectives and the arithmetic
operators add the parentheses that keep the grouping of the tree.
-/
import SqlTree.Rendering.Binding

namespace SqlTree.Writing

/-- writes something in parentheses, if asked to -/
def wrapped (wrap : Bool) (body : Writing Unit) : Writing Unit :=
  if wrap then do
    emit "("
    body
    emit ")"
  else body

/-- writes a clause where a value is expected -/
def asValue (d : Dialect) (c : Clause) (body : Writing Unit) : Writing Unit :=
  if c.isPredicate && !d.caps.booleanExpressions then do
    emit "CASE WHEN "
    body
    emit " THEN 1 ELSE 0 END"
  else body

/-- writes a clause as an operand of a comparison, of a list or of a concatenation -/
def asOperand (d : Dialect) (c : Clause) (body : Writing Unit) : Writing Unit :=
  wrapped (c.isPredicate && d.caps.booleanExpressions) (asValue d c body)

/-- whether a side of a connective is joined by the other one -/
def mixes (op : Connective) : Clause → Bool
  | .logic _ inner _ => inner != op
  | _ => false

/-- whether a clause is arithmetic that binds less tightly than an operator -/
def bindsLooser (op : Arithmetic) : Clause → Bool
  | .calc _ inner _ => inner.precedence < op.precedence
  | _ => false

def isCalc : Clause → Bool
  | .calc .. => true
  | _ => false

/-- writes the column that is assigned to, without its table -/
def columnName (d : Dialect) : Clause → Writing Unit
  | .field _ name => ident d name
  | c => fail d (.notColumn c.kind)

/-- writes values with a separator between them -/
def values (d : Dialect) (separator : String) (cs : List Clause) (bodies : List (Writing Unit)) : Writing Unit :=
  separated separator (List.zipWith (asValue d) cs bodies)

/-- what stands before a member of a FROM list -/
def sourceGap (first : Bool) : Clause → String
  | .join .. => " "
  | _ => if first then "" else ", "

/-- writes tables with commas between them, and joins -/
def sources (d : Dialect) : Bool → List Clause → List (Writing Unit) → Writing Unit
  | first, c :: cs, body :: bodies => do
    emit (sourceGap first c)
    asValue d c body
    sources d false cs bodies
  | _, _, _ => pure ()

/-- writes a section that may be absent, behind its keywords -/
def optional (keywords : String) : Option (Writing Unit) → Writing Unit
  | none => pure ()
  | some body => do
    emit keywords
    body

/-- writes a section behind its keywords, if it holds anything -/
def listed (d : Dialect) (keywords : String) (cs : List Clause) (bodies : List (Writing Unit)) : Writing Unit :=
  if cs.isEmpty then pure () else do
    emit keywords
    values d ", " cs bodies

/-- writes the tables of a select, or the table that the dialect puts where there is none -/
def fromSection (d : Dialect) (cs : List Clause) (bodies : List (Writing Unit)) : Writing Unit :=
  if cs.isEmpty then
    match d.dual with
    | some dual => emit (" FROM " ++ dual)
    | none => pure ()
  else do
    emit " FROM "
    sources d true cs bodies

/-- a row limit is one that the dialect can express -/
def requireLimit (d : Dialect) : Option RowLimit → Writing Unit
  | none => pure ()
  | some limit => ofResult (d.require limit.capability (limit.describe ++ " on select"))

mutual

/-- writes a clause as it is -/
def node (d : Dialect) : Clause → Writing Unit
  | .field of name => do
    qualifier d of
    ident d name
  | .allFields of => do
    qualifier d of
    emit "*"
  | .constant v => literal d v
  | .param p => bind d p
  | .compare left op right => do
    asOperand d left (node d left)
    emit (" " ++ op.sql ++ " ")
    asOperand d right (node d right)
  | .isNull subject negated => do
    asOperand d subject (node d subject)
    emit (if negated then " IS NOT NULL" else " IS NULL")
  | .inList subject items negated =>
    if items.isEmpty then emit (if negated then "1 = 1" else "1 = 0") else do
      asOperand d subject (node d subject)
      emit (if negated then " NOT IN (" else " IN (")
      values d ", " items (nodes d items)
      emit ")"
  | .between subject low high => do
    asOperand d subject (node d subject)
    emit " BETWEEN "
    asOperand d low (node d low)
    emit " AND "
    asOperand d high (node d high)
  | .anyRow query => do
    emit "EXISTS ("
    select d query
    emit ")"
  | .logic left op right => do
    wrapped (mixes op left) (node d left)
    emit (" " ++ op.sql ++ " ")
    wrapped (mixes op right) (node d right)
  | .not inner => do
    emit "NOT ("
    node d inner
    emit ")"
  | .aggregate fn none distinct => do
    emit (fn.sql ++ "(" ++ (if distinct then "DISTINCT " else ""))
    emit "*)"
  | .aggregate fn (some arg) distinct => do
    emit (fn.sql ++ "(" ++ (if distinct then "DISTINCT " else ""))
    asValue d arg (node d arg)
    emit ")"
  | .function name args => do
    emit (name ++ "(")
    values d ", " args (nodes d args)
    emit ")"
  | .builtin fn => do
    let call ← ofResult (d.builtinCall fn)
    emit call
  | .concat parts => do
    emit d.concat.before
    separated d.concat.between (List.zipWith (asOperand d) parts (nodes d parts))
    emit d.concat.after
  | .cast subject type => do
    let name ← ofResult (d.nativeType type)
    emit "CAST("
    asValue d subject (node d subject)
    emit (" AS " ++ name ++ ")")
  | .calc left op right => do
    wrapped (bindsLooser op left) (asValue d left (node d left))
    emit (" " ++ op.sql ++ " ")
    wrapped (isCalc right) (asValue d right (node d right))
  | .aliased subject name => do
    asValue d subject (node d subject)
    emit (if subject.isTableLike && !d.tableAliasAs then " " else " AS ")
    ident d name
  | .table ref => table d ref
  | .join kind target condition => do
    emit (kind.sql ++ " ")
    asValue d target (node d target)
    emit " ON "
    node d condition
  | .order subject direction => do
    asValue d subject (node d subject)
    emit (if direction = .descending then " DESC" else "")
  | .assign target value => do
    columnName d target
    emit " = "
    asValue d value (node d value)
  | .subQuery query => do
    emit "("
    select d query
    emit ")"

/-- how each clause of a list is written -/
def nodes (d : Dialect) : List Clause → List (Writing Unit)
  | [] => []
  | c :: cs => node d c :: nodes d cs

def nodeOption (d : Dialect) : Option Clause → Option (Writing Unit)
  | none => none
  | some c => some (node d c)

def select (d : Dialect) : Select → Writing Unit
  | s@(.mk distinct limit fields tables filter groupBy having orderBy) => do
    requireLimit d limit
    inFrame d do
      actAll d (d.hooks.opening s)
      emit "SELECT "
      emit (if distinct then "DISTINCT " else "")
      actAll d (d.hooks.heading s)
      if fields.isEmpty then emit "*" else values d ", " fields (nodes d fields)
      fromSection d tables (nodes d tables)
      optional " WHERE " (nodeOption d filter)
      listed d " GROUP BY " groupBy (nodes d groupBy)
      optional " HAVING " (nodeOption d having)
      listed d " ORDER BY " orderBy (nodes d orderBy)
      actAll d (d.hooks.trailing s)
      actAll d (d.hooks.closing s)

end

/-- Every clause of a list is written as it is by itself. -/
theorem nodes_eq_map (d : Dialect) (cs : List Clause) : nodes d cs = cs.map (node d) := by
  induction cs with
  | nil => rfl
  | cons c cs ih => rw [nodes, ih, List.map_cons]

/-- writes a clause where a value is expected -/
def clause (d : Dialect) (c : Clause) : Writing Unit := asValue d c (node d c)

/-- writes clauses where values are expected, with a separator between them -/
def list (d : Dialect) (separator : String) (cs : List Clause) : Writing Unit :=
  values d separator cs (nodes d cs)

end SqlTree.Writing
