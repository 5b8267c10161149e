/-
Statements written as documents.

Each clause and each statement becomes an element. A parameter is written in full where it occurs first, under a number
of its own, and by this number where it occurs again. The values of feeds cannot be written, only that there is one.
-/
import SqlTree.Document
import SqlTree.Statement

namespace SqlTree

/-- writing elements, with the identities of the parameters written so far, in order -/
abbrev Encoding := StateM (List Nat)

namespace Encoding

/-- the number of a parameter, and whether it occurs for the first time -/
def reference (id : Nat) : Encoding (Nat × Bool) := do
  let known ← get
  match known.idxOf? id with
  | some i => return (i + 1, false)
  | none =>
    set (known ++ [id])
    return (known.length + 1, true)

/-- the attributes of a parameter that is written in full -/
def described (e : Element) (p : Parameter) : Element :=
  let e := (e.withAttr? "name" p.name).withAttr? "type" (p.type.map DataType.tag)
  let e := if p.direction = .input then e else e.withAttr "direction" p.direction.name
  match p.source with
  | .fixed v => e.withValue v
  | .deferred _ => e.withFlag "deferred" true

def param (p : Parameter) : Encoding Element := do
  let (n, first) ← reference p.id
  let e : Element := { name := ClauseKind.param.name, attrs := [("ref", Decimal.ofNat n)] }
  return if first then described e p else e

def withTable (e : Element) (t : TableRef) : Element :=
  (e.withAttr "table" t.name).withAttr? "schema" t.schema

def builtin (fn : Builtin) : Element :=
  let e : Element := { name := ClauseKind.builtin.name, attrs := [("fn", fn.name)] }
  match fn with
  | .currentDate | .currentTimestamp => e
  | .lastId sequence => e.withAttr? "sequence" sequence
  | .nextId sequence => e.withAttr "sequence" sequence

def element (kind : ClauseKind) : Element := { name := kind.name }

/-- the element of a section, if the section holds anything -/
def container (kind : SectionKind) (items : List Element) : List Element :=
  if items.isEmpty then [] else [{ name := kind.name, children := items }]

def withLimit (e : Element) : Option RowLimit → Element
  | none => e
  | some (.first n) => e.withAttr "top" (Decimal.ofUInt64 n)
  | some (.range offset count) =>
    (e.withAttr "offset" (Decimal.ofUInt64 offset)).withAttr "count" (Decimal.ofUInt64 count)

mutual

def clause : Clause → Encoding Element
  | .field of name => return ((element .field).withAttr "name" name).withAttr? "table" of
  | .allFields of => return (element .allFields).withAttr? "table" of
  | .constant v => return (element .constant).withValue v
  | .param p => param p
  | .compare left op right => do
    let l ← clause left
    let r ← clause right
    return ((element .compare).withAttr "op" op.name).withChildren [l, r]
  | .isNull subject negated => do
    let c ← clause subject
    return ((element .isNull).withFlag "negated" negated).withChildren [c]
  | .inList subject items negated => do
    let c ← clause subject
    let cs ← clauses items
    return ((element .inList).withFlag "negated" negated).withChildren (c :: cs)
  | .between subject low high => do
    let c ← clause subject
    let l ← clause low
    let h ← clause high
    return (element .between).withChildren [c, l, h]
  | .anyRow query => do
    let q ← select query
    return (element .anyRow).withChildren [q]
  | .logic left op right => do
    let l ← clause left
    let r ← clause right
    return ((element .logic).withAttr "op" op.name).withChildren [l, r]
  | .not inner => do
    let c ← clause inner
    return (element .not).withChildren [c]
  | .aggregate fn none distinct =>
    return ((element .aggregate).withAttr "func" fn.name).withFlag "distinct" distinct
  | .aggregate fn (some arg) distinct => do
    let c ← clause arg
    return (((element .aggregate).withAttr "func" fn.name).withFlag "distinct" distinct).withChildren [c]
  | .function name args => do
    let cs ← clauses args
    return ((element .function).withAttr "name" name).withChildren cs
  | .builtin fn => return builtin fn
  | .concat parts => do
    let cs ← clauses parts
    return (element .concat).withChildren cs
  | .cast subject type => do
    let c ← clause subject
    return ((element .cast).withAttr "type" type.tag).withChildren [c]
  | .calc left op right => do
    let l ← clause left
    let r ← clause right
    return ((element .calc).withAttr "op" op.name).withChildren [l, r]
  | .aliased subject name => do
    let c ← clause subject
    return ((element .aliased).withAttr "alias" name).withChildren [c]
  | .table ref => return withTable (element .table) ref
  | .join kind target condition => do
    let t ← clause target
    let c ← clause condition
    return ((element .join).withAttr "kind" kind.name).withChildren [t, c]
  | .order subject direction => do
    let c ← clause subject
    return ((element .order).withAttr "direction" direction.name).withChildren [c]
  | .assign target value => do
    let t ← clause target
    let v ← clause value
    return (element .assign).withChildren [t, v]
  | .subQuery query => do
    let q ← select query
    return (element .subQuery).withChildren [q]

def clauses : List Clause → Encoding (List Element)
  | [] => return []
  | c :: cs => do
    let e ← clause c
    let es ← clauses cs
    return e :: es

def optional : Option Clause → Encoding (List Element)
  | none => return []
  | some c => do
    let e ← clause c
    return [e]

def select : Select → Encoding Element
  | .mk distinct limit fields sources filter groupBy having orderBy => do
    let f ← clauses fields
    let s ← clauses sources
    let w ← optional filter
    let g ← clauses groupBy
    let h ← optional having
    let o ← clauses orderBy
    let e : Element := { name := StatementKind.select.name }
    return (withLimit (e.withFlag "distinct" distinct) limit).withChildren
      (container .fields f ++ container .sources s ++ container .filter w ++ container .groupBy g
        ++ container .having h ++ container .orderBy o)

end

def columnDef (c : ColumnDef) : Element :=
  let e : Element := { name := "column" }
  (((e.withAttr "name" c.name).withAttr "type" c.type.tag).withAttr "nullable" (Value.boolText c.nullable)).withFlag
    "primary-key" c.primaryKey

def statement : Statement → Encoding Element
  | .select s => select s
  | .insert i => do
    let columns ← clauses i.columns
    let values ← clauses i.values
    let source ← match i.source with
      | none => pure []
      | some s => do
        let q ← select s
        pure [{ name := "source", children := [q] }]
    return (withTable { name := StatementKind.insert.name } i.table).withChildren
      (container .columns columns ++ container .values values ++ source)
  | .update u => do
    let assignments ← clauses u.assignments
    let filter ← optional u.filter
    return (withTable { name := StatementKind.update.name } u.table).withChildren
      (container .assignments assignments ++ container .filter filter)
  | .delete d => do
    let filter ← optional d.filter
    return (withTable { name := StatementKind.delete.name } d.table).withChildren (container .filter filter)
  | .exec x => do
    let returns ← match x.returns with
      | none => pure []
      | some p => do
        let e ← param p
        pure [{ name := "returns", children := [e] }]
    let args ← clauses x.args
    let e : Element := { name := StatementKind.exec.name, attrs := [("routine", x.routine)] }
    return e.withChildren (returns ++ if args.isEmpty then [] else [{ name := "args", children := args }])
  | .createTable t =>
    let e := withTable { name := StatementKind.createTable.name } t.table
    return (e.withFlag "if-not-exists" t.ifNotExists).withChildren (t.columns.map columnDef)
  | .dropTable t =>
    return (withTable { name := StatementKind.dropTable.name } t.table).withFlag "if-exists" t.ifExists

def query : Query → Encoding Element
  | .single s => statement s
  | .script members => do
    let es ← members.mapM statement
    return { name := StatementKind.script.name, children := es }

/-- the element of a section under construction, also when it holds nothing -/
def ofSection (s : Section) : Encoding Element := do
  let es ← clauses s.items
  return { name := s.kind.name, children := es }

end Encoding

def Query.toDocument (q : Query) : Element := ((Encoding.query q).run []).1

def Clause.toDocument (c : Clause) : Element := ((Encoding.clause c).run []).1

end SqlTree
