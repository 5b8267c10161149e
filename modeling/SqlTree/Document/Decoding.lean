/-
Statements read from documents.

An element is read by what the registry says its name means. What stands in its attributes is read first, then its
children, then what depends on both. A parameter is known by its number from the first element on that describes it.
Sections are filled clause by clause under the same rules as when they are built.
-/
import SqlTree.DataType.Tag
import SqlTree.Document
import SqlTree.Statement

namespace SqlTree

structure KnownParams where
  byRef : Keyed Parameter := []
  /-- the identity of the next parameter -/
  nextId : Nat := 0

abbrev Decoding := StateT KnownParams Result

/-- how a clause comes about once the attributes of its element are read -/
inductive ClausePlan where
  /-- it is complete, whatever the children -/
  | complete (c : Clause)
  /-- from the clauses that the children are -/
  | ofClauses (build : List Clause → Result Clause)
  /-- from the select that the only child is -/
  | ofSelect (build : Select → Clause)

namespace Decoding

def ofResult {α : Type} (r : Result α) : Decoding α := StateT.lift r

def tableOf (e : Element) : Result TableRef := do
  return ⟨e.attr? "schema", ← e.require "table"⟩

def typeOf (e : Element) : Result DataType := e.required "type" DataType.ofTag?

/-- the parameter that an element describes; what a feed would give is not known and stays null -/
def describedParam (e : Element) (id : Nat) : Result Parameter := do
  let direction ← e.allowed "direction" Direction.ofName?
  let deferred ← e.flag "deferred"
  let value ← if deferred then pure Value.null else e.value
  let type ← e.allowed "type" DataType.ofTag?
  return ⟨id, e.attr? "name", type, direction.getD .input, .fixed value⟩

/-- the parameter that an element describes or refers to -/
def param (e : Element) : Decoding Parameter := do
  let ref ← ofResult (e.require "ref")
  let known ← get
  match known.byRef.find? ref with
  | some p => return p
  | none =>
    if (e.attr? "kind").isNone && (e.attr? "deferred").isNone then
      ofResult (e.fail (.undefinedReference ref))
    let p ← ofResult (describedParam e known.nextId)
    set ({ byRef := known.byRef.insert ref p, nextId := known.nextId + 1 } : KnownParams)
    return p

def builtinOf (e : Element) : Result Builtin := do
  match ← e.require "fn" with
  | "current-date" => return .currentDate
  | "current-timestamp" => return .currentTimestamp
  | "last-id" => return .lastId (e.attr? "sequence")
  | "next-id" => return .nextId (← e.require "sequence")
  | other => e.fail (.malformed "fn" other)

def requirePredicate (e : Element) (c : Clause) : Result Unit :=
  if c.isPredicate then .ok () else e.fail (.operandNotPredicate c.kind)

/-- a clause from the only child -/
def fromOne (e : Element) (build : Clause → Result Clause) : Result ClausePlan := do
  e.requireChildren 1
  return .ofClauses fun
    | [c] => build c
    | cs => e.fail (.childCount 1 cs.length)

def fromTwo (e : Element) (build : Clause → Clause → Result Clause) : Result ClausePlan := do
  e.requireChildren 2
  return .ofClauses fun
    | [c, c'] => build c c'
    | cs => e.fail (.childCount 2 cs.length)

def fromThree (e : Element) (build : Clause → Clause → Clause → Clause) : Result ClausePlan := do
  e.requireChildren 3
  return .ofClauses fun
    | [c, c', c''] => .ok (build c c' c'')
    | cs => e.fail (.childCount 3 cs.length)

/-- a clause from the select that is the only child -/
def fromSelect (e : Element) (build : Select → Clause) : Result ClausePlan := do
  e.requireChildren 1
  return .ofSelect build

/-- how the clause of an element comes about, parameters apart -/
def plan (e : Element) : ClauseKind → Result ClausePlan
  | .field => return .complete (.field (e.attr? "table") (← e.require "name"))
  | .allFields => return .complete (.allFields (e.attr? "table"))
  | .constant => return .complete (.constant (← e.value))
  | .param => e.fail .unknownClause
  | .compare => do
    let op ← e.required "op" Comparison.ofName?
    fromTwo e fun l r => return .compare l op r
  | .isNull => fromOne e fun c => return .isNull c (← e.flag "negated")
  | .inList => do
    if e.children.isEmpty then
      e.fail .missingSubject
    return .ofClauses fun
      | c :: cs => return .inList c cs (← e.flag "negated")
      | [] => e.fail .missingSubject
  | .between => fromThree e .between
  | .anyRow => fromSelect e .anyRow
  | .logic => do
    let op ← e.required "op" Connective.ofName?
    fromTwo e fun l r => do
      requirePredicate e l
      requirePredicate e r
      return .logic l op r
  | .not => fromOne e fun c => return .not c
  | .aggregate => do
    let fn ← e.required "func" Aggregate.ofName?
    if e.children.length > 1 then
      e.fail .severalArguments
    return .ofClauses fun cs => return .aggregate fn cs.head? (← e.flag "distinct")
  | .function => do
    let name ← e.require "name"
    return .ofClauses fun cs => return .function name cs
  | .builtin => return .complete (.builtin (← builtinOf e))
  | .concat => return .ofClauses fun cs => return .concat cs
  | .cast => do
    let type ← typeOf e
    fromOne e fun c => return .cast c type
  | .calc => do
    let op ← e.required "op" Arithmetic.ofName?
    fromTwo e fun l r => return .calc l op r
  | .aliased => do
    let name ← e.require "alias"
    fromOne e fun c =>
      if c.isAliasable then return .aliased c name else e.fail (.misbuilt (.notAliasable c.kind name))
  | .table => return .complete (.table (← tableOf e))
  | .join => do
    let kind ← e.required "kind" JoinKind.ofName?
    fromTwo e fun t c => return .join kind t c
  | .order => do
    let direction ← e.allowed "direction" SortOrder.ofName?
    fromOne e fun c => return .order c (direction.getD .ascending)
  | .assign => fromTwo e fun t v => return .assign t v
  | .subQuery => fromSelect e .subQuery

def limitOf (e : Element) : Result (Option RowLimit) := do
  let top ← e.allowed "top" Decimal.uint64?
  let offset ← e.allowed "offset" Decimal.uint64?
  let count ← e.allowed "count" Decimal.uint64?
  match top, offset, count with
  | none, none, none => return none
  | some n, none, none => return some (.first n)
  | none, some offset, some count => return some (.range offset count)
  | _, _, _ => e.fail .incompleteRowLimit

/-- the select that a query is; `e` is the element it was read from -/
def asSelect (e : Element) : Query → Result Select
  | .single (.select s) => .ok s
  | q => e.fail (.notSelect q.kind)

def push (e : Element) (s : Section) (c : Clause) : Result Section :=
  match s.apply (.push c) with
  | .ok s => .ok s
  | .error (.construction fault) => e.fail (.misbuilt fault)
  | .error other => .error other

/-- the rules for a statement as a whole; `e` is the element it was read from -/
def checked (e : Element) (r : Result Unit) : Result Unit :=
  match r with
  | .error (.construction fault) => e.fail (.incomplete fault)
  | r => r

/-- whether a column may hold null, as it may unless the element says no -/
def nullableOf (e : Element) : Result Bool :=
  match e.attr? "nullable" with
  | none => .ok true
  | some "true" => .ok true
  | some "false" => .ok false
  | some other => e.fail (.malformed "nullable" other)

def columnDef (e : Element) : Result ColumnDef := do
  if e.name ≠ "column" then
    e.fail .columnExpected
  let type ← typeOf e
  let nullable ← nullableOf e
  let name ← e.require "name"
  return ⟨name, type, nullable, ← e.flag "primary-key"⟩

mutual

def clause (r : Registry) : Element → Decoding Clause
  | ⟨name, attrs, children⟩ => do
    let e : Element := ⟨name, attrs, children⟩
    match r.clauses.find? name with
    | none => ofResult (e.fail .unknownClause)
    | some .param => return .param (← param e)
    | some kind =>
      match ← ofResult (plan e kind) with
      | .complete c => return c
      | .ofClauses build => do
        let cs ← clauses r children
        ofResult (build cs)
      | .ofSelect build =>
        match children with
        | [child] => do
          let q ← query r child
          return build (← ofResult (asSelect child q))
        | _ => ofResult (e.fail (.childCount 1 children.length))

def clauses (r : Registry) : List Element → Decoding (List Clause)
  | [] => return []
  | e :: es => do
    let c ← clause r e
    let cs ← clauses r es
    return c :: cs

/-- a section with the clauses of a list of elements added -/
def filled (r : Registry) (s : Section) : List Element → Decoding Section
  | [] => return s
  | e :: es => do
    let c ← clause r e
    let s ← ofResult (push e s c)
    filled r s es

/-- the clauses of a section: those in the first element of its name -/
def sectionItems (r : Registry) (kind : SectionKind) : List Element → Decoding (List Clause)
  | [] => return []
  | ⟨name, _, children⟩ :: rest =>
    if name = kind.name then do
      let s ← filled r (.empty kind) children
      return s.items
    else sectionItems r kind rest

/-- the select in the first element named as the source of an insert -/
def sourceOf (r : Registry) : List Element → Decoding (Option Select)
  | [] => return none
  | ⟨name, attrs, children⟩ :: rest =>
    if name = "source" then
      match children with
      | [child] => do
        let q ← query r child
        return some (← ofResult (asSelect child q))
      | _ => ofResult (Element.fail ⟨name, attrs, children⟩ (.childCount 1 children.length))
    else sourceOf r rest

/-- the parameter in the first element named as the receiver of a result -/
def returnsOf (r : Registry) : List Element → Decoding (Option Parameter)
  | [] => return none
  | ⟨name, attrs, children⟩ :: rest =>
    if name = "returns" then
      match children with
      | [child] => do
        match ← clause r child with
        | .param p => return some p
        | c => ofResult (Element.fail ⟨name, attrs, children⟩ (.notParam c.kind))
      | _ => ofResult (Element.fail ⟨name, attrs, children⟩ (.childCount 1 children.length))
    else returnsOf r rest

def argsOf (r : Registry) : List Element → Decoding (List Clause)
  | [] => return []
  | ⟨name, _, children⟩ :: rest => if name = "args" then clauses r children else argsOf r rest

def query (r : Registry) : Element → Decoding Query
  | ⟨name, attrs, children⟩ => do
    let e : Element := ⟨name, attrs, children⟩
    match r.statements.find? name with
    | none => ofResult (e.fail .unknownStatement)
    | some .select => do
      let limit ← ofResult (limitOf e)
      let distinct ← ofResult (e.flag "distinct")
      let fields ← sectionItems r .fields children
      let sources ← sectionItems r .sources children
      let filter ← sectionItems r .filter children
      let groupBy ← sectionItems r .groupBy children
      let having ← sectionItems r .having children
      let orderBy ← sectionItems r .orderBy children
      return .single (.select (.mk distinct limit fields sources filter.head? groupBy having.head? orderBy))
    | some .insert => do
      let table ← ofResult (tableOf e)
      let columns ← sectionItems r .columns children
      let values ← sectionItems r .values children
      let source ← sourceOf r children
      let i : Insert := ⟨table, columns, values, source⟩
      ofResult (checked e i.check)
      return .single (.insert i)
    | some .update => do
      let table ← ofResult (tableOf e)
      let assignments ← sectionItems r .assignments children
      let filter ← sectionItems r .filter children
      let u : Update := ⟨table, assignments, filter.head?⟩
      ofResult (checked e u.check)
      return .single (.update u)
    | some .delete => do
      let table ← ofResult (tableOf e)
      let filter ← sectionItems r .filter children
      return .single (.delete ⟨table, filter.head?⟩)
    | some .exec => do
      let returns ← returnsOf r children
      let args ← argsOf r children
      let routine ← ofResult (e.require "routine")
      return .single (.exec ⟨routine, args, returns⟩)
    | some .script => do
      let members ← queries r children
      return .ofList members
    | some .createTable => do
      let columns ← ofResult (children.mapM columnDef)
      let table ← ofResult (tableOf e)
      let ifNotExists ← ofResult (e.flag "if-not-exists")
      let t : CreateTable := ⟨table, columns, ifNotExists⟩
      ofResult (checked e t.check)
      return .single (.createTable t)
    | some .dropTable => do
      let table ← ofResult (tableOf e)
      return .single (.dropTable ⟨table, ← ofResult (e.flag "if-exists")⟩)

def queries (r : Registry) : List Element → Decoding (List Query)
  | [] => return []
  | e :: es => do
    let q ← query r e
    let qs ← queries r es
    return q :: qs

end

end Decoding

def Query.ofDocument (r : Registry) (e : Element) : Result Query := (Decoding.query r e).run' {}

def Clause.ofDocument (r : Registry) (e : Element) : Result Clause := (Decoding.clause r e).run' {}

end SqlTree
