/-
Clauses: the nodes of a statement's tree.

A `Clause` is a scalar expression, a predicate, a table source or one of the items that only some sections hold. A
`Select` is a query whose sections hold clauses, so the two types are defined together. The WHERE and HAVING sections
hold at most one predicate, which the type says.
-/
import SqlTree.Operator
import SqlTree.Parameter

namespace SqlTree

/-- a table name, with or without the schema it belongs to -/
structure TableRef where
  schema : Option String
  name : String
  deriving DecidableEq, Repr

/-- a name cut at its first dot -/
def splitQualified (name : String) : Option String × String :=
  let cs := name.toList
  let before := cs.takeWhile (· != '.')
  if before.length = cs.length then (none, name)
  else (some (String.ofList before), String.ofList (cs.drop (before.length + 1)))

/-- the table of a name, the schema standing before the first dot -/
def TableRef.ofName (name : String) : TableRef :=
  ⟨(splitQualified name).1, (splitQualified name).2⟩

/-- functions that each dialect spells in its own way -/
inductive Builtin where
  | currentDate
  | currentTimestamp
  /-- the last generated key; dialects with sequences need to know which -/
  | lastId (sequence : Option String)
  /-- the next value of a sequence -/
  | nextId (sequence : String)
  deriving DecidableEq, Repr

def Builtin.name : Builtin → String
  | .currentDate => "current-date"
  | .currentTimestamp => "current-timestamp"
  | .lastId _ => "last-id"
  | .nextId _ => "next-id"

/-- how many rows of a query are wanted -/
inductive RowLimit where
  /-- the first `n` rows -/
  | first (n : UInt64)
  /-- `count` rows after skipping `offset` -/
  | range (offset count : UInt64)
  deriving DecidableEq, Repr

mutual

/-- one node of a statement's tree -/
inductive Clause where
  /-- a column, with or without its table -/
  | field (table : Option String) (name : String)
  /-- all columns, of one table or of all -/
  | allFields (table : Option String)
  /-- a literal, written as a parameter of its own -/
  | constant (value : Value)
  | param (p : Parameter)
  | compare (left : Clause) (op : Comparison) (right : Clause)
  | isNull (subject : Clause) (negated : Bool)
  | inList (subject : Clause) (items : List Clause) (negated : Bool)
  | between (subject low high : Clause)
  /-- whether a query gives any row -/
  | anyRow (query : Select)
  | logic (left : Clause) (op : Connective) (right : Clause)
  | not (inner : Clause)
  /-- an aggregate of an argument, or of whole rows -/
  | aggregate (fn : Aggregate) (arg : Option Clause) (distinct : Bool)
  | function (name : String) (args : List Clause)
  | builtin (fn : Builtin)
  | concat (parts : List Clause)
  | cast (subject : Clause) (type : DataType)
  | calc (left : Clause) (op : Arithmetic) (right : Clause)
  | aliased (subject : Clause) (name : String)
  | table (ref : TableRef)
  | join (kind : JoinKind) (table : Clause) (condition : Clause)
  | order (subject : Clause) (direction : SortOrder)
  /-- a column and the value it is given -/
  | assign (target : Clause) (value : Clause)
  | subQuery (query : Select)

/-- a query, section by section -/
inductive Select where
  | mk (distinct : Bool) (limit : Option RowLimit) (fields sources : List Clause) (filter : Option Clause)
      (groupBy : List Clause) (having : Option Clause) (orderBy : List Clause)

end

namespace Select

def distinct : Select → Bool | .mk d _ _ _ _ _ _ _ => d
def limit : Select → Option RowLimit | .mk _ l _ _ _ _ _ _ => l
/-- the columns of the result; none means all -/
def fields : Select → List Clause | .mk _ _ f _ _ _ _ _ => f
def sources : Select → List Clause | .mk _ _ _ s _ _ _ _ => s
/-- the predicate on rows -/
def filter : Select → Option Clause | .mk _ _ _ _ w _ _ _ => w
def groupBy : Select → List Clause | .mk _ _ _ _ _ g _ _ => g
/-- the predicate on groups -/
def having : Select → Option Clause | .mk _ _ _ _ _ _ h _ => h
def orderBy : Select → List Clause | .mk _ _ _ _ _ _ _ o => o

end Select

/-- the sorts of clauses -/
inductive ClauseKind where
  | field | allFields | constant | param | compare | isNull | inList | between | anyRow | logic | not | aggregate
  | function | builtin | concat | cast | calc | aliased | table | join | order | assign | subQuery
  deriving DecidableEq, Repr

namespace ClauseKind

def all : List ClauseKind :=
  [.field, .allFields, .constant, .param, .compare, .isNull, .inList, .between, .anyRow, .logic, .not, .aggregate,
    .function, .builtin, .concat, .cast, .calc, .aliased, .table, .join, .order, .assign, .subQuery]

/-- the name of a sort of clause in documents and messages -/
def name : ClauseKind → String
  | .field => "field"
  | .allFields => "all-fields"
  | .constant => "const"
  | .param => "param"
  | .compare => "compare"
  | .isNull => "is-null"
  | .inList => "in-list"
  | .between => "between"
  | .anyRow => "exists"
  | .logic => "logic"
  | .not => "not"
  | .aggregate => "aggregate"
  | .function => "function"
  | .builtin => "builtin"
  | .concat => "concat"
  | .cast => "cast"
  | .calc => "calc"
  | .aliased => "alias"
  | .table => "table"
  | .join => "join"
  | .order => "order"
  | .assign => "assign"
  | .subQuery => "sub-query"

/-- truth-valued, so fit for WHERE, HAVING and ON -/
def isPredicate : ClauseKind → Bool
  | .compare | .isNull | .inList | .between | .anyRow | .logic | .not => true
  | _ => false

/-- may be given an alias -/
def isAliasable : ClauseKind → Bool
  | .field | .constant | .param | .aggregate | .function | .builtin | .concat | .cast | .calc | .table
  | .subQuery => true
  | _ => false

/-- may be an operand of arithmetic -/
def isArithmetic : ClauseKind → Bool
  | .field | .constant | .param | .aggregate | .function | .builtin | .cast | .calc | .subQuery => true
  | _ => false

end ClauseKind

namespace Clause

def kind : Clause → ClauseKind
  | .field .. => .field
  | .allFields .. => .allFields
  | .constant .. => .constant
  | .param .. => .param
  | .compare .. => .compare
  | .isNull .. => .isNull
  | .inList .. => .inList
  | .between .. => .between
  | .anyRow .. => .anyRow
  | .logic .. => .logic
  | .not .. => .not
  | .aggregate .. => .aggregate
  | .function .. => .function
  | .builtin .. => .builtin
  | .concat .. => .concat
  | .cast .. => .cast
  | .calc .. => .calc
  | .aliased .. => .aliased
  | .table .. => .table
  | .join .. => .join
  | .order .. => .order
  | .assign .. => .assign
  | .subQuery .. => .subQuery

def isPredicate (c : Clause) : Bool := c.kind.isPredicate

def isAliasable (c : Clause) : Bool := c.kind.isAliasable

def isArithmetic (c : Clause) : Bool := c.kind.isArithmetic

/-- an alias, which is one where only tables and values are expected -/
def isAliased (c : Clause) : Bool := c.kind == .aliased

/-- scalar, so fit for a select list, a value list or an argument; an alias is as scalar as what it names -/
def isExpression : Clause → Bool
  | .table _ | .join .. | .order .. | .assign .. => false
  | .aliased subject _ => isExpression subject
  | _ => true

/-- a table or a query, which an alias turns into a table source -/
def isTableLike : Clause → Bool
  | .table _ | .subQuery _ => true
  | _ => false

/-- fit for a FROM list: a table, or an aliased table or query -/
def isTableSource : Clause → Bool
  | .table _ => true
  | .aliased subject _ => subject.isTableLike
  | _ => false

/-- the column of a name, the table standing before the first dot -/
def ofName (name : String) : Clause :=
  .field (splitQualified name).1 (splitQualified name).2

def ofTable (name : String) : Clause := .table (TableRef.ofName name)

end Clause

namespace Select

def empty : Select := .mk false none [] [] none [] none []

end Select
end SqlTree
