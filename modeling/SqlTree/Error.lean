/-
What can go wrong, and the message for it.

An error states its cause in the terms of the library; the wording stands in the `message` functions alone. A
construction fault that a document causes is reported as a fault of the document.
-/
import SqlTree.DataType
import SqlTree.Clause
import SqlTree.Statement.Kind

namespace SqlTree

/-- a clause of a sort, as messages speak of it -/
def ClauseKind.node (k : ClauseKind) : String := "a " ++ k.name ++ " node"

/-- what an operand has to be -/
inductive Role where
  | predicate
  | arithmetic
  deriving DecidableEq, Repr

def Role.text : Role → String
  | .predicate => "a predicate"
  | .arithmetic => "an arithmetic operand"

/-- why a section refuses a clause -/
inductive Refusal where
  | notTarget
  | notCondition
  | noTableBefore
  | notSource
  | notSortItem
  | notAssignment
  | notColumn
  | notExpression
  | isAlias
  | notPredicate
  deriving DecidableEq, Repr

def Refusal.text : Refusal → String
  | .notTarget => "join target must be a table"
  | .notCondition => "join condition must be a predicate"
  | .noTableBefore => "join requires a preceding table"
  | .notSource => "expected a table or join"
  | .notSortItem => "expected a sort expression"
  | .notAssignment => "expected field = value"
  | .notColumn => "expected a column"
  | .notExpression => "expected an expression"
  | .isAlias => "aliases are only allowed in a select list"
  | .notPredicate => "expected a predicate"

/-- what changes the current item of a section -/
inductive Modifier where
  | aliasing
  | calc (op : Arithmetic)
  deriving DecidableEq, Repr

def Modifier.text : Modifier → String
  | .aliasing => "alias"
  | .calc op => op.sql

/-- why a tree cannot be put together -/
inductive ConstructionFault where
  /-- an operand of a clause has not the role it must have -/
  | operand (parent operand : ClauseKind) (role : Role)
  /-- a join is conditioned on something that is no predicate -/
  | joinCondition (condition : ClauseKind)
  /-- arithmetic is asked of a clause that is no operand for it -/
  | arithmetic (operand : ClauseKind) (op : Arithmetic)
  /-- a clause that takes no alias -/
  | notAliasable (subject : ClauseKind) (name : String)
  /-- the current item of a section takes no alias there -/
  | itemAlias (kind : SectionKind) (item : ClauseKind) (name : String)
  /-- a section refuses a clause -/
  | refused (kind : SectionKind) (item : ClauseKind) (why : Refusal)
  /-- predicates are joined in a section that holds none -/
  | notBoolean (kind : SectionKind) (op : Connective)
  /-- a section has no current item to change -/
  | noCurrentItem (kind : SectionKind) (modifier : Modifier)
  | valuesAndSource
  | noValues
  | columnCount (columns values : Nat)
  | noAssignments
  | noColumns
  /-- a join is added to a statement that is no select -/
  | joinOutsideSelect (kind : StatementKind)
  /-- a clause that cannot be given to a routine -/
  | routineArgument (arg : ClauseKind)
  deriving DecidableEq, Repr

namespace ConstructionFault

/-- the name of the node, section or statement at fault -/
def place : ConstructionFault → String
  | .operand parent _ _ => parent.name
  | .joinCondition _ => ClauseKind.join.name
  | .arithmetic node _ => node.name
  | .notAliasable subject _ => subject.name
  | .itemAlias kind _ _ | .refused kind _ _ | .notBoolean kind _ | .noCurrentItem kind _ => kind.name
  | .valuesAndSource | .noValues | .columnCount _ _ => StatementKind.insert.name
  | .noAssignments => StatementKind.update.name
  | .noColumns => StatementKind.createTable.name
  | .joinOutsideSelect _ => ClauseKind.join.name
  | .routineArgument arg => arg.name

/-- what is wrong, without the place -/
def message : ConstructionFault → String
  | .operand parent node role =>
    "operand of " ++ parent.name ++ " is " ++ node.node ++ ", not " ++ role.text
  | .joinCondition condition =>
    "condition of " ++ ClauseKind.join.name ++ " is " ++ condition.node ++ ", not " ++ Role.predicate.text
  | .arithmetic node op => node.node ++ " cannot be an operand of '" ++ op.sql ++ "'"
  | .notAliasable node name | .itemAlias _ node name => "cannot alias " ++ node.node ++ " as '" ++ name ++ "'"
  | .refused _ item why => "cannot add " ++ item.node ++ ": " ++ why.text
  | .notBoolean _ op => op.sql ++ " is only valid on a where or having section"
  | .noCurrentItem _ modifier => modifier.text ++ " needs a current item"
  | .valuesAndSource => "an insert takes either values or a select source, not both"
  | .noValues => "no values"
  | .columnCount columns values =>
    Decimal.ofNat columns ++ " columns but " ++ Decimal.ofNat values ++ " values"
  | .noAssignments => "no assignments"
  | .noColumns => "no columns"
  | .joinOutsideSelect kind => "joins can only be added to a select, not " ++ kind.name
  | .routineArgument arg => arg.node ++ " cannot be a routine argument"

/-- what is wrong and where -/
def report (f : ConstructionFault) : String :=
  "Construction error in " ++ f.place ++ ": " ++ f.message

end ConstructionFault

/-- why a statement cannot be written -/
inductive RenderFault where
  | stagingOutsideSelect
  | alreadyStaged
  | notStaged
  | neverFlushed
  /-- an explicit parameter name is taken -/
  | nameInUse (name : String)
  /-- something else stands where a column name has to be written -/
  | notColumn (node : ClauseKind)
  /-- the dialect needs the name of the sequence -/
  | sequenceNeeded
  deriving DecidableEq, Repr

namespace RenderFault

/-- the name of the node or statement at fault -/
def place : RenderFault → String
  | .stagingOutsideSelect | .alreadyStaged | .notStaged | .neverFlushed => StatementKind.select.name
  | .nameInUse _ => ClauseKind.param.name
  | .notColumn node => node.name
  | .sequenceNeeded => ClauseKind.builtin.name

/-- what is wrong, without the place -/
def message : RenderFault → String
  | .stagingOutsideSelect => "staging requires an open select"
  | .alreadyStaged => "select is already staged"
  | .notStaged => "no staged select to close"
  | .neverFlushed => "staged select was never flushed"
  | .nameInUse name => "parameter name '" ++ name ++ "' is already in use"
  | .notColumn node => "expected a column, found " ++ node.node
  | .sequenceNeeded => "last-id needs a sequence name"

end RenderFault

inductive DocumentFault where
  | missingAttribute (key : String)
  | malformed (key value : String)
  | childCount (expected found : Nat)
  | unknownStatement
  | unknownClause
  | notSelect (found : StatementKind)
  | notParam (found : ClauseKind)
  /-- a parameter is referred to before the element that describes it -/
  | undefinedReference (ref : String)
  | missingSubject
  | severalArguments
  | operandNotPredicate (operand : ClauseKind)
  | incompleteRowLimit
  | columnExpected
  | unknownDataType (tag : String)
  /-- a node breaks a rule of construction -/
  | misbuilt (fault : ConstructionFault)
  /-- the statement as a whole breaks a rule of construction -/
  | incomplete (fault : ConstructionFault)
  deriving DecidableEq, Repr

def DocumentFault.message : DocumentFault → String
  | .missingAttribute key => "missing attribute '" ++ key ++ "'"
  | .malformed key value => "malformed " ++ key ++ " '" ++ value ++ "'"
  | .childCount expected found =>
    "expected " ++ Decimal.ofNat expected ++ " children, found " ++ Decimal.ofNat found
  | .unknownStatement => "unknown statement element"
  | .unknownClause => "unknown clause element"
  | .notSelect found => "expected a select, found " ++ found.name
  | .notParam found => "expected a param, found " ++ found.name
  | .undefinedReference ref => "reference '" ++ ref ++ "' used before its definition"
  | .missingSubject => "missing subject"
  | .severalArguments => "more than one argument"
  | .operandNotPredicate operand => "operand is " ++ operand.node ++ ", not a predicate"
  | .incompleteRowLimit => "row limit needs either 'top' or both 'offset' and 'count'"
  | .columnExpected => "expected a column"
  | .unknownDataType tag => "unknown data type '" ++ tag ++ "'"
  | .misbuilt fault => fault.report
  | .incomplete fault => fault.message

inductive Error where
  | construction (fault : ConstructionFault)
  /-- a dialect lacks a construct that the statement needs -/
  | capability (dialect : String) (missing : Capability) (context : String)
  | render (dialect : String) (fault : RenderFault)
  | document (element : String) (fault : DocumentFault)
  | unknownCapability (name : String)
  | unknownDialect (name : String)
  /-- the text is no configuration -/
  | malformedConfig
  /-- the text is no document -/
  | malformedJson
  deriving DecidableEq, Repr

def Error.message : Error → String
  | .construction fault => fault.report
  | .capability dialect missing context =>
    "Capability error: dialect '" ++ dialect ++ "' does not support " ++ missing.name ++ " (" ++ context ++ ")"
  | .render dialect fault =>
    "Render error in " ++ fault.place ++ " for dialect '" ++ dialect ++ "': " ++ fault.message
  | .document element fault => "Serialization error at <" ++ element ++ ">: " ++ fault.message
  | .unknownCapability name => "Configuration error: unknown capability '" ++ name ++ "'"
  | .unknownDialect name => "Configuration error: unknown dialect '" ++ name ++ "'"
  | .malformedConfig => "Configuration error: malformed text"
  | .malformedJson => "JSON error: malformed text"

/-- what a fallible operation gives -/
abbrev Result (α : Type) := Except Error α

end SqlTree
