/-
The rules for operands, and the constructors that check them.

`Clause.check` looks through a whole clause: connectives and negation take predicates, arithmetic takes arithmetic
operands, a join is conditioned on a predicate. Queries inside a clause were checked when they were built.
-/
import SqlTree.Error

namespace SqlTree

def Role.admits : Role → ClauseKind → Bool
  | .predicate, k => k.isPredicate
  | .arithmetic, k => k.isArithmetic

namespace Clause

def checkRole (parent : ClauseKind) (role : Role) (c : Clause) : Result Unit :=
  if role.admits c.kind then .ok () else .error (.construction (.operand parent c.kind role))

mutual

/-- the rules for operands hold throughout a clause; of several faults the first in reading order is reported -/
def check : Clause → Result Unit
  | .field .. | .allFields .. | .constant .. | .param .. | .builtin .. | .table .. | .anyRow .. | .subQuery .. => .ok ()
  | .compare left _ right => do
    check left
    check right
  | .isNull subject _ => check subject
  | .inList subject items _ => do
    check subject
    checkAll items
  | .between subject low high => do
    check subject
    check low
    check high
  | .logic left _ right => do
    checkRole .logic .predicate left
    check left
    checkRole .logic .predicate right
    check right
  | .not inner => do
    checkRole .not .predicate inner
    check inner
  | .calc left _ right => do
    checkRole .calc .arithmetic left
    check left
    checkRole .calc .arithmetic right
    check right
  | .join _ target condition => do
    if !condition.isPredicate then
      throw (.construction (.joinCondition condition.kind))
    check target
    check condition
  | .aggregate _ none _ => .ok ()
  | .aggregate _ (some arg) _ => check arg
  | .function _ args => checkAll args
  | .concat parts => checkAll parts
  | .cast subject _ | .aliased subject _ | .order subject _ => check subject
  | .assign target value => do
    check target
    check value

def checkAll : List Clause → Result Unit
  | [] => .ok ()
  | c :: cs => do
    check c
    checkAll cs

end

/-- a clause under an alias, if it may have one -/
def withAlias (c : Clause) (name : String) : Result Clause :=
  if c.isAliasable then .ok (.aliased c name) else .error (.construction (.notAliasable c.kind name))

def checkOperand (op : Arithmetic) (c : Clause) : Result Unit :=
  if c.isArithmetic then .ok () else .error (.construction (.arithmetic c.kind op))

/-- arithmetic on two clauses that can be its operands -/
def arithmetic (left : Clause) (op : Arithmetic) (right : Clause) : Result Clause := do
  left.checkOperand op
  right.checkOperand op
  return .calc left op right

def checkArgument (c : Clause) : Result Unit := do
  c.check
  if !c.isExpression || c.isAliased then
    throw (.construction (.routineArgument c.kind))

end Clause
end SqlTree
