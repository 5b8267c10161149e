/-
The explicit parameter names of a statement, in reading order, written out or not.
-/
import SqlTree.Statement

namespace SqlTree

mutual

/-- the explicit parameter names of a clause -/
def Clause.paramNames : Clause → List String
  | .param p => p.name.toList
  | .anyRow query | .subQuery query => query.paramNames
  | .field .. | .allFields .. | .constant .. | .builtin .. | .table .. => []
  | .compare left _ right | .logic left _ right | .calc left _ right => left.paramNames ++ right.paramNames
  | .join _ target condition => target.paramNames ++ condition.paramNames
  | .assign target value => target.paramNames ++ value.paramNames
  | .inList subject items _ => subject.paramNames ++ Clause.paramNamesAll items
  | .between subject low high => subject.paramNames ++ (low.paramNames ++ high.paramNames)
  | .function _ args => Clause.paramNamesAll args
  | .concat parts => Clause.paramNamesAll parts
  | .aggregate _ none _ => []
  | .aggregate _ (some arg) _ => arg.paramNames
  | .isNull subject _ | .not subject | .cast subject _ | .aliased subject _ | .order subject _ => subject.paramNames

def Clause.paramNamesAll : List Clause → List String
  | [] => []
  | c :: cs => c.paramNames ++ Clause.paramNamesAll cs

def Clause.paramNamesOption : Option Clause → List String
  | none => []
  | some c => c.paramNames

def Select.paramNames : Select → List String
  | .mk _ _ fields sources filter groupBy having orderBy =>
    Clause.paramNamesAll fields ++ Clause.paramNamesAll sources ++ Clause.paramNamesOption filter
      ++ Clause.paramNamesAll groupBy ++ Clause.paramNamesOption having ++ Clause.paramNamesAll orderBy

end

def Statement.paramNames : Statement → List String
  | .select s => s.paramNames
  | .insert i =>
    Clause.paramNamesAll i.columns ++ Clause.paramNamesAll i.values ++ (i.source.map Select.paramNames).getD []
  | .update u => Clause.paramNamesAll u.assignments ++ Clause.paramNamesOption u.filter
  | .delete d => Clause.paramNamesOption d.filter
  | .exec e => (e.returns.bind (·.name)).toList ++ Clause.paramNamesAll e.args
  | .createTable _ | .dropTable _ => []

def Query.paramNames (q : Query) : List String := q.statements.flatMap Statement.paramNames

end SqlTree
