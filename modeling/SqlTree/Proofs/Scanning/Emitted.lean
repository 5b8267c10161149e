/-
The names that a statement puts in quotes.

`Query.emitted` lists them in the order of the text: tables and their schemas, columns, aliases, routines and sequences.
A column that is assigned to stands without its table, the subject of an empty list is not written, and some dialects
write the name of a sequence as a string literal. `Query.functionNames` lists the names of functions, which are written
as they are.
-/
import SqlTree.Proofs.Scanning.Legible

namespace SqlTree

/-- the name of a sequence in a call for it -/
def SequenceSpelling.emitted (sequence : String) : SequenceSpelling → List Region
  | .phrase _ | .member _ => [.ident sequence]
  | .literal _ => [.literal sequence]

def Builtin.emitted (d : Dialect) : Builtin → List Region
  | .currentDate | .currentTimestamp => []
  | .lastId sequence =>
    match d.builtins.lastId, sequence with
    | .ofSequence _ spelling, some name => spelling.emitted name
    | _, _ => []
  | .nextId sequence => d.builtins.nextId.emitted sequence

/-- a name behind another one that qualifies it, if there is one -/
def qualifiedName (qualifier : Option String) (name : String) : List Region :=
  qualifier.toList.map .ident ++ [.ident name]

def TableRef.emitted (t : TableRef) : List Region := qualifiedName t.schema t.name

/-- the name of a column that is assigned to -/
def Clause.assigned : Clause → List Region
  | .field _ name => [.ident name]
  | _ => []

mutual

/-- the names that a clause puts in quotes, in the order of its text -/
def Clause.emitted (d : Dialect) : Clause → List Region
  | .field of name => qualifiedName of name
  | .allFields of => of.toList.map .ident
  | .constant _ | .param _ => []
  | .anyRow query | .subQuery query => query.emitted d
  | .builtin fn => fn.emitted d
  | .table ref => ref.emitted
  | .compare left _ right | .logic left _ right | .calc left _ right => left.emitted d ++ right.emitted d
  | .join _ target condition => target.emitted d ++ condition.emitted d
  | .assign target value => target.assigned ++ value.emitted d
  | .inList subject items _ => if items.isEmpty then [] else subject.emitted d ++ Clause.emittedAll d items
  | .between subject low high => subject.emitted d ++ low.emitted d ++ high.emitted d
  | .function _ args => Clause.emittedAll d args
  | .concat parts => Clause.emittedAll d parts
  | .aggregate _ none _ => []
  | .aggregate _ (some arg) _ => arg.emitted d
  | .aliased subject name => subject.emitted d ++ [.ident name]
  | .isNull subject _ | .not subject | .cast subject _ | .order subject _ => subject.emitted d

def Clause.emittedAll (d : Dialect) : List Clause → List Region
  | [] => []
  | c :: cs => c.emitted d ++ Clause.emittedAll d cs

def Clause.emittedOption (d : Dialect) : Option Clause → List Region
  | none => []
  | some c => c.emitted d

def Select.emitted (d : Dialect) : Select → List Region
  | .mk _ _ fields sources filter groupBy having orderBy =>
    Clause.emittedAll d fields ++ Clause.emittedAll d sources ++ Clause.emittedOption d filter
      ++ Clause.emittedAll d groupBy ++ Clause.emittedOption d having ++ Clause.emittedAll d orderBy

end

/-- the names that a statement puts in quotes; the key columns of a table are named once more behind its columns -/
def Statement.emitted (d : Dialect) : Statement → List Region
  | .select s => s.emitted d
  | .insert i => i.table.emitted ++ i.columns.flatMap Clause.assigned ++ match i.source with
    | some query => query.emitted d
    | none => Clause.emittedAll d i.values
  | .update u => u.table.emitted ++ Clause.emittedAll d u.assignments ++ Clause.emittedOption d u.filter
  | .delete s => s.table.emitted ++ Clause.emittedOption d s.filter
  | .exec e => (TableRef.ofName e.routine).emitted ++ Clause.emittedAll d e.args
  | .createTable t => t.table.emitted ++ t.columns.map (.ident ·.name)
    ++ (t.columns.filter (·.primaryKey)).map (.ident ·.name)
  | .dropTable t => t.table.emitted

def Query.emitted (d : Dialect) (q : Query) : List Region := q.statements.flatMap (Statement.emitted d)

mutual

/-- the names of the functions that a clause calls -/
def Clause.functionNames : Clause → List String
  | .field .. | .allFields .. | .constant .. | .param .. | .builtin .. | .table .. => []
  | .anyRow query | .subQuery query => query.functionNames
  | .compare left _ right | .logic left _ right | .calc left _ right => left.functionNames ++ right.functionNames
  | .join _ target condition => target.functionNames ++ condition.functionNames
  | .assign target value => target.functionNames ++ value.functionNames
  | .inList subject items _ => subject.functionNames ++ Clause.functionNamesAll items
  | .between subject low high => subject.functionNames ++ low.functionNames ++ high.functionNames
  | .function name args => name :: Clause.functionNamesAll args
  | .concat parts => Clause.functionNamesAll parts
  | .aggregate _ none _ => []
  | .aggregate _ (some arg) _ => arg.functionNames
  | .isNull subject _ | .not subject | .cast subject _ | .aliased subject _ | .order subject _ => subject.functionNames

def Clause.functionNamesAll : List Clause → List String
  | [] => []
  | c :: cs => c.functionNames ++ Clause.functionNamesAll cs

def Clause.functionNamesOption : Option Clause → List String
  | none => []
  | some c => c.functionNames

def Select.functionNames : Select → List String
  | .mk _ _ fields sources filter groupBy having orderBy =>
    Clause.functionNamesAll fields ++ Clause.functionNamesAll sources ++ Clause.functionNamesOption filter
      ++ Clause.functionNamesAll groupBy ++ Clause.functionNamesOption having ++ Clause.functionNamesAll orderBy

end

def Statement.functionNames : Statement → List String
  | .select s => s.functionNames
  | .insert i => Clause.functionNamesAll i.values ++ (i.source.map Select.functionNames).getD []
  | .update u => Clause.functionNamesAll u.assignments ++ Clause.functionNamesOption u.filter
  | .delete s => Clause.functionNamesOption s.filter
  | .exec e => Clause.functionNamesAll e.args
  | .createTable _ | .dropTable _ => []

def Query.functionNames (q : Query) : List String := q.statements.flatMap Statement.functionNames

theorem Clause.emittedAll_eq (d : Dialect) (cs : List Clause) :
    Clause.emittedAll d cs = cs.flatMap (Clause.emitted d) := by
  induction cs with
  | nil => rfl
  | cons c cs ih => rw [Clause.emittedAll, ih, List.flatMap_cons]

theorem Clause.functionNamesAll_eq (cs : List Clause) :
    Clause.functionNamesAll cs = cs.flatMap Clause.functionNames := by
  induction cs with
  | nil => rfl
  | cons c cs ih => rw [Clause.functionNamesAll, ih, List.flatMap_cons]

theorem Clause.functionNamesOption_eq (o : Option Clause) :
    Clause.functionNamesOption o = o.toList.flatMap Clause.functionNames := by
  cases o with
  | none => rfl
  | some c => rw [Clause.functionNamesOption, Option.toList_some, List.flatMap_singleton]

theorem Clause.mem_functionNamesAll {cs : List Clause} {c : Clause} {name : String} (hc : c ∈ cs)
    (h : name ∈ c.functionNames) : name ∈ Clause.functionNamesAll cs := by
  rw [Clause.functionNamesAll_eq]
  exact List.mem_flatMap_of_mem hc h

theorem Clause.mem_functionNamesOption {o : Option Clause} {c : Clause} {name : String} (hc : c ∈ o)
    (h : name ∈ c.functionNames) : name ∈ Clause.functionNamesOption o := by
  obtain rfl := Option.mem_def.1 hc
  exact h

/-- The functions that are called right below a clause are among those that it calls. -/
theorem Clause.functionNames_below (c : Clause) :
    c.operands.flatMap functionNames ++ c.query?.toList.flatMap Select.functionNames ⊆ c.functionNames := by
  cases c with
  | aggregate fn arg distinct => cases arg <;> simp [functionNames, operands, query?]
  | _ => simp [functionNames, operands, query?, functionNamesAll_eq]

theorem Select.functionNames_clauses (s : Select) : s.functionNames = s.clauses.flatMap Clause.functionNames := by
  cases s
  simp [functionNames, clauses, Clause.functionNamesAll_eq, Clause.functionNamesOption_eq]

end SqlTree
