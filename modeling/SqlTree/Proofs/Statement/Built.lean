/-
Statements that were put together by the rules.

Every section of a built statement holds what pushing its clauses in order onto an empty section gives, an alias stands
on what may have one, and each statement passes its own check; so do the selects inside it. In a coherent statement the
places of one identity hold one parameter.

- `Query.parameters`: the parameters of a statement in reading order, written out or not.
-/
import SqlTree.Proofs.Section.Push
import SqlTree.Statement

namespace SqlTree

open Section (Rebuilds)

/-! ## Rules -/

mutual

/-- a clause in which every alias stands on what may have one, and whose selects are built -/
inductive Clause.Built : Clause → Prop
  | node {c : Clause} (aliasable : ∀ subject name, c = .aliased subject name → subject.isAliasable)
    (operands : ∀ x ∈ c.operands, Clause.Built x) (query : ∀ s ∈ c.query?, Select.Built s) : Clause.Built c

/-- a select whose sections rebuild themselves, with clauses that are built -/
inductive Select.Built : Select → Prop
  | sections {s : Select} (fields : Rebuilds .fields s.fields) (sources : Rebuilds .sources s.sources)
    (filter : Rebuilds .filter s.filter.toList) (groupBy : Rebuilds .groupBy s.groupBy)
    (having : Rebuilds .having s.having.toList) (orderBy : Rebuilds .orderBy s.orderBy)
    (clauses : ∀ c ∈ s.clauses, Clause.Built c) : Select.Built s

end

theorem Clause.Built.leaf {c : Clause} (operands : c.operands = []) (query : c.query? = none) : c.Built := by
  refine .node (fun subject name h => ?_) (by simp [operands]) (by simp [query])
  subst h
  cases operands

/-- The clauses of a built select obey the rules for operands, since its sections took them. -/
theorem Select.Built.check {s : Select} (h : s.Built) : ∀ c ∈ s.clauses, c.check = .ok () := by
  obtain ⟨fields, sources, filter, groupBy, having, orderBy, -⟩ := h
  obtain ⟨distinct, limit, f, s, w, g, h, o⟩ := s
  simp only [Select.clauses, List.forall_mem_append]
  exact ⟨⟨⟨⟨⟨fields.check, sources.check⟩, filter.check⟩, groupBy.check⟩, having.check⟩, orderBy.check⟩

/-- a statement that was put together by the rules -/
def Statement.Built : Statement → Prop
  | .select s => s.Built
  | .insert i => Rebuilds .columns i.columns ∧ Rebuilds .values i.values ∧ (∀ c ∈ i.columns ++ i.values, c.Built)
    ∧ (∀ s ∈ i.source, s.Built) ∧ i.check = .ok ()
  | .update u => Rebuilds .assignments u.assignments ∧ Rebuilds .filter u.filter.toList
    ∧ (∀ c ∈ u.assignments ++ u.filter.toList, c.Built) ∧ u.check = .ok ()
  | .delete s => Rebuilds .filter s.filter.toList ∧ ∀ c ∈ s.filter, c.Built
  | .exec e => ∀ a ∈ e.args, a.checkArgument = .ok () ∧ a.Built
  | .createTable t => t.check = .ok ()
  | .dropTable _ => True

/-- a query whose statements were put together by the rules -/
def Query.Built (q : Query) : Prop := ∀ s ∈ q.statements, s.Built

/-! ## Parameters -/

mutual

/-- the parameters of a clause in reading order -/
def Clause.parameters : Clause → List Parameter
  | .param p => [p]
  | .anyRow query | .subQuery query => query.parameters
  | .field .. | .allFields .. | .constant .. | .builtin .. | .table .. => []
  | .compare left _ right | .logic left _ right | .calc left _ right => left.parameters ++ right.parameters
  | .join _ target condition => target.parameters ++ condition.parameters
  | .assign target value => target.parameters ++ value.parameters
  | .inList subject items _ => subject.parameters ++ Clause.parametersAll items
  | .between subject low high => subject.parameters ++ low.parameters ++ high.parameters
  | .function _ args => Clause.parametersAll args
  | .concat parts => Clause.parametersAll parts
  | .aggregate _ none _ => []
  | .aggregate _ (some arg) _ => arg.parameters
  | .isNull subject _ | .not subject | .cast subject _ | .aliased subject _ | .order subject _ => subject.parameters

def Clause.parametersAll : List Clause → List Parameter
  | [] => []
  | c :: cs => c.parameters ++ Clause.parametersAll cs

def Clause.parametersOption : Option Clause → List Parameter
  | none => []
  | some c => c.parameters

def Select.parameters : Select → List Parameter
  | .mk _ _ fields sources filter groupBy having orderBy =>
    Clause.parametersAll fields ++ Clause.parametersAll sources ++ Clause.parametersOption filter
      ++ Clause.parametersAll groupBy ++ Clause.parametersOption having ++ Clause.parametersAll orderBy

end

def Statement.parameters : Statement → List Parameter
  | .select s => s.parameters
  | .insert i =>
    Clause.parametersAll i.columns ++ Clause.parametersAll i.values ++ (i.source.map Select.parameters).getD []
  | .update u => Clause.parametersAll u.assignments ++ Clause.parametersOption u.filter
  | .delete s => Clause.parametersOption s.filter
  | .exec e => e.returns.toList ++ Clause.parametersAll e.args
  | .createTable _ | .dropTable _ => []

def Query.parameters (q : Query) : List Parameter := q.statements.flatMap Statement.parameters

/-- parameters of which those of one identity are one parameter -/
def Coherent (ps : List Parameter) : Prop := ∀ p ∈ ps, ∀ p' ∈ ps, p.id = p'.id → p = p'

namespace Clause

theorem parametersAll_eq (cs : List Clause) : parametersAll cs = cs.flatMap parameters := by
  induction cs with
  | nil => rfl
  | cons c cs ih => rw [parametersAll, ih, List.flatMap_cons]

theorem parametersOption_eq (o : Option Clause) : parametersOption o = o.toList.flatMap parameters := by
  cases o with
  | none => rfl
  | some c => rw [parametersOption, Option.toList_some, List.flatMap_singleton]

/-- The parameters of a clause are those of what is right below it, unless it is a parameter. -/
theorem parameters_eq (c : Clause) (hc : c.kind ≠ .param) :
    c.parameters = c.operands.flatMap parameters ++ c.query?.toList.flatMap Select.parameters := by
  cases c with
  | param => exact absurd rfl hc
  | aggregate fn arg distinct => cases arg <;> simp [parameters, operands, query?]
  | _ => simp [parameters, operands, query?, parametersAll_eq]

end Clause

theorem Select.parameters_eq (s : Select) : s.parameters = s.clauses.flatMap Clause.parameters := by
  cases s
  simp [parameters, clauses, Clause.parametersAll_eq, Clause.parametersOption_eq]

end SqlTree
