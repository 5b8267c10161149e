/-
Where parameters enter a statement.

`Query.occurrences` lists the literals and the parameters of a statement in the order of its text. Null is no parameter,
and the subject of an empty list is not written. The parameter that receives the result of a call stands in front of it,
except where calls have no place for it: there it comes last and without a placeholder.

- `Carries.query`: the pieces of a query hold these occurrences, in this order.
-/
import SqlTree.Proofs.Rendering.Collect

namespace SqlTree

mutual

/-- the literals and parameters of a clause in the order of its text -/
def Clause.occurrences : Clause → List Occurrence
  | .constant v => if v.isNull then [] else [.constant v]
  | .param p => [.param p p.direction true]
  | .anyRow query | .subQuery query => query.occurrences
  | .field .. | .allFields .. | .builtin .. | .table .. => []
  | .compare left _ right | .logic left _ right | .calc left _ right => left.occurrences ++ right.occurrences
  | .join _ target condition => target.occurrences ++ condition.occurrences
  | .assign target value => target.occurrences ++ value.occurrences
  | .inList subject items _ => if items.isEmpty then [] else subject.occurrences ++ Clause.occurrencesAll items
  | .between subject low high => subject.occurrences ++ (low.occurrences ++ high.occurrences)
  | .function _ args => Clause.occurrencesAll args
  | .concat parts => Clause.occurrencesAll parts
  | .aggregate _ none _ => []
  | .aggregate _ (some arg) _ => arg.occurrences
  | .isNull subject _ | .not subject | .cast subject _ | .aliased subject _ | .order subject _ => subject.occurrences

def Clause.occurrencesAll : List Clause → List Occurrence
  | [] => []
  | c :: cs => c.occurrences ++ Clause.occurrencesAll cs

def Clause.occurrencesOption : Option Clause → List Occurrence
  | none => []
  | some c => c.occurrences

def Select.occurrences : Select → List Occurrence
  | .mk _ _ fields sources filter groupBy having orderBy =>
    Clause.occurrencesAll fields ++ Clause.occurrencesAll sources ++ Clause.occurrencesOption filter
      ++ Clause.occurrencesAll groupBy ++ Clause.occurrencesOption having ++ Clause.occurrencesAll orderBy

end

/-- the parameter that receives the result of a call, placed or not -/
def Exec.receiver (e : Exec) (placed : Bool) : List Occurrence :=
  e.returns.toList.map fun p => .param p .result placed

def Statement.occurrences (d : Dialect) : Statement → List Occurrence
  | .select s => s.occurrences
  | .insert i => Clause.occurrencesAll i.columns ++ match i.source with
    | some query => query.occurrences
    | none => Clause.occurrencesAll i.values
  | .update u => Clause.occurrencesAll u.assignments ++ Clause.occurrencesOption u.filter
  | .delete s => Clause.occurrencesOption s.filter
  | .exec e => match d.calls with
    | .call => Clause.occurrencesAll e.args ++ e.receiver false
    | .exec | .block => e.receiver true ++ Clause.occurrencesAll e.args
  | .createTable _ | .dropTable _ => []

def Query.occurrences (d : Dialect) (q : Query) : List Occurrence := q.statements.flatMap (Statement.occurrences d)

/-! ## The pieces of a statement hold them -/

def Piece.occurrence : Piece → List Occurrence
  | .value o => [o]
  | _ => []

/-- the pieces hold these occurrences, or only some of them where a fault stands in the place of the others -/
inductive Piece.Carries : List Piece → List Occurrence → Prop
  | nil : Carries [] []
  | text (t : String) : Carries [.text t] []
  | ident (name : String) : Carries [.ident name] []
  | literal (t : String) : Carries [.literal t] []
  | value (o : Occurrence) : Carries [.value o] [o]
  | action (a : HookAction) : Carries [.act a] []
  | stop (e : Error) (os : List Occurrence) : Carries [.stop e] os
  | frame (opening closing : List HookAction) {xs : List Piece} {os : List Occurrence} (inside : Carries xs os) :
    Carries [.frame opening xs closing] os
  | append {xs ys : List Piece} {os os' : List Occurrence} (first : Carries xs os) (rest : Carries ys os') :
    Carries (xs ++ ys) (os ++ os')

theorem Clause.occurrencesAll_eq (cs : List Clause) : Clause.occurrencesAll cs = cs.flatMap Clause.occurrences := by
  induction cs with
  | nil => rfl
  | cons c cs ih => rw [Clause.occurrencesAll, ih, List.flatMap_cons]

theorem Clause.occurrencesOption_eq (o : Option Clause) :
    Clause.occurrencesOption o = o.toList.flatMap Clause.occurrences := by
  cases o with
  | none => rfl
  | some c => rw [Clause.occurrencesOption, Option.toList_some, List.flatMap_singleton]

theorem Select.occurrences_eq (s : Select) : s.occurrences = s.clauses.flatMap Clause.occurrences := by
  cases s
  simp [occurrences, clauses, Clause.occurrencesAll_eq, Clause.occurrencesOption_eq]

open Piece (Carries)

namespace Piece.Carries

variable {d : Dialect}

/-- The occurrences that pieces hold are among those they carry, in this order. -/
theorem some {xs : List Piece} {os : List Occurrence} (h : Carries xs os) : (collectAll occurrence xs).Sublist os := by
  induction h with
  | nil | text | ident | literal | action => exact .slnil
  | value o => exact .refl [o]
  | stop e os => exact List.nil_sublist os
  | frame opening closing _ ih => simpa [collectAll, collect] using ih
  | append _ _ ih ih' =>
    rw [collectAll_append]
    exact ih.append ih'

/-- Pieces without faults hold all that they carry. -/
theorem all {xs : List Piece} {os : List Occurrence} (h : Carries xs os) (faultless : faults xs = []) :
    collectAll occurrence xs = os := by
  induction h with
  | nil | text | ident | literal | action | value => rfl
  | stop e os => cases faultless
  | frame opening closing _ ih => simpa [collectAll, collect] using ih (List.append_eq_nil_iff.1 faultless).1
  | append _ _ ih ih' =>
    rw [faults_append, List.append_eq_nil_iff] at faultless
    rw [collectAll_append, ih faultless.1, ih' faultless.2]

theorem gathers : Gathers Carries := ⟨.nil, .text, .ident, .literal, .append⟩

theorem act (actions : List HookAction) : Carries (actions.map .act) [] := by
  induction actions with
  | nil => exact .nil
  | cons a actions ih => exact .append (.action a) ih

theorem ofResult {β : Type} (r : Result β) {g : β → List Piece} {os : List Occurrence} (h : ∀ b, Carries (g b) os) :
    Carries (Piece.ofResult r g) os := by
  cases r with
  | ok b => exact h b
  | error e => exact stop e os

theorem limitFault (limit : Option RowLimit) : Carries (Piece.limitFault d limit) [] := by
  cases limit with
  | none => exact gathers.nil
  | some limit => exact ofResult _ fun _ => gathers.nil

theorem builtin (fn : Builtin) : Carries (Piece.builtin d fn) [] := by
  cases fn with
  | currentDate => exact gathers.text _
  | currentTimestamp => exact gathers.text _
  | lastId sequence =>
    simp only [Piece.builtin]
    split
    · exact gathers.text _
    · exact gathers.sequenceCall _ _
    · exact gathers.text _
    · exact stop _ _
  | nextId sequence => exact ofResult _ fun _ => gathers.sequenceCall _ _

/-- A column to assign to carries what any other clause does, for it is a name. -/
theorem columnName (c : Clause) : Carries (Piece.columnName d c) c.occurrences := by
  cases c with
  | field of name => exact gathers.ident name
  | _ => exact stop _ _

end Piece.Carries

theorem Clause.occurrences_below (c : Clause) (plain : c.kind ∉ [.constant, .param, .builtin, .cast, .assign]) :
    c.occurrences = c.written.flatMap occurrences ++ c.query?.toList.flatMap Select.occurrences := by
  cases c with
  | constant | param | builtin | cast | assign => simp [kind] at plain
  | aggregate fn arg distinct => cases arg <;> simp [occurrences, written, operands, query?]
  | inList subject items negated => cases items <;> simp [occurrences, written, query?, occurrencesAll_eq]
  | _ => simp [occurrences, written, operands, query?, occurrencesAll_eq]

/-- the pieces of clauses and selects hold their occurrences, by induction on the tree -/
theorem pieces_carry (d : Dialect) :
    (∀ c : Clause, Carries (c.pieces d) c.occurrences) ∧ ∀ s : Select, Carries (s.pieces d) s.occurrences := by
  have hC := Carries.gathers
  refine Clause.operandInduction (fun c operands query => ?_) fun s clauses => ?_
  · cases c with
    | constant v =>
      rw [Clause.pieces, Clause.occurrences]
      split
      · exact hC.text "NULL"
      · exact .value _
    | param p => exact .value _
    | builtin fn => exact Carries.builtin fn
    | cast c type =>
      have subject := operands c List.mem_cons_self
      exact Carries.ofResult _ fun name => hC.opened _ (hC.closed _ (hC.asValue c subject))
    | assign t v =>
      have value := operands v (by simp [Clause.operands])
      exact hC.joined _ (Carries.columnName t) (hC.asValue v value)
    | _ =>
      rw [Clause.occurrences_below _ (by simp [Clause.kind])]
      exact hC.clause _ operands query (by simp [Clause.kind])
  · rw [Select.occurrences_eq, ← List.nil_append (List.flatMap ..)]
    exact hC.select (Carries.limitFault s.limit) (.act _) (.act _) (fun _ _ h => .frame _ _ h) clauses

namespace Piece.Carries

variable {d : Dialect}

theorem clause (c : Clause) : Carries (c.pieces d) c.occurrences := (pieces_carry d).1 c

theorem select (s : Select) : Carries (s.pieces d) s.occurrences := (pieces_carry d).2 s

theorem existence (asked : Bool) (context words : String) : Carries (Piece.existence d asked context words) [] := by
  cases asked with
  | false => exact gathers.nil
  | true => exact ofResult _ fun _ => gathers.text _

theorem columnDef (c : ColumnDef) : Carries (Piece.columnDef d c) [] :=
  gathers.append (gathers.ident c.name) (gathers.opened " " (ofResult _ fun _ => gathers.text _))

theorem result (e : Exec) (placed : Bool) :
    Carries (e.returns.toList.map fun p => .value (.param p .result placed)) (e.receiver placed) := by
  unfold Exec.receiver
  cases e.returns with
  | none => exact gathers.nil
  | some p => exact value _

theorem statement (inside : Bool) (s : Statement) : Carries (s.pieces d inside) (s.occurrences d) := by
  cases s with
  | select s => exact select s
  | insert i =>
    rw [Statement.occurrences, Clause.occurrencesAll_eq]
    refine gathers.insert (gathers.separated ", " fun c _ => columnName c) ?_
    cases i.source with
    | none =>
      rw [Clause.occurrencesAll_eq]
      exact gathers.list ", " fun c _ => clause c
    | some query => exact select query
  | update u =>
    rw [Statement.occurrences, Clause.occurrencesAll_eq, Clause.occurrencesOption_eq]
    exact gathers.update (fun c _ => clause c) fun c _ => clause c
  | delete s =>
    rw [Statement.occurrences, Clause.occurrencesOption_eq]
    exact gathers.delete fun c _ => clause c
  | exec e =>
    rw [Statement.occurrences, Clause.occurrencesAll_eq]
    exact gathers.exec inside (fun c _ => clause c) (result e)
  | createTable t =>
    have carried : Carries (Piece.createTable d t) ([] ++ t.columns.flatMap fun _ => []) :=
      gathers.createTable (existence t.ifNotExists _ _) fun c _ => columnDef c
    rwa [List.flatMap_eq_nil_iff.2 fun _ _ => rfl] at carried
  | dropTable t => exact gathers.dropTable (existence t.ifExists _ _)

/-- A member of a script that defines a table is given as a literal, and has no parameters to begin with. -/
theorem definition {s : Statement} (hs : s.isDefinition) :
    Carries (Piece.ofResult (Writing.standaloneText d s) fun t => [.text "EXECUTE IMMEDIATE ", .literal t, .text ";\n"])
      (s.occurrences d) := by
  have empty : s.occurrences d = [] := by cases s <;> first | rfl | cases hs
  rw [empty]
  exact ofResult _ fun t => gathers.opened _ (gathers.closed _ (gathers.literal t))

/-- **The pieces of a query hold its occurrences**, in the order of the text. -/
theorem query (q : Query) : Carries (q.pieces d) (q.occurrences d) := by
  cases q with
  | single s =>
    rw [Query.occurrences, Query.statements, List.flatMap_singleton]
    exact statement false s
  | script members =>
    refine ofResult _ fun _ => ?_
    cases d.scripts with
    | sequence => exact gathers.sequence fun s _ => statement true s
    | block => exact gathers.block (fun s _ => statement true s) fun _ _ => definition

end Piece.Carries

end SqlTree
