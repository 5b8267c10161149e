/-
What a statement asks of its dialect.

`Query.demands` lists, in the order of the text, what not every dialect can write: constructs, last generated keys
without the name of a sequence, and assignments to something other than a column. The subject of an empty list asks
for nothing, for it is not written.

- `Demand.refusal?`: the error of a dialect that cannot give what is asked for.
- `Piece.Refuses.query`: in every relation in which faults stand for refusals, the pieces of a
  query go with its demands.
- `Piece.Meets.query`: the first refusal of a query is the first fault of its pieces.
-/
import SqlTree.Proofs.Rendering.Outcome

namespace SqlTree

/-- something that not every dialect can write -/
inductive Demand where
  /-- a construct, and where it is needed -/
  | construct (needed : Capability) (context : String)
  /-- the last generated key, of whatever sequence -/
  | lastKey
  /-- an assignment to a clause of this sort -/
  | assignment (target : ClauseKind)
  deriving DecidableEq

/-- the error of a dialect that cannot give what is asked for -/
def Demand.refusal? (d : Dialect) : Demand → Option Error
  | .construct needed context => if d.supports needed then none else some (.capability d.name needed context)
  | .lastKey =>
    match d.builtins.lastId with
    | .ofSequence none _ => some (.render d.name .sequenceNeeded)
    | _ => none
  | .assignment target => if target = .field then none else some (.render d.name (.notColumn target))

def Builtin.demands : Builtin → List Demand
  | .currentDate | .currentTimestamp | .lastId (some _) => []
  | .lastId none => [.lastKey]
  | .nextId _ => [.construct .sequences "next-id"]

def RowLimit.demand (l : RowLimit) : Demand := .construct l.capability (l.describe ++ " on select")

mutual

/-- what a clause asks for -/
def Clause.demands : Clause → List Demand
  | .field .. | .allFields .. | .constant .. | .param .. | .table .. => []
  | .builtin fn => fn.demands
  | .anyRow query | .subQuery query => query.demands
  | .compare left _ right | .logic left _ right | .calc left _ right => left.demands ++ right.demands
  | .join _ target condition => target.demands ++ condition.demands
  | .assign target value => .assignment target.kind :: target.demands ++ value.demands
  | .inList subject items _ => if items.isEmpty then [] else subject.demands ++ Clause.demandsAll items
  | .between subject low high => subject.demands ++ low.demands ++ high.demands
  | .function _ args => Clause.demandsAll args
  | .concat parts => Clause.demandsAll parts
  | .aggregate _ none _ => []
  | .aggregate _ (some arg) _ => arg.demands
  | .cast subject type => .construct (.dataType type) "column type" :: subject.demands
  | .isNull subject _ | .not subject | .aliased subject _ | .order subject _ => subject.demands

def Clause.demandsAll : List Clause → List Demand
  | [] => []
  | c :: cs => c.demands ++ Clause.demandsAll cs

def Clause.demandsOption : Option Clause → List Demand
  | none => []
  | some c => c.demands

def Select.demands : Select → List Demand
  | .mk _ limit fields sources filter groupBy having orderBy =>
    limit.toList.map RowLimit.demand ++ (Clause.demandsAll fields ++ Clause.demandsAll sources
      ++ Clause.demandsOption filter ++ Clause.demandsAll groupBy ++ Clause.demandsOption having
      ++ Clause.demandsAll orderBy)

end

/-- what a condition on the existence of a table asks for -/
def existenceDemands (asked : Bool) (context : String) : List Demand :=
  if asked then [.construct .existenceCheck context] else []

def ColumnDef.demand (c : ColumnDef) : Demand := .construct (.dataType c.type) "column type"

def Statement.demands : Statement → List Demand
  | .select s => s.demands
  | .insert i =>
    Clause.demandsAll i.columns ++ (Clause.demandsAll i.values ++ (i.source.map Select.demands).getD [])
  | .update u => Clause.demandsAll u.assignments ++ Clause.demandsOption u.filter
  | .delete s => Clause.demandsOption s.filter
  | .exec e => Clause.demandsAll e.args
  | .createTable t => existenceDemands t.ifNotExists "create table if not exists" ++ t.columns.map ColumnDef.demand
  | .dropTable t => existenceDemands t.ifExists "drop table if exists"

def Query.demands : Query → List Demand
  | .single s => s.demands
  | .script members => .construct .scripts "script" :: members.flatMap Statement.demands

theorem Clause.demandsAll_eq (cs : List Clause) : Clause.demandsAll cs = cs.flatMap Clause.demands := by
  induction cs with
  | nil => rfl
  | cons c cs ih => rw [Clause.demandsAll, ih, List.flatMap_cons]

theorem Clause.demandsOption_eq (o : Option Clause) : Clause.demandsOption o = o.toList.flatMap Clause.demands := by
  cases o with
  | none => rfl
  | some c => rw [Clause.demandsOption, Option.toList_some, List.flatMap_singleton]

theorem Clause.demands_below (c : Clause) (plain : c.kind ∉ [.constant, .param, .builtin, .cast, .assign]) :
    c.demands = c.written.flatMap demands ++ c.query?.toList.flatMap Select.demands := by
  cases c with
  | constant | param | builtin | cast | assign => simp [kind] at plain
  | aggregate fn arg distinct => cases arg <;> simp [demands, written, operands, query?]
  | inList subject items negated => cases items <;> simp [demands, written, query?, demandsAll_eq]
  | _ => simp [demands, written, operands, query?, demandsAll_eq]

/-- A select asks for its row limit, and for what its clauses ask for. -/
theorem Select.demands_eq (s : Select) :
    s.demands = s.limit.toList.map RowLimit.demand ++ s.clauses.flatMap Clause.demands := by
  cases s
  simp [demands, clauses, limit, Clause.demandsAll_eq, Clause.demandsOption_eq]

/-! ## Inserts -/

/-- an insert whose columns are columns, and whose rows come from one place -/
structure Insert.Regular (i : Insert) : Prop where
  columns : ∀ c ∈ i.columns, c.kind = .field
  values : i.source ≠ none → i.values = []

/-- a query whose inserts are regular -/
def Query.Regular (q : Query) : Prop := ∀ i, .insert i ∈ q.statements → i.Regular

theorem Query.Regular.of_ne {s : Statement} (h : ∀ i, s ≠ .insert i) : (Query.single s).Regular := fun i hi =>
  absurd (List.mem_singleton.1 hi).symm (h i)

/-! ## Faults are refusals -/

/-- hooks that write text, but for those that set the text in front of a select aside and put it back behind it -/
structure SelectHooks.Orderly (hooks : SelectHooks) : Prop where
  heading : ∀ s, ∀ a ∈ hooks.heading s, ∃ t, a = .write t
  trailing : ∀ s, ∀ a ∈ hooks.trailing s, ∃ t, a = .write t
  frame : ∀ s, hooks.opening s = [] ∧ hooks.closing s = [] ∨
    hooks.opening s = [.beginStaging] ∧ ∃ wrap, hooks.closing s = [.endStaging wrap]

/-- a relation between pieces and demands in which a fault stands for what a dialect refuses -/
structure Piece.Refuses (d : Dialect) (C : List Piece → List Demand → Prop) : Prop extends Gathers C where
  value : ∀ o, C [.value o] []
  /-- a fault in the place of what is asked for next -/
  stop : ∀ {x e ds}, x.refusal? d = some e → C [.stop e] (x :: ds)
  /-- something is asked for that the dialect does not refuse -/
  given : ∀ {x xs ds}, x.refusal? d = none → C xs ds → C xs (x :: ds)

/-- a relation between pieces and demands that the hooks of a dialect have no part in -/
structure Piece.IgnoresHooks (d : Dialect) (C : List Piece → List Demand → Prop) : Prop where
  heading : ∀ s, C ((d.hooks.heading s).map .act) []
  trailing : ∀ s, C ((d.hooks.trailing s).map .act) []
  frame : ∀ s xs ds, C xs ds → C [.frame (d.hooks.opening s) xs (d.hooks.closing s)] ds

namespace Piece.Refuses

variable {d : Dialect} {C : List Piece → List Demand → Prop} (hC : Refuses d C) {xs : List Piece} {ds : List Demand}

include hC

/-- What is refused first is the fault that stands for all. -/
theorem stopped {e : Error} (h : ds.findSome? (Demand.refusal? d) = some e) : C [.stop e] ds := by
  induction ds with
  | nil => cases h
  | cons x ds ih =>
    rw [List.findSome?_cons] at h
    cases hx : x.refusal? d with
    | none =>
      rw [hx] at h
      exact hC.given hx (ih h)
    | some e' =>
      rw [hx] at h
      cases h
      exact hC.stop hx

/-- Where nothing is refused, what is asked for leaves no trace. -/
theorem met (h : ds.findSome? (Demand.refusal? d) = none) (hx : C xs []) : C xs ds := by
  induction ds with
  | nil => exact hx
  | cons x ds ih =>
    rw [List.findSome?_eq_none_iff, List.forall_mem_cons] at h
    exact hC.given h.1 (ih (List.findSome?_eq_none_iff.2 h.2))

/-- A construct is asked for, and what needs it is written behind that. -/
theorem needing (needed : Capability) (context : String) (h : C xs ds) :
    C (Piece.ofResult (d.require needed context) fun _ => xs) (.construct needed context :: ds) := by
  cases hs : d.supports needed with
  | true =>
    simp only [Dialect.require, hs, if_true]
    exact hC.given (by simp [Demand.refusal?, hs]) h
  | false =>
    simp only [Dialect.require, hs, Bool.false_eq_true, if_false]
    exact hC.stop (by simp [Demand.refusal?, hs])

/-- A data type is asked for, and its name is written behind that. -/
theorem typed (type : DataType) {pieces : String → List Piece} (h : ∀ name, C (pieces name) ds) :
    C (Piece.ofResult (d.nativeType type) pieces) (.construct (.dataType type) "column type" :: ds) := by
  rcases ht : d.typeName type with _ | name
  · simp only [Dialect.nativeType, ht]
    exact hC.stop (by simp [Demand.refusal?, Dialect.supports, ht])
  · simp only [Dialect.nativeType, ht]
    exact hC.given (by simp [Demand.refusal?, Dialect.supports, ht]) (h name)

theorem limitFault (limit : Option RowLimit) : C (Piece.limitFault d limit) (limit.toList.map RowLimit.demand) := by
  cases limit with
  | none => exact hC.nil
  | some limit => exact hC.needing _ _ hC.nil

theorem builtin (fn : Builtin) : C (Piece.builtin d fn) fn.demands := by
  cases fn with
  | currentDate => exact hC.text _
  | currentTimestamp => exact hC.text _
  | lastId sequence =>
    cases sequence with
    | none =>
      rcases hl : d.builtins.lastId with call | ⟨_ | call, spelling⟩
      · simp only [Piece.builtin, hl]
        exact hC.given (by simp [Demand.refusal?, hl]) (hC.text _)
      · simp only [Piece.builtin, hl]
        exact hC.stop (by simp [Demand.refusal?, hl])
      · simp only [Piece.builtin, hl]
        exact hC.given (by simp [Demand.refusal?, hl]) (hC.text _)
    | some name =>
      rcases hl : d.builtins.lastId with call | ⟨without, spelling⟩
      · simp only [Piece.builtin, hl]
        exact hC.text _
      · simp only [Piece.builtin, hl]
        exact hC.sequenceCall name spelling
  | nextId sequence => exact hC.needing _ _ (hC.sequenceCall sequence _)

/-- A column to assign to is a name, and anything else there is refused. -/
theorem columnName (c : Clause) : C (Piece.columnName d c) (.assignment c.kind :: c.demands) := by
  cases c with
  | field of name => exact hC.given rfl (hC.ident name)
  | _ => exact hC.stop rfl

theorem plainColumn {c : Clause} (hc : c.kind = .field) : C (Piece.columnName d c) c.demands := by
  cases c with
  | field of name => exact hC.ident name
  | _ => cases hc

theorem existence (asked : Bool) (context words : String) :
    C (Piece.existence d asked context words) (existenceDemands asked context) := by
  cases asked with
  | false => exact hC.nil
  | true => exact hC.needing _ _ (hC.text words)

theorem columnDef (c : ColumnDef) : C (Piece.columnDef d c) [c.demand] :=
  hC.append (hC.ident c.name) (hC.opened " " (hC.typed c.type fun _ => hC.text _))

/-- A clause goes by what is right below it: a select there need not be looked into. -/
theorem clause_of_operands (c : Clause) (operands : ∀ x ∈ c.operands, C (x.pieces d) x.demands)
    (query : ∀ s ∈ c.query?, C (s.pieces d) s.demands) : C (c.pieces d) c.demands := by
  cases c with
  | constant v =>
    rw [Clause.pieces]
    split
    · exact hC.text "NULL"
    · exact hC.value _
  | param p => exact hC.value _
  | builtin fn => exact hC.builtin fn
  | cast c type =>
    have subject := operands c List.mem_cons_self
    exact hC.typed type fun name => hC.opened _ (hC.closed _ (hC.asValue c subject))
  | assign t v =>
    have value := operands v (by simp [Clause.operands])
    exact hC.joined _ (hC.columnName t) (hC.asValue v value)
  | _ =>
    rw [Clause.demands_below _ (by simp [Clause.kind])]
    exact hC.clause _ operands query (by simp [Clause.kind])

/-- Faults in the pieces of clauses and selects stand for what they ask for, by induction on the tree. -/
theorem tree (hooks : IgnoresHooks d C) :
    (∀ c : Clause, C (c.pieces d) c.demands) ∧ ∀ s : Select, C (s.pieces d) s.demands := by
  refine Clause.operandInduction hC.clause_of_operands fun s clauses => ?_
  rw [s.demands_eq]
  exact hC.select (hC.limitFault s.limit) (hooks.heading s) (hooks.trailing s) (hooks.frame s) clauses

/-- What defines a table holds no select, so no hook is called. -/
theorem tableDefinition {s : Statement} (hs : s.isDefinition) (inside : Bool) : C (s.pieces d inside) s.demands := by
  cases s with
  | createTable t =>
    rw [Statement.demands, List.map_eq_flatMap]
    exact hC.createTable (hC.existence t.ifNotExists _ _) fun c _ => hC.columnDef c
  | dropTable t => exact hC.dropTable (hC.existence t.ifExists _ _)
  | _ => cases hs

theorem statement (hooks : IgnoresHooks d C) (inside : Bool) {s : Statement}
    (regular : ∀ i, s = .insert i → i.Regular) : C (s.pieces d inside) s.demands := by
  obtain ⟨clause, select⟩ := hC.tree hooks
  cases s with
  | select s => exact select s
  | insert i =>
    obtain ⟨columns, values⟩ := regular i rfl
    rw [Statement.demands, Clause.demandsAll_eq]
    refine hC.insert (hC.separated ", " fun c hc => hC.plainColumn (columns c hc)) ?_
    rw [Clause.demandsAll_eq]
    cases hs : i.source with
    | none =>
      rw [Option.map_none, Option.getD_none, List.append_nil]
      exact hC.list ", " fun c _ => clause c
    | some query =>
      rw [values (by simp [hs])]
      exact select query
  | update u =>
    rw [Statement.demands, Clause.demandsAll_eq, Clause.demandsOption_eq]
    exact hC.update (fun c _ => clause c) fun c _ => clause c
  | delete s =>
    rw [Statement.demands, Clause.demandsOption_eq]
    exact hC.delete fun c _ => clause c
  | exec e =>
    rw [Statement.demands, Clause.demandsAll_eq]
    have result : ∀ placed, C (e.returns.toList.map fun p => .value (.param p .result placed)) [] := by
      intro placed
      cases e.returns with
      | none => exact hC.nil
      | some p => exact hC.value _
    have call := hC.exec inside (fun c _ => clause c) result
    cases hc : d.calls with
    | call =>
      rw [hc, List.append_nil] at call
      exact call
    | exec =>
      rw [hc] at call
      exact call
    | block =>
      rw [hc] at call
      exact call
  | createTable t => exact hC.tableDefinition rfl inside
  | dropTable t => exact hC.tableDefinition rfl inside

end Piece.Refuses

/-- the hooks in the pieces belong together, and what is refused first is the first fault -/
structure Piece.Meets (d : Dialect) (xs : List Piece) (ds : List Demand) : Prop where
  orderly : OrderlyAll xs
  first : (faults xs).head? = ds.findSome? (Demand.refusal? d)

open Piece (Meets Refuses IgnoresHooks)

namespace Piece.Meets

variable {d : Dialect}

theorem refuses (d : Dialect) : Refuses d (Meets d) where
  nil := ⟨trivial, rfl⟩
  text _ := ⟨⟨trivial, trivial⟩, rfl⟩
  ident _ := ⟨⟨trivial, trivial⟩, rfl⟩
  literal _ := ⟨⟨trivial, trivial⟩, rfl⟩
  append {xs ys ds ds'} hx hy := by
    refine ⟨orderlyAll_append.2 ⟨hx.orderly, hy.orderly⟩, ?_⟩
    rw [faults_append, List.head?_append, hx.first, hy.first, List.findSome?_append]
  value _ := ⟨⟨trivial, trivial⟩, rfl⟩
  stop {x e ds} h := by
    refine ⟨⟨trivial, trivial⟩, ?_⟩
    rw [List.findSome?_cons, h]
    rfl
  given {x xs ds} hx h := by
    refine ⟨h.orderly, ?_⟩
    rw [List.findSome?_cons, hx]
    exact h.first

theorem acts {actions : List HookAction} (h : ∀ a ∈ actions, ∃ t, a = .write t) : Meets d (actions.map .act) [] := by
  induction actions with
  | nil => exact (refuses d).nil
  | cons a actions ih =>
    have first : Meets d [.act a] [] := ⟨⟨h a List.mem_cons_self, trivial⟩, rfl⟩
    exact (refuses d).append first (ih fun a' ha' => h a' (List.mem_cons_of_mem a ha'))

theorem ignoresHooks (hooks : d.hooks.Orderly) : IgnoresHooks d (Meets d) where
  heading s := acts (hooks.heading s)
  trailing s := acts (hooks.trailing s)
  frame s xs ds h := by
    refine ⟨⟨⟨hooks.frame s, h.orderly⟩, trivial⟩, ?_⟩
    rw [← h.first]
    exact congrArg List.head? (List.append_nil (faults xs))

end Piece.Meets

/-- A definition of a table that is written by itself ends with what is refused first. -/
theorem standaloneText_eq {d : Dialect} {s : Statement} (hs : s.isDefinition) :
    match s.demands.findSome? (Demand.refusal? d) with
    | some e => Writing.standaloneText d s = .error e
    | none => ∃ t, Writing.standaloneText d s = .ok t := by
  have meets : Meets d (s.pieces d false) s.demands := (Meets.refuses d).tableDefinition hs false
  have silent : s.occurrences d = [] := by cases s <;> first | rfl | cases hs
  have known : Piece.Known d (s.pieces d false) [] := by
    intro o ho
    have occurs := (Piece.Carries.statement false s).some.subset ho
    rw [silent] at occurs
    cases occurs
  have ends := Piece.playAll_ends meets.orderly (fun _ h => by cases h) known (s := Pass.start fun _ _ => .null)
  have alone : (Writing.statement d s).run (Pass.start fun _ _ => .null)
      = (Piece.playAll d (s.pieces d false)).run (Pass.start fun _ _ => .null) := statement_eq_play d s _
  rw [meets.first] at ends
  rw [Writing.standaloneText, alone]
  cases hr : s.demands.findSome? (Demand.refusal? d) with
  | none =>
    rw [hr] at ends
    obtain ⟨t, ht, -⟩ := ends
    rw [ht]
    exact ⟨t.text, rfl⟩
  | some e =>
    rw [hr] at ends
    rcases ht : (Piece.playAll d (s.pieces d false)).run (Pass.start fun _ _ => .null) with ⟨e' | _, t⟩
    · rw [Writing.Ends, ht] at ends
      cases ends
      rfl
    · rw [Writing.Ends, ht] at ends
      cases ends

namespace Piece.Refuses

variable {d : Dialect} {C : List Piece → List Demand → Prop} (hC : Refuses d C)

include hC

/-- A member of a script that defines a table is written by itself, and ends as it would in its place. -/
theorem definition {s : Statement} (hs : s.isDefinition) :
    C (Piece.ofResult (Writing.standaloneText d s) fun t => [.text "EXECUTE IMMEDIATE ", .literal t, .text ";\n"])
      s.demands := by
  have alone := standaloneText_eq (d := d) hs
  cases hr : s.demands.findSome? (Demand.refusal? d) with
  | none =>
    rw [hr] at alone
    obtain ⟨t, ht⟩ := alone
    rw [ht]
    exact hC.met hr (hC.opened _ (hC.closed _ (hC.literal t)))
  | some e =>
    rw [hr] at alone
    rw [alone]
    exact hC.stopped hr

/-- **Faults in the pieces of a query stand for what it asks for.** -/
theorem query (hooks : IgnoresHooks d C) {q : Query} (regular : q.Regular) : C (q.pieces d) q.demands := by
  cases q with
  | single s => exact hC.statement hooks false fun i hi => regular i (hi ▸ List.mem_singleton.2 rfl)
  | script members =>
    have member : ∀ s ∈ members, C (s.pieces d true) s.demands := fun s hs =>
      hC.statement hooks true fun i hi => regular i (hi ▸ hs)
    refine hC.needing _ _ ?_
    cases d.scripts with
    | sequence => exact hC.sequence member
    | block => exact hC.block member fun _ _ => hC.definition

end Piece.Refuses

/-- The first refusal of a query is the first fault of its pieces, if the hooks of the dialect belong together. -/
theorem Piece.Meets.query {d : Dialect} (hooks : d.hooks.Orderly) {q : Query} (regular : q.Regular) :
    Meets d (q.pieces d) q.demands := (Meets.refuses d).query (Meets.ignoresHooks hooks) regular

/-- **A query is written or fails with its first refusal.** Nothing else goes wrong while it is written. -/
theorem render_eq_refused {d : Dialect} (hooks : d.hooks.Orderly) {q : Query} (regular : q.Regular) (supply : Supply) :
    match q.demands.findSome? (Demand.refusal? d) with
    | some e => (render d q supply).result = .error e
    | none => ∃ r, (render d q supply).result = .ok r := by
  have meets := Meets.query hooks regular
  have ends := Query.played_ends meets.orderly supply
  rw [meets.first] at ends
  rw [render_eq_played, Query.played]
  cases hr : q.demands.findSome? (Demand.refusal? d) with
  | some e =>
    rw [hr, Writing.Ends] at ends
    simp only [ends]
    rfl
  | none =>
    rw [hr] at ends
    obtain ⟨t, ht, -⟩ := ends
    simp only [ht]
    exact ⟨_, rfl⟩

end SqlTree
