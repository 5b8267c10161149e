/-
Operands have the roles that are asked of them, throughout what is built.

The rules for operands are checked when a section takes a clause. The check stops at the selects inside it and lets
every alias pass, so what it leaves out has to hold from the start: a clause is made if each alias in it was given to
what may have one and each select in it was built.

- `Clause.Made`, `Select.Made`: clauses made with the constructors, and selects built from them.
- `Section.Step.made`: an operation leaves made clauses if it is given such.
- `Part.RolesHold`: operands, conditions, subjects of aliases and whole predicates are of the sort that is asked for.
- `Query.Composed.roles_hold`: so they are at every part of a composed query, and no predicate that was added is lost.
-/
import SqlTree.Proofs.Statement.Grown
import SqlTree.Proofs.Statement.Parts

namespace SqlTree

open Section (Fills)

/-! ## Made clauses -/

mutual

/-- a clause whose operands were made and whose select was, and which is an alias only by being given one -/
inductive Clause.Made : Clause → Prop
  | node {c : Clause} (plain : c.isAliased = false) (operands : ∀ x ∈ c.operands, Clause.Made x)
    (query : ∀ s ∈ c.query?, Select.Made s) : Clause.Made c
  | named {subject c : Clause} {name : String} (made : Clause.Made subject) (named : subject.withAlias name = .ok c) :
    Clause.Made c

/-- a select that was built from made clauses, and may have been extended by joins of such -/
inductive Select.Made : Select → Prop
  | built {steps : List SelectStep} {s : Select} (built : SelectDraft.build steps = .ok s)
    (clauses : ∀ b ∈ steps, ∀ c ∈ b.given, Clause.Made c) : Select.Made s
  | joined {s s' : Select} {kind : JoinKind} {target condition : Clause} (made : Select.Made s)
    (joined : (Query.single (.select s)).addJoin kind target condition = .ok (.single (.select s')))
    (clause : Clause.Made (.join kind target condition)) : Select.Made s'

end

namespace Clause.Made

variable {c x : Clause}

theorem operand (h : c.Made) (hx : x ∈ c.operands) : x.Made := by
  cases h with
  | node _ operands _ => exact operands x hx
  | named made named =>
    obtain ⟨-, rfl⟩ := withAlias_eq_ok named
    rwa [List.mem_singleton.1 hx]

theorem select {s : Select} (h : c.Made) (hs : s ∈ c.query?) : s.Made := by
  cases h with
  | node _ _ query => exact query s hs
  | named _ named =>
    obtain ⟨-, rfl⟩ := withAlias_eq_ok named
    cases hs

theorem aliasable {subject : Clause} {name : String} (h : (Clause.aliased subject name).Made) :
    subject.isAliasable = true := by
  cases h with
  | node plain => cases plain
  | named _ named =>
    obtain ⟨aliasable, same⟩ := withAlias_eq_ok named
    cases same
    exact aliasable

theorem aliased {subject : Clause} (h : subject.Made) (aliasable : subject.isAliasable = true) (name : String) :
    (Clause.aliased subject name).Made :=
  .named h (withAlias_of_isAliasable aliasable name)

theorem leaf (operands : c.operands = []) (query : c.query? = none) : c.Made := by
  have plain : c.isAliased = false := by cases c <;> first | rfl | cases operands
  exact .node plain (by simp [operands]) (by simp [query])

/-- A clause that is no alias and holds no select asks for made operands only. -/
theorem of_operands (plain : c.isAliased = false) (query : c.query? = none) (operands : ∀ x ∈ c.operands, x.Made) :
    c.Made := .node plain operands (by simp [query])

theorem logic {left right : Clause} (hl : left.Made) (op : Connective) (hr : right.Made) :
    (Clause.logic left op right).Made :=
  .of_operands rfl rfl (List.forall_mem_cons.2 ⟨hl, List.forall_mem_singleton.2 hr⟩)

theorem arith {left right : Clause} (hl : left.Made) (op : Arithmetic) (hr : right.Made) :
    (Clause.calc left op right).Made :=
  .of_operands rfl rfl (List.forall_mem_cons.2 ⟨hl, List.forall_mem_singleton.2 hr⟩)

end Clause.Made

/-! ## Sections -/

namespace Section

variable {kind : SectionKind} {s t : Section} {e : SectionEdit} {c : Clause}

/-- Arithmetic extends the subject of an alias, and may have that alias in its place. -/
theorem made_withArithmeticPart (h : c.Made) {operand : Clause} (ho : operand.Made) (op : Arithmetic) :
    (withArithmeticPart c (.calc (arithmeticPart c) op operand)).Made := by
  cases c with
  | assign target value =>
    have ht : target.Made := h.operand (by simp [Clause.operands])
    have hv : value.Made := h.operand (by simp [Clause.operands])
    exact .of_operands rfl rfl (List.forall_mem_cons.2 ⟨ht, List.forall_mem_singleton.2 (hv.arith op ho)⟩)
  | order subject direction =>
    have hs : subject.Made := h.operand (List.mem_singleton_self subject)
    exact .of_operands rfl rfl (List.forall_mem_singleton.2 (hs.arith op ho))
  | aliased subject name =>
    have hs : subject.Made := h.operand (List.mem_singleton_self subject)
    exact (hs.arith op ho).aliased rfl name
  | _ => exact h.arith op ho

/-- **An operation leaves made clauses**, if it is given such. -/
theorem Step.made (step : Step s e t) (clauses : ∀ c ∈ given s.kind e, c.Made) (h : ∀ c ∈ s.items, c.Made) :
    ∀ c ∈ t.items, c.Made := by
  have joined : ∀ {op : Connective} {c : Clause}, c.Made → ∀ x ∈ (s.joinOn op c).items, x.Made := by
    intro op c made x hx
    rcases mem_joinOn hx with hx | rfl | ⟨before, there, rfl⟩
    · exact h x hx
    · exact made
    · exact (h before there).logic op made
  have changed : ∀ {c : Clause} {i : Nat}, c.Made → ∀ x ∈ s.items.set i c, x.Made := by
    intro c i made x hx
    rcases List.mem_or_eq_of_mem_set hx with hx | rfl
    · exact h x hx
    · exact made
  cases step with
  | @push c checked taken =>
    have made := clauses (admitted s.kind c) (List.mem_singleton_self _)
    rw [taking]
    split
    · rename_i boolean
      rw [admitted_of_isBoolean boolean] at made
      exact joined made
    · exact List.forall_mem_append.2 ⟨h, List.forall_mem_singleton.2 made⟩
  | @combine op c boolean checked taken => exact joined (clauses c (List.mem_singleton_self c))
  | @aliasAs name i c here found allowed =>
    exact changed ((h c (List.mem_of_getElem? found)).aliased (isAliasable_of_takesAlias allowed) name)
  | @«calc» op operand c i checked here found left right =>
    have made := clauses operand (List.mem_singleton_self operand)
    exact changed (made_withArithmeticPart (h c (List.mem_of_getElem? found)) made op)
  | finish => exact h

theorem Grown.made (h : s.Grown Clause.Made) : ∀ c ∈ s.items, c.Made := by
  induction h with
  | empty kind => nofun
  | step _ step _ clauses ih => exact step.made clauses ih

end Section

/-- A made select is grown from made clauses, by induction on the joins that were added to it. -/
theorem Select.Made.grown {s : Select} : s.Made → s.Grown Clause.Made
  | .built steps clauses => .of_build steps clauses
  | .joined before join clause => before.grown.addJoin join clause

/-! ## Roles -/

/-- the predicates of a statement are predicates -/
def Statement.Filtered : Statement → Prop
  | .select s => (∀ c ∈ s.filter, c.isPredicate = true) ∧ ∀ c ∈ s.having, c.isPredicate = true
  | .update u => ∀ c ∈ u.filter, c.isPredicate = true
  | .delete d => ∀ c ∈ d.filter, c.isPredicate = true
  | _ => True

/-- what stands right below a part of a statement is of the sort that is asked for there -/
def Part.RolesHold : Part → Prop
  | .clause c => c.OperandsFit ∧ ∀ subject name, c = .aliased subject name → subject.isAliasable = true
  | .statement s => s.Filtered
  | .column _ => True

theorem Section.Fills.predicates {P : Clause → Prop} {kind : SectionKind} {o : Option Clause}
    (h : Fills P kind o.toList) (boolean : kind.isBoolean = true) : ∀ c ∈ o, c.isPredicate = true := fun c hc =>
  h.isPredicate boolean c (Option.mem_toList.2 hc)

/-- Roles hold throughout made clauses that obey the rules for operands, and throughout made selects. Below a clause the
rules are obeyed because they were checked throughout it; in a select its own sections saw to that. -/
theorem Clause.Made.parts_hold :
    (∀ c : Clause, c.Made ∧ c.check = .ok () → ∀ p ∈ c.parts, p.RolesHold)
      ∧ ∀ s : Select, s.Grown Clause.Made → ∀ p ∈ s.parts, p.RolesHold := by
  refine Clause.operandInduction (fun c operands query ⟨made, checked⟩ => ?_) fun s clauses grown => ?_
  · obtain ⟨fit, below⟩ := (Clause.check_eq_ok_iff c).1 checked
    have own : (Part.clause c).RolesHold := ⟨fit, fun subject name same => (same ▸ made).aliasable⟩
    rw [Clause.parts_eq]
    refine List.forall_mem_append.2 ⟨List.forall_mem_cons.2 ⟨own, ?_⟩, ?_⟩
    · exact List.forall_mem_flatMap.2 fun x hx => operands x hx ⟨made.operand hx, below x hx⟩
    · refine List.forall_mem_flatMap.2 fun s hs => ?_
      exact query s (Option.mem_toList.1 hs) (made.select (Option.mem_toList.1 hs)).grown
  · have each := grown.clauses (R := fun c => c.Made ∧ c.check = .ok ()) fun _ _ fills c hc =>
      ⟨fills.made c hc, fills.checked c hc⟩
    rw [Select.parts_eq]
    refine List.forall_mem_cons.2 ⟨⟨grown.filter.predicates rfl, grown.having.predicates rfl⟩, ?_⟩
    exact List.forall_mem_flatMap.2 fun c hc => clauses c hc (each c hc)

theorem Section.Fills.parts_hold {kind : SectionKind} {items : List Clause} (h : Fills Clause.Made kind items) :
    ∀ p ∈ items.flatMap Clause.parts, p.RolesHold :=
  List.forall_mem_flatMap.2 fun c hc => Clause.Made.parts_hold.1 c ⟨h.made c hc, h.checked c hc⟩

/-- Roles hold throughout a statement whose sections are grown from made clauses. -/
theorem Statement.Grown.parts_hold {s : Statement} (h : s.Grown Clause.Made Select.Made) :
    ∀ p ∈ s.parts, p.RolesHold := by
  have column : ∀ c : Clause, c.kind = .field → ∀ p ∈ c.parts, p.RolesHold := by
    intro c kind
    cases c with
    | field table name => exact Clause.Made.parts_hold.1 _ ⟨.leaf rfl rfl, rfl⟩
    | _ => cases kind
  cases s with
  | select s => exact Clause.Made.parts_hold.2 s h
  | insert i =>
    obtain ⟨columns, values, source⟩ := h
    rw [Statement.parts, List.flatMap_append]
    refine List.forall_mem_append.2 ⟨List.forall_mem_cons.2 ⟨trivial, List.forall_mem_append.2 ⟨?_, ?_⟩⟩, ?_⟩
    · exact List.forall_mem_flatMap.2 fun c hc => column c (columns c hc)
    · exact values.parts_hold
    · refine List.forall_mem_flatMap.2 fun s hs => ?_
      exact Clause.Made.parts_hold.2 s (source s (Option.mem_toList.1 hs)).grown
  | update u =>
    obtain ⟨assignments, filter⟩ := h
    rw [Statement.parts, List.flatMap_append]
    refine List.forall_mem_cons.2 ⟨filter.predicates rfl, ?_⟩
    exact List.forall_mem_append.2 ⟨assignments.parts_hold, filter.parts_hold⟩
  | delete d =>
    have filter : Fills Clause.Made .filter d.filter.toList := h
    exact List.forall_mem_cons.2 ⟨filter.predicates rfl, filter.parts_hold⟩
  | exec e =>
    rw [Statement.parts, List.flatMap_append]
    refine List.forall_mem_cons.2 ⟨trivial, List.forall_mem_append.2 ⟨?_, ?_⟩⟩
    · refine List.forall_mem_flatMap.2 fun c hc => ?_
      obtain ⟨p, -, rfl⟩ := List.mem_map.1 hc
      exact Clause.Made.parts_hold.1 _ ⟨.leaf rfl rfl, rfl⟩
    · refine List.forall_mem_flatMap.2 fun a ha => ?_
      obtain ⟨made, argument⟩ := h a ha
      exact Clause.Made.parts_hold.1 a ⟨made, (Clause.checkArgument_eq_ok argument).1⟩
  | createTable t => exact List.forall_mem_cons.2 ⟨trivial, List.forall_mem_map.2 fun _ _ => trivial⟩
  | dropTable t => exact List.forall_mem_singleton.2 trivial

/-! ## Predicates -/

/-- A finished select holds all that was added to WHERE and HAVING, though it takes the first clause of each only. -/
theorem SelectDraft.predicates_kept {steps : List SelectStep} {d : SelectDraft}
    (built : steps.foldlM SelectDraft.apply {} = .ok d) :
    d.filter.items = d.finish.filter.toList ∧ d.having.items = d.finish.having.toList := by
  have grown : d.Grown fun _ => True := .of_steps (fun _ _ _ _ => trivial) built
  exact ⟨grown.filter.head rfl, grown.having.head rfl⟩

theorem UpdateDraft.predicate_kept {table : TableRef} {steps : List UpdateStep} {d : UpdateDraft} {u : Update}
    (built : steps.foldlM UpdateDraft.apply { table := table } = .ok d) (finished : d.finish = .ok u) :
    d.filter.items = u.filter.toList := by
  have grown : d.Grown fun _ => True := .of_steps (fun _ _ _ _ => trivial) built
  obtain ⟨-, made⟩ := Clause.then_eq_ok_iff.1 finished
  obtain rfl := Except.ok.inj made
  exact grown.filter.head rfl

theorem DeleteDraft.predicate_kept {table : TableRef} {steps : List DeleteStep} {d : DeleteDraft}
    (built : steps.foldlM DeleteDraft.apply { table := table } = .ok d) : d.filter.items = d.finish.filter.toList :=
  (DeleteDraft.filter_grown (P := fun _ => True) (fun _ _ _ _ => trivial) built).head rfl

/-- **Operands have their roles throughout what is built.** In a query that steps, scripts and joins composed of made
clauses, at every part of it and at any depth, connectives and negation stand over predicates, joins have predicates as
conditions, arithmetic stands over what may have it, an alias over what may be given one, and WHERE and HAVING hold a
predicate or nothing. Nothing is lost when a section of one predicate is made of what was added to it. -/
theorem Query.Composed.roles_hold {q : Query} (h : q.Composed Clause.Made Select.Made) :
    (∀ p ∈ q.parts, p.RolesHold)
      ∧ (∀ (steps : List SelectStep) d, steps.foldlM SelectDraft.apply ({} : SelectDraft) = .ok d →
        d.filter.items = d.finish.filter.toList ∧ d.having.items = d.finish.having.toList)
      ∧ (∀ table (steps : List UpdateStep) d u, steps.foldlM UpdateDraft.apply { table := table } = .ok d →
        d.finish = .ok u → d.filter.items = u.filter.toList)
      ∧ ∀ table (steps : List DeleteStep) d, steps.foldlM DeleteDraft.apply { table := table } = .ok d →
        d.filter.items = d.finish.filter.toList :=
  ⟨List.forall_mem_flatMap.2 fun s hs => (h.grown s hs).parts_hold, fun _ _ => SelectDraft.predicates_kept,
    fun _ _ _ _ => UpdateDraft.predicate_kept, fun _ _ _ => DeleteDraft.predicate_kept⟩

/-- a sum under a name, from a table under another one, for the rows that have a value or if a third table has any -/
def sumsIfAny : Select :=
  .mk false none [.aliased (.calc (.ofName "a") .add (.constant (.int 1))) "b"] [.aliased (.ofTable "t") "u"]
    (some (.logic (.anyRow (.mk false none [] [.ofTable "v"] none [] none [])) .or
      (.not (.isNull (.ofName "a") false)))) [] none []

/-- The rows of a select that were made with an alias, arithmetic under it and a predicate over another select go into a
table. -/
theorem roles_hold_insertedSums :
    let q : Query := .single (.insert ⟨.ofName "w", [.ofName "b"], [], some sumsIfAny⟩)
    q.Composed Clause.Made Select.Made
      ∧ .clause (.calc (.ofName "a") .add (.constant (.int 1))) ∈ q.parts ∧ ∀ p ∈ q.parts, p.RolesHold := by
  have table : ∀ name, (Clause.ofTable name).Made := fun name => .leaf rfl rfl
  have column : (Clause.ofName "a").Made := .leaf rfl rfl
  have one : (Clause.constant (.int 1)).Made := .leaf rfl rfl
  have inside : SelectDraft.build [.source "v"] = .ok (.mk false none [] [.ofTable "v"] none [] none []) := rfl
  have anyRow : (Clause.anyRow (.mk false none [] [.ofTable "v"] none [] none [])).Made := by
    refine .node rfl nofun ?_
    simpa [Clause.query?] using
      Select.Made.built inside (by simp [SelectStep.source, SelectStep.given, Section.admitted, table])
  have missing : (Clause.isNull (.ofName "a") false).Made := .of_operands rfl rfl (List.forall_mem_singleton.2 column)
  have present : (Clause.not (.isNull (.ofName "a") false)).Made :=
    .of_operands rfl rfl (List.forall_mem_singleton.2 missing)
  have rows : SelectDraft.build [.field "a", .aliasAs "b", .calc .add (.constant (.int 1)), .source "t", .aliasAs "u",
      .add .filter (.anyRow (.mk false none [] [.ofTable "v"] none [] none [])),
      .combine .or (.not (.isNull (.ofName "a") false))] = .ok sumsIfAny := rfl
  have made : sumsIfAny.Made := .built rows (by simp [SelectStep.field, SelectStep.source, SelectStep.given,
    Section.admitted, table, column, one, anyRow, present])
  have composed : (Query.single (.insert ⟨.ofName "w", [.ofName "b"], [], some sumsIfAny⟩)).Composed Clause.Made
      Select.Made := by
    have steps : [.column "b", .source sumsIfAny].foldlM InsertDraft.apply { table := .ofName "w" }
        = .ok ⟨.ofName "w", ⟨.columns, [.ofName "b"], some 0⟩, .empty .values, some sumsIfAny⟩ := rfl
    exact .insert steps rfl (by simp [InsertStep.given]) (by simpa [InsertStep.query?] using made)
  refine ⟨composed, ?_, (Query.Composed.roles_hold composed).1⟩
  simp [-List.mem_flatMap, Query.parts, Query.statements, Statement.parts, Clause.parts_eq, Select.parts_eq,
    Clause.operands, Clause.query?, Select.clauses, sumsIfAny, Clause.ofName, Clause.ofTable]

/-- Aliases have to be given: neither the check nor a select list looks at what stands under one. -/
example : ∃ s, SelectDraft.build [.expr (.aliased (.isNull (.ofName "a") false) "b")] = .ok s := ⟨_, rfl⟩

end SqlTree
