/-
Sections as operations made them.

`Section.Grown P` says of a section that operations made it of an empty one, and that every clause given to them on
the way has the property `P`. What each operation keeps holds of such a section by induction on the operations; the
other lemmas find the grown sections in drafts, and in the statements that come of them.

- `Section.Grown.allFit`: a boolean section holds one predicate at most, whatever was done to it.
- `Section.Grown.checked`: the items of a grown section obey the rules for operands.
- `SelectDraft.Grown.apply`: a step grows the sections of a select.
- `Query.Composed.grown`: the sections of a composed query are grown, those that joins were added to as well.
-/
import SqlTree.Proofs.Section.Refill
import SqlTree.Proofs.Statement.Composed

namespace SqlTree

/-! ## Sections -/

namespace Section

/-- whether an operation leaves the items of a section where they belong: rows of values have no aliases, and lists of
columns no arithmetic -/
def Suits (kind : SectionKind) : SectionEdit → Prop
  | .aliasAs _ => kind ≠ .values
  | .calc .. => kind ≠ .columns
  | _ => True

/-- Neither of the two lists is in a select, and an update or a delete has none of them. -/
theorem suits_of_ne {kind : SectionKind} (values : kind ≠ .values) (columns : kind ≠ .columns) (e : SectionEdit) :
    Suits kind e := by
  cases e with
  | aliasAs name => exact values
  | «calc» op operand => exact columns
  | push | combine | finish => trivial

/-- the clauses given to an operation, as a section keeps them -/
def given (kind : SectionKind) : SectionEdit → List Clause
  | .push c => [admitted kind c]
  | .combine _ c | .calc _ c => [c]
  | .aliasAs _ | .finish => []

/-- a section that operations that suit it made of an empty one, each of which was given clauses with a property -/
inductive Grown (P : Clause → Prop) : Section → Prop
  | empty (kind : SectionKind) : Grown P (.empty kind)
  | step {s t : Section} {e : SectionEdit} (before : Grown P s) (step : Step s e t) (suits : Suits s.kind e)
    (clauses : ∀ c ∈ given s.kind e, P c) : Grown P t

/-- clauses that are those of a grown section -/
def Fills (P : Clause → Prop) (kind : SectionKind) (items : List Clause) : Prop := Grown P ⟨kind, items, none⟩

/-- a grown section of one sort -/
structure GrownAs (P : Clause → Prop) (kind : SectionKind) (s : Section) : Prop where
  kind_eq : s.kind = kind
  grown : s.Grown P

variable {P : Clause → Prop} {kind : SectionKind} {s t : Section} {e : SectionEdit}

/-- In a boolean section there is nothing that an operation could spoil, so what it holds fits. -/
theorem Grown.allFit (h : s.Grown P) (boolean : s.kind.isBoolean = true) : AllFit s.kind s.items := by
  induction h with
  | empty kind => exact .nil
  | @step s t e before step suits clauses ih =>
    rw [step.kind_eq] at boolean
    have spared : e.spoils s.kind = false := by
      cases hk : s.kind <;> rw [hk] at boolean <;> first | (cases boolean; done) | (cases e <;> rfl)
    exact step.fits spared (ih boolean)

theorem Grown.fits (h : s.Grown P) (boolean : s.kind.isBoolean = true) {c : Clause} (hc : c ∈ s.items) :
    ∃ before, Fits s.kind before c := by
  obtain ⟨i, hi⟩ := List.mem_iff_getElem?.1 hc
  exact ⟨_, (h.allFit boolean).each i c hi⟩

theorem Grown.isPredicate (h : s.Grown P) (boolean : s.kind.isBoolean = true) :
    ∀ c ∈ s.items, c.isPredicate = true := by
  intro c hc
  obtain ⟨before, fits⟩ := h.fits boolean hc
  exact fits.isPredicate boolean

/-- **The items of a grown section obey the rules for operands**, though aliases and arithmetic change items that were
looked at before. -/
theorem Grown.checked (h : s.Grown P) : ∀ c ∈ s.items, c.check = .ok () := by
  induction h with
  | empty kind => nofun
  | @step s t e before step suits clauses ih =>
    by_cases boolean : t.kind.isBoolean = true
    · intro c hc
      obtain ⟨_, fits⟩ := (Grown.step before step suits clauses).fits boolean hc
      exact fits.check
    · rw [step.kind_eq] at boolean
      cases step with
      | push checked taken =>
        rw [taking, if_neg boolean]
        exact List.forall_mem_append.2 ⟨ih, List.forall_mem_singleton.2 (fits_admitted checked taken).check⟩
      | combine holds => exact absurd holds boolean
      | @aliasAs name i c here found allowed =>
        intro x hx
        rcases List.mem_or_eq_of_mem_set hx with hx | rfl
        · exact ih x hx
        · rw [Clause.check]
          exact ih c (List.mem_of_getElem? found)
      | @«calc» op operand c i checked here found left right =>
        intro x hx
        rcases List.mem_or_eq_of_mem_set hx with hx | rfl
        · exact ih x hx
        · exact check_withArithmeticPart (ih c (List.mem_of_getElem? found)) checked left right
      | finish => exact ih

namespace GrownAs

theorem empty (kind : SectionKind) : (Section.empty kind).GrownAs P kind := ⟨rfl, .empty kind⟩

theorem apply (h : s.GrownAs P kind) (suits : Suits kind e) (clauses : ∀ c ∈ given kind e, P c)
    (ht : s.apply e = .ok t) :
    t.GrownAs P kind := by
  have step := apply_eq_ok ht
  obtain ⟨rfl, grown⟩ := h
  exact ⟨step.kind_eq, .step grown step suits clauses⟩

/-- The current item is forgotten when a statement is finished. -/
theorem fills (h : s.GrownAs P kind) : Fills P kind s.items := by
  obtain ⟨rfl, grown⟩ := h
  exact .step grown .finish trivial nofun

/-- A boolean section loses nothing when its first clause is taken for all of them. -/
theorem head (h : s.GrownAs P kind) (boolean : kind.isBoolean = true) : s.items = s.items.head?.toList := by
  obtain ⟨rfl, grown⟩ := h
  exact ((grown.allFit boolean).head boolean).symm

theorem fills_head (h : s.GrownAs P kind) (boolean : kind.isBoolean = true) : Fills P kind s.items.head?.toList := by
  rw [← h.head boolean]
  exact h.fills

end GrownAs

end Section

open Section (Fills)

/-! ## Selects -/

section
variable {P : Clause → Prop}

/-- a select under construction whose sections are grown -/
structure SelectDraft.Grown (P : Clause → Prop) (d : SelectDraft) : Prop where
  fields : d.fields.GrownAs P .fields
  sources : d.sources.GrownAs P .sources
  filter : d.filter.GrownAs P .filter
  groupBy : d.groupBy.GrownAs P .groupBy
  having : d.having.GrownAs P .having
  orderBy : d.orderBy.GrownAs P .orderBy

structure Select.Grown (P : Clause → Prop) (s : Select) : Prop where
  fields : Fills P .fields s.fields
  sources : Fills P .sources s.sources
  filter : Fills P .filter s.filter.toList
  groupBy : Fills P .groupBy s.groupBy
  having : Fills P .having s.having.toList
  orderBy : Fills P .orderBy s.orderBy

namespace SelectDraft.Grown

variable {d d' : SelectDraft}

theorem start : ({} : SelectDraft).Grown P :=
  ⟨.empty .fields, .empty .sources, .empty .filter, .empty .groupBy, .empty .having, .empty .orderBy⟩

/-- An operation grows one section of a select, which is none of the lists that it could spoil. -/
theorem edit (h : d.Grown P) {kind : SectionKind} {e : SectionEdit} (clauses : ∀ c ∈ Section.given kind e, P c)
    (hd : d.edit kind e = .ok d') : d'.Grown P := by
  obtain ⟨s, hs, rfl⟩ := map_eq_ok hd
  cases kind with
  | sources => exact { h with sources := h.sources.apply (Section.suits_of_ne (by decide) (by decide) e) clauses hs }
  | filter => exact { h with filter := h.filter.apply (Section.suits_of_ne (by decide) (by decide) e) clauses hs }
  | groupBy => exact { h with groupBy := h.groupBy.apply (Section.suits_of_ne (by decide) (by decide) e) clauses hs }
  | having => exact { h with having := h.having.apply (Section.suits_of_ne (by decide) (by decide) e) clauses hs }
  | orderBy => exact { h with orderBy := h.orderBy.apply (Section.suits_of_ne (by decide) (by decide) e) clauses hs }
  | fields | assignments | columns | values =>
    have given : ∀ c ∈ Section.given .fields e, P c := by cases e <;> exact clauses
    exact { h with fields := h.fields.apply (Section.suits_of_ne (by decide) (by decide) e) given hs }

/-- **A step grows the sections of a select.** -/
theorem apply (h : d.Grown P) {step : SelectStep} (clauses : ∀ c ∈ step.given, P c) (hd : d.apply step = .ok d') :
    d'.Grown P := by
  cases step with
  | add kind c =>
    obtain ⟨u, he, rfl⟩ := map_eq_ok hd
    have edited := h.edit (e := .push c) clauses he
    exact { edited with }
  | combine op c => exact h.edit (e := .combine op c) clauses hd
  | aliasAs name => exact h.edit (e := .aliasAs name) clauses hd
  | «calc» op operand => exact h.edit (e := .calc op operand) clauses hd
  | distinct =>
    cases hd
    exact { h with }
  | limit l =>
    cases hd
    exact { h with }

theorem of_steps {steps : List SelectStep} (clauses : ∀ b ∈ steps, ∀ c ∈ b.given, P c)
    (hd : steps.foldlM SelectDraft.apply {} = .ok d) : d.Grown P :=
  foldlM_keeps (P := SelectDraft.Grown P) (fun b hb _ _ step h => h.apply (clauses b hb) step) .start hd

theorem finish (h : d.Grown P) : d.finish.Grown P where
  fields := h.fields.fills
  sources := h.sources.fills
  filter := h.filter.fills_head rfl
  groupBy := h.groupBy.fills
  having := h.having.fills_head rfl
  orderBy := h.orderBy.fills

end SelectDraft.Grown

namespace Select.Grown

variable {s s' : Select}

theorem of_build {steps : List SelectStep} (built : SelectDraft.build steps = .ok s)
    (clauses : ∀ b ∈ steps, ∀ c ∈ b.given, P c) : s.Grown P := by
  obtain ⟨d, hd, rfl⟩ := map_eq_ok built
  exact (SelectDraft.Grown.of_steps clauses hd).finish

/-- A join grows the FROM list of the select that it is added to. -/
theorem addJoin (h : s.Grown P) {kind : JoinKind} {target condition : Clause}
    (joined : (Query.single (.select s)).addJoin kind target condition = .ok (.single (.select s')))
    (clause : P (.join kind target condition)) : s'.Grown P := by
  obtain ⟨distinct, limit, fields, sources, filter, groupBy, having, orderBy⟩ := s
  simp only [Query.addJoin] at joined
  rcases hs : Section.apply (.push (.join kind target condition)) ⟨.sources, sources, none⟩ with fault | t
  · rw [hs] at joined
    cases joined
  · rw [hs] at joined
    cases joined
    have before : Section.GrownAs P .sources ⟨.sources, sources, none⟩ := ⟨rfl, h.sources⟩
    have after : t.GrownAs P .sources := before.apply (e := .push _) trivial (List.forall_mem_singleton.2 clause) hs
    exact { h with sources := after.fills }

/-- What holds of the clauses of grown sections holds of those of the select. -/
theorem clauses {R : Clause → Prop} (h : s.Grown P) (each : ∀ kind items, Fills P kind items → ∀ c ∈ items, R c) :
    ∀ c ∈ s.clauses, R c := by
  obtain ⟨distinct, limit, fields, sources, filter, groupBy, having, orderBy⟩ := s
  simp only [Select.clauses, List.forall_mem_append]
  exact ⟨⟨⟨⟨⟨each _ _ h.fields, each _ _ h.sources⟩, each _ _ h.filter⟩, each _ _ h.groupBy⟩, each _ _ h.having⟩,
    each _ _ h.orderBy⟩

end Select.Grown

end

/-! ## Statements -/

section
variable {P : Clause → Prop} {S : Select → Prop}

/-- an insert under construction whose values are grown, and whose columns are columns -/
structure InsertDraft.Grown (P : Clause → Prop) (S : Select → Prop) (d : InsertDraft) : Prop where
  columns : d.columns.OnlyColumns
  values : d.values.GrownAs P .values
  source : ∀ s ∈ d.source, S s

theorem InsertDraft.Grown.start (table : TableRef) : ({ table := table } : InsertDraft).Grown P S :=
  ⟨⟨rfl, by simp [Section.empty]⟩, .empty .values, by simp⟩

theorem InsertDraft.Grown.apply {d d' : InsertDraft} (h : d.Grown P S) {step : InsertStep}
    (clauses : ∀ c ∈ step.given, P c) (rows : ∀ s ∈ step.query?, S s) (hd : d.apply step = .ok d') : d'.Grown P S := by
  have columns := InsertDraft.apply_onlyColumns step d d' hd h.columns
  -- naming a column changes the list of columns only
  have named : ∀ {d d' : InsertDraft} {name : String}, d.pushColumn name = .ok d' →
      d'.values = d.values ∧ d'.source = d.source := by
    intro d d' name hd
    obtain ⟨s, -, rfl⟩ := map_eq_ok hd
    exact ⟨rfl, rfl⟩
  cases step with
  | value name c =>
    rw [InsertDraft.apply] at hd
    rcases hs : d.values.apply (.push c) with fault | s
    · rw [hs] at hd
      cases hd
    · rw [hs] at hd
      obtain ⟨values, source⟩ := named hd
      exact ⟨columns, values ▸ h.values.apply (e := .push c) trivial clauses hs, source ▸ h.source⟩
  | column name =>
    obtain ⟨values, source⟩ := named hd
    exact ⟨columns, values ▸ h.values, source ▸ h.source⟩
  | source s =>
    cases hd
    exact ⟨columns, h.values, rows⟩
  | «calc» op operand =>
    obtain ⟨s, hs, rfl⟩ := map_eq_ok hd
    exact ⟨columns, h.values.apply (e := .calc op operand) (by simp [Section.Suits]) clauses hs, h.source⟩

structure UpdateDraft.Grown (P : Clause → Prop) (d : UpdateDraft) : Prop where
  assignments : d.assignments.GrownAs P .assignments
  filter : d.filter.GrownAs P .filter

theorem UpdateDraft.Grown.edit {d d' : UpdateDraft} (h : d.Grown P) {e : SectionEdit}
    (clauses : ∀ c ∈ Section.given .assignments e, P c) (hd : d.edit e = .ok d') : d'.Grown P := by
  rw [UpdateDraft.edit] at hd
  split at hd
  · obtain ⟨s, hs, rfl⟩ := map_eq_ok hd
    have given : ∀ c ∈ Section.given .filter e, P c := by cases e <;> exact clauses
    exact ⟨h.assignments, h.filter.apply (Section.suits_of_ne (by decide) (by decide) e) given hs⟩
  · obtain ⟨s, hs, rfl⟩ := map_eq_ok hd
    exact ⟨h.assignments.apply (Section.suits_of_ne (by decide) (by decide) e) clauses hs, h.filter⟩

theorem UpdateDraft.Grown.apply {d d' : UpdateDraft} (h : d.Grown P) {step : UpdateStep}
    (clauses : ∀ c ∈ step.given, P c) (hd : d.apply step = .ok d') : d'.Grown P := by
  cases step with
  | set column c =>
    have turned : ({ d with filtering := false } : UpdateDraft).Grown P := { h with }
    exact turned.edit (e := .push _) clauses hd
  | filter c =>
    have turned : ({ d with filtering := true } : UpdateDraft).Grown P := { h with }
    exact turned.edit (e := .push c) clauses hd
  | combine op c => exact h.edit (e := .combine op c) clauses hd
  | «calc» op operand => exact h.edit (e := .calc op operand) clauses hd

theorem UpdateDraft.Grown.of_steps {table : TableRef} {steps : List UpdateStep} {d : UpdateDraft}
    (clauses : ∀ b ∈ steps, ∀ c ∈ b.given, P c) (hd : steps.foldlM UpdateDraft.apply { table := table } = .ok d) :
    d.Grown P :=
  foldlM_keeps (P := UpdateDraft.Grown P) (fun b hb _ _ step h => h.apply (clauses b hb) step)
    ⟨.empty .assignments, .empty .filter⟩ hd

theorem DeleteDraft.apply_grown {d d' : DeleteDraft} (h : d.filter.GrownAs P .filter) {step : DeleteStep}
    (clauses : ∀ c ∈ step.given, P c) (hd : d.apply step = .ok d') : d'.filter.GrownAs P .filter := by
  cases step with
  | filter c =>
    obtain ⟨s, hs, rfl⟩ := map_eq_ok hd
    exact h.apply (e := .push c) trivial clauses hs
  | combine op c =>
    obtain ⟨s, hs, rfl⟩ := map_eq_ok hd
    exact h.apply (e := .combine op c) trivial clauses hs

theorem DeleteDraft.filter_grown {table : TableRef} {steps : List DeleteStep} {d : DeleteDraft}
    (clauses : ∀ b ∈ steps, ∀ c ∈ b.given, P c) (hd : steps.foldlM DeleteDraft.apply { table := table } = .ok d) :
    d.filter.GrownAs P .filter :=
  foldlM_keeps (P := fun d : DeleteDraft => d.filter.GrownAs P .filter)
    (fun b hb _ _ step h => DeleteDraft.apply_grown h (clauses b hb) step) (.empty .filter) hd

/-- What is given to a routine obeys the rules for operands, and is a scalar without an alias. -/
theorem Clause.checkArgument_eq_ok {c : Clause} (h : c.checkArgument = .ok ()) :
    c.check = .ok () ∧ c.isExpression = true ∧ c.isAliased = false := by
  obtain ⟨checked, scalar⟩ := then_eq_ok_iff.1 h
  refine ⟨checked, ?_⟩
  cases he : c.isExpression <;> cases ha : c.isAliased <;> simp [he, ha] at scalar
  trivial

theorem Exec.apply_args {e e' : Exec} (h : ∀ a ∈ e.args, P a ∧ a.checkArgument = .ok ()) {step : ExecStep}
    (clauses : ∀ c ∈ step.given, P c) (he : e.apply step = .ok e') : ∀ a ∈ e'.args, P a ∧ a.checkArgument = .ok () := by
  cases step with
  | arg c =>
    obtain ⟨argument, made⟩ := Clause.then_eq_ok_iff.1 he
    obtain rfl := Except.ok.inj made
    exact List.forall_mem_append.2 ⟨h, List.forall_mem_singleton.2 ⟨clauses c (List.mem_singleton_self c), argument⟩⟩
  | returns p =>
    cases he
    exact h

/-- a statement whose sections are grown -/
def Statement.Grown (P : Clause → Prop) (S : Select → Prop) : Statement → Prop
  | .select s => s.Grown P
  | .insert i => (∀ c ∈ i.columns, c.kind = .field) ∧ Fills P .values i.values ∧ ∀ s ∈ i.source, S s
  | .update u => Fills P .assignments u.assignments ∧ Fills P .filter u.filter.toList
  | .delete d => Fills P .filter d.filter.toList
  | .exec e => ∀ a ∈ e.args, P a ∧ a.checkArgument = .ok ()
  | .createTable _ | .dropTable _ => True

/-- **The sections of a composed query are grown**, in each of its statements. -/
theorem Query.Composed.grown {q : Query} (h : q.Composed P S) : ∀ s ∈ q.statements, s.Grown P S := by
  induction h with
  | select built clauses => exact List.forall_mem_singleton.2 (Select.Grown.of_build built clauses)
  | insert built finished clauses rows =>
    obtain ⟨-, made⟩ := Clause.then_eq_ok_iff.1 finished
    obtain rfl := Except.ok.inj made
    obtain ⟨columns, values, source⟩ := foldlM_keeps (P := InsertDraft.Grown P S)
      (fun b hb _ _ step h => h.apply (clauses b hb) (rows b hb) step) (.start _) built
    exact List.forall_mem_singleton.2 ⟨columns.2, values.fills, source⟩
  | update built finished clauses =>
    obtain ⟨-, made⟩ := Clause.then_eq_ok_iff.1 finished
    obtain rfl := Except.ok.inj made
    have grown := UpdateDraft.Grown.of_steps clauses built
    exact List.forall_mem_singleton.2 ⟨grown.assignments.fills, grown.filter.fills_head rfl⟩
  | delete built clauses =>
    exact List.forall_mem_singleton.2 ((DeleteDraft.filter_grown clauses built).fills_head rfl)
  | exec built clauses =>
    refine List.forall_mem_singleton.2 ?_
    exact foldlM_keeps (P := fun e => ∀ a ∈ e.args, P a ∧ a.checkArgument = .ok ())
      (fun b hb _ _ step h => Exec.apply_args h (clauses b hb) step) (by simp) built
  | createTable | dropTable => exact List.forall_mem_singleton.2 trivial
  | script _ grown =>
    exact List.forall_mem_flatMap.2 grown
  | join _ joined clause grown =>
    obtain ⟨s, s', rfl, rfl⟩ := Query.addJoin_select joined
    have before : s.Grown P := grown _ (List.mem_singleton_self _)
    exact List.forall_mem_singleton.2 (before.addJoin joined clause)

end

end SqlTree
