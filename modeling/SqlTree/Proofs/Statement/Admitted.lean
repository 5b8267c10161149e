/-
Built queries hold nothing that is out of place.

- `Select.Grown.settled`: where the sections of a select are grown from sound clauses, these stand where they belong.
- `Clause.Settled.below`: what is below a clause that stands where it belongs does so too.
- `Query.Composed.settled`: so does everything at the top of a query that is built from sound clauses.
- `Query.Composed.places_admit`: in such a query every place admits the clause that stands there, at any depth, and no
  rendering finds something else in the place of a column.
- `misplaced_assignment`: an operand that is not looked at may be an assignment, and the query cannot be rendered.
-/
import SqlTree.Proofs.Statement.Sound

namespace SqlTree

/-- clauses that stand where they belong, each at its place -/
def Place.AllSettled (xs : List (Place × Clause)) : Prop := ∀ x ∈ xs, x.2.Settled x.1

theorem Section.Fills.settled {kind : SectionKind} {items : List Clause} (h : Section.Fills Clause.Sound kind items) :
    Place.AllSettled (items.map (kind.place, ·)) := List.forall_mem_map.2 h.sound.items

/-- Where each section of a select is grown, its clauses stand where they belong. -/
theorem Select.Grown.settled {s : Select} (h : s.Grown Clause.Sound) : Place.AllSettled s.places := by
  obtain ⟨distinct, limit, fields, sources, filter, groupBy, having, orderBy⟩ := s
  simp only [Place.AllSettled, Select.places, List.forall_mem_append]
  exact ⟨⟨⟨⟨⟨h.fields.settled, h.sources.settled⟩, h.filter.settled⟩, h.groupBy.settled⟩, h.having.settled⟩,
    h.orderBy.settled⟩

/-- A sound select is grown from sound clauses, by induction on the joins that were added to it. -/
theorem Select.Sound.grown {s : Select} : s.Sound → s.Grown Clause.Sound
  | .built steps clauses => .of_build steps clauses
  | .joined before join clause => before.grown.addJoin join clause

/-! ## What is below -/

/-- **What is right below a clause that stands where it belongs does so too.** An operand that is looked at has the sort
that was asked for, one that is not is a scalar, and a select was built. -/
theorem Clause.Settled.below {p : Place} {c : Clause} (h : c.Settled p) : Place.AllSettled (c.placesBelow p) := by
  obtain ⟨fitting, checked⟩ := (Clause.check_eq_ok_iff c).1 h.checked
  have operand : ∀ x ∈ c.operands, ∀ q : Place, q.Fits x → x.Settled q := fun x hx q fits =>
    ⟨fits, h.sound.operand hx, checked x hx⟩
  have values : (∀ x ∈ c.operands, x.isExpression = true ∧ x.isAliased = false) →
      Place.AllSettled (c.operands.map (.value, ·)) := fun scalar =>
    List.forall_mem_map.2 fun x hx => operand x hx .value (scalar x hx)
  cases c with
  | aliased subject name =>
    exact List.forall_mem_singleton.2 (operand subject (List.mem_singleton_self _) p h.fits.subject)
  | join kind target condition =>
    obtain ⟨table, predicate⟩ := h.fits.join
    refine List.forall_mem_cons.2 ⟨?_, List.forall_mem_singleton.2 ?_⟩
    · exact operand target (by simp [operands]) .source (Place.fits_source_of_isTableSource table)
    · exact operand condition (by simp [operands]) .value (Clause.scalar_of_isPredicate predicate)
  | assign target value =>
    refine List.forall_mem_cons.2 ⟨?_, List.forall_mem_singleton.2 ?_⟩
    · exact operand target (by simp [operands]) .column h.fits.assign
    · exact operand value (by simp [operands]) .value (h.sound.scalar (List.mem_singleton_self value))
  | anyRow query | subQuery query => exact (h.sound.select rfl).grown.settled
  | logic left op right =>
    refine values (List.forall_mem_cons.2 ⟨?_, List.forall_mem_singleton.2 ?_⟩)
    · exact Clause.scalar_of_isPredicate fitting.1
    · exact Clause.scalar_of_isPredicate fitting.2
  | not inner => exact values (List.forall_mem_singleton.2 (Clause.scalar_of_isPredicate fitting))
  | «calc» left op right =>
    refine values (List.forall_mem_cons.2 ⟨?_, List.forall_mem_singleton.2 ?_⟩)
    · exact Clause.scalar_of_isArithmetic fitting.1
    · exact Clause.scalar_of_isArithmetic fitting.2
  | _ => exact values fun x hx => h.sound.scalar hx

/-! ## Queries -/

theorem Clause.settled_column {c : Clause} (h : c.kind = .field) : c.Settled .column := by
  cases c with
  | field of name => exact ⟨rfl, .leaf rfl rfl, rfl⟩
  | _ => cases h

/-- Where each section of a statement is grown, its clauses stand where they belong. -/
theorem Statement.Grown.settled {s : Statement} (h : s.Grown Clause.Sound Select.Sound) :
    Place.AllSettled s.places := by
  cases s with
  | select s => exact Select.Grown.settled h
  | insert i =>
    obtain ⟨columns, values, source⟩ := h
    refine List.forall_mem_append.2 ⟨List.forall_mem_append.2 ⟨?_, values.settled⟩, ?_⟩
    · exact List.forall_mem_map.2 fun c hc => Clause.settled_column (columns c hc)
    · exact List.forall_mem_flatMap.2 fun s hs => (source s (Option.mem_toList.1 hs)).grown.settled
  | update u =>
    obtain ⟨assignments, filter⟩ := h
    exact List.forall_mem_append.2 ⟨assignments.settled, filter.settled⟩
  | delete d => exact Section.Fills.settled h
  | exec e =>
    refine List.forall_mem_map.2 fun a ha => ?_
    obtain ⟨sound, argument⟩ := h a ha
    obtain ⟨checked, scalar⟩ := Clause.checkArgument_eq_ok argument
    exact ⟨scalar, sound, checked⟩
  | createTable t | dropTable t => exact List.forall_mem_nil _

/-- **What is built from sound clauses stands where it belongs**, at the top of every section. -/
theorem Query.Composed.settled {q : Query} (h : q.Composed Clause.Sound Select.Sound) : Place.AllSettled q.places :=
  List.forall_mem_flatMap.2 fun s hs => (h.grown s hs).settled

/-- **Invalid shapes never reach a rendering.** In a query built from clauses whose unchecked operands are scalars
without an alias, throughout, every place admits the clause that stands there, at any depth; so no rendering on any
dialect, with whatever hooks, finds something else where the name of a column has to be written. -/
theorem Query.Composed.places_admit {q : Query} (h : q.Composed Clause.Sound Select.Sound) :
    (∀ p c, q.Holds p c → p.Admits c) ∧
      ∀ d supply name target, (render d q supply).result ≠ .error (.render name (.notColumn target)) := by
  have settled : ∀ p c, q.Holds p c → c.Settled p := by
    rintro p c ⟨top, inside, path⟩
    have start := h.settled top inside
    generalize hx : (p, c) = x at path
    have last : x.2.Settled x.1 := by
      clear hx
      induction path with
      | refl => exact start
      | tail _ step ih => exact ih.below _ step
    subst hx
    exact last
  refine ⟨fun p c held => (settled p c held).fits.admits, fun d supply name target failed => ?_⟩
  rcases Query.errors h.given.regular failed with ⟨x, asked, refused⟩ | ⟨fault, same, internal⟩
  · rcases Demand.refusal?_eq_some refused with ⟨_, _, -, other⟩ | ⟨-, other⟩ | ⟨k, rfl, same⟩
    · cases other
    · cases other
    · obtain ⟨p, column, value, held, rfl⟩ := Query.assignment_held asked
      have field := (settled p _ held).fits.assign
      rw [Demand.refusal?, if_pos field] at refused
      cases refused
  · cases same
    exact internal

def allRows (name : String) : Select := .mk false none [] [.ofTable name] none [] none []

/-- a select of the rows of a table if another one has any, in order -/
def rowsIfAny : Select :=
  .mk false none [] [.ofTable "t"] (some (.anyRow (allRows "u"))) [] none [.order (.ofName "a") .ascending]

/-- The select inside another one was built, and all that was given to either is sound. -/
theorem places_admit_rowsIfAny :
    (Query.single (.select rowsIfAny)).Composed Clause.Sound Select.Sound
      ∧ (Query.single (.select rowsIfAny)).Holds .source (.ofTable "u")
      ∧ (∀ p c, (Query.single (.select rowsIfAny)).Holds p c → p.Admits c)
      ∧ ∀ supply, (render .ansi (.single (.select rowsIfAny)) supply).result
        ≠ .error (.render "ansi" (.notColumn .table)) := by
  have table : ∀ name, (Clause.ofTable name).Sound := fun name => .leaf rfl rfl
  have column : (Clause.ofName "a").Sound := .leaf rfl rfl
  have builtInside : SelectDraft.build [.source "u"] = .ok (allRows "u") := rfl
  have inner : (allRows "u").Sound :=
    .built builtInside (by simp [SelectStep.source, SelectStep.given, Section.admitted, table])
  have anyRow : (Clause.anyRow (allRows "u")).Sound :=
    .node (by simp [Clause.unchecked, Clause.operands]) (by simp [Clause.operands])
      (by simpa [Clause.query?] using inner)
  have order : (Clause.order (.ofName "a") .ascending).Sound :=
    .of_scalars rfl (List.forall_mem_singleton.2 ⟨rfl, rfl⟩) (List.forall_mem_singleton.2 column)
  have built : SelectDraft.build [.source "t", .add .filter (.anyRow (allRows "u")), .orderBy "a" .ascending]
      = .ok rowsIfAny := rfl
  have composed : (Query.single (.select rowsIfAny)).Composed Clause.Sound Select.Sound :=
    .select built
      (by simp [SelectStep.source, SelectStep.orderBy, SelectStep.given, Section.admitted, table, anyRow, order])
  have held : (Query.single (.select rowsIfAny)).Holds .source (.ofTable "u") :=
    ⟨(.value, .anyRow (allRows "u")), List.mem_cons_of_mem _ List.mem_cons_self, .single (List.mem_singleton_self _)⟩
  obtain ⟨places, named⟩ := composed.places_admit
  exact ⟨composed, held, places, fun supply => named .ansi supply _ _⟩

/-- **An operand that is not looked at may be an assignment**, and one to something else than a column. -/
theorem misplaced_assignment : ∃ s, SelectDraft.build [.source "t", .add .filter (.compare (.ofName "a") .eq
      (.assign (.constant (.int 1)) (.constant (.int 2))))] = .ok s
    ∧ ∀ supply, (render .ansi (.single (.select s)) supply).result
      = .error (.render "ansi" (.notColumn .constant)) := ⟨_, rfl, fun _ => rfl⟩

end SqlTree
