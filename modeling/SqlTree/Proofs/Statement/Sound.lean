/-
Clauses stand where they belong.

The builders look at what a section is given, at the operands of connectives, of negation and of arithmetic, and at
joins. Of the other operands they ask nothing (`Clause.unchecked`); a clause is sound if those are scalars without an
alias, throughout, and the selects inside it were built from sound clauses.

- `Clause.Settled`: a sound clause that fits its place and obeys the rules for operands.
- `Place.Fits.admits`: what fits a place is admitted there.
- `Section.Step.sound`: an operation on a section of settled clauses that is given sound ones leaves such a section.
- `Section.Grown.sound`: so a section that operations made of sound clauses is one.
-/
import SqlTree.Proofs.Rendering.Fault
import SqlTree.Proofs.Statement.Grown
import SqlTree.Proofs.Statement.Place

namespace SqlTree

/-! ## Sound clauses -/

/-- the operands of which no builder asks what they are -/
def Clause.unchecked : Clause → List Clause
  | .logic .. | .not _ | .calc .. | .join .. | .aliased .. => []
  | .assign _ value => [value]
  | c => c.operands

mutual

/-- a clause whose unchecked operands are scalars without an alias, throughout, and whose selects are sound -/
inductive Clause.Sound : Clause → Prop
  | node {c : Clause} (unchecked : ∀ x ∈ c.unchecked, x.isExpression = true ∧ x.isAliased = false)
    (operands : ∀ x ∈ c.operands, Clause.Sound x) (query : ∀ s ∈ c.query?, Select.Sound s) : Clause.Sound c

inductive Select.Sound : Select → Prop
  | built {steps : List SelectStep} {s : Select} (built : SelectDraft.build steps = .ok s)
    (clauses : ∀ b ∈ steps, ∀ c ∈ b.given, Clause.Sound c) : Select.Sound s
  | joined {s s' : Select} {kind : JoinKind} {target condition : Clause} (sound : Select.Sound s)
    (joined : (Query.single (.select s)).addJoin kind target condition = .ok (.single (.select s')))
    (clause : Clause.Sound (.join kind target condition)) : Select.Sound s'

end

namespace Clause.Sound

variable {c x : Clause}

theorem scalar (h : c.Sound) (hx : x ∈ c.unchecked) : x.isExpression = true ∧ x.isAliased = false := by
  cases h with
  | node unchecked _ _ => exact unchecked x hx

theorem operand (h : c.Sound) (hx : x ∈ c.operands) : x.Sound := by
  cases h with
  | node _ operands _ => exact operands x hx

theorem select {s : Select} (h : c.Sound) (hs : s ∈ c.query?) : s.Sound := by
  cases h with
  | node _ _ query => exact query s hs

theorem leaf (operands : c.operands = []) (query : c.query? = none) : c.Sound := by
  have unchecked : c.unchecked = [] := by cases c <;> first | rfl | exact operands | cases operands
  exact .node (by simp [unchecked]) (by simp [operands]) (by simp [query])

theorem of_scalars (query : c.query? = none)
    (unchecked : ∀ x ∈ c.unchecked, x.isExpression = true ∧ x.isAliased = false)
    (operands : ∀ x ∈ c.operands, x.Sound) : c.Sound := .node unchecked operands (by simp [query])

/-- A connective, arithmetic and an alias ask for sound operands only. -/
theorem of_operands (unchecked : c.unchecked = []) (query : c.query? = none) (operands : ∀ x ∈ c.operands, x.Sound) :
    c.Sound := of_scalars query (by simp [unchecked]) operands

end Clause.Sound

/-! ## Clauses at their places -/

theorem Clause.scalar_of_isPredicate {c : Clause} (h : c.isPredicate = true) :
    c.isExpression = true ∧ c.isAliased = false := by
  cases c <;> first | exact ⟨rfl, rfl⟩ | cases h

theorem Clause.scalar_of_isArithmetic {c : Clause} (h : c.isArithmetic = true) :
    c.isExpression = true ∧ c.isAliased = false := by
  cases c <;> first | exact ⟨rfl, rfl⟩ | cases h

/-- what a place asks of a clause by itself; arithmetic may have taken the place of a query that rows come from -/
def Place.Fits : Place → Clause → Prop
  | .value, c => c.isExpression = true ∧ c.isAliased = false
  | .item, c => c.isExpression = true
  | .source, .join _ target condition => target.isTableSource = true ∧ condition.isPredicate = true
  | .source, c => c.isTableSource = true ∨ c.isExpression = true
  | .sortItem, c => c.kind = .order
  | .setItem, .assign target _ => target.kind = .field
  | .setItem, _ => False
  | .column, c => c.kind = .field

/-- a sound clause that fits its place and obeys the rules for operands -/
structure Clause.Settled (p : Place) (c : Clause) : Prop where
  fits : p.Fits c
  sound : c.Sound
  checked : c.check = .ok ()

namespace Place

variable {p : Place} {c : Clause}

theorem fits_source_of_isTableSource (h : c.isTableSource = true) : Place.source.Fits c := by
  cases c <;> first | exact .inl h | cases h

theorem fits_source_of_isExpression (h : c.isExpression = true) : Place.source.Fits c := by
  cases c <;> first | exact .inr h | cases h

/-- A scalar is no table, no sort item and no assignment, so every place but that of a column admits it. -/
theorem admits_of_isExpression (value : p = .value → c.isAliased = false) (column : p ≠ .column)
    (h : c.isExpression = true) : p.Admits c where
  value here := ⟨h, value here⟩
  table kind := by cases c <;> first | (cases kind; done) | cases h
  order kind := by cases c <;> first | (cases kind; done) | cases h
  assign _ _ same := by
    subst same
    cases h
  column here := absurd here column

theorem Fits.admits (h : p.Fits c) : p.Admits c := by
  cases p with
  | value => exact admits_of_isExpression (fun _ => h.2) (by simp) h.1
  | item => exact admits_of_isExpression (by simp) (by simp) h
  | source =>
    refine ⟨by simp, fun _ => rfl, fun kind => ?_, fun target value same => ?_, by simp⟩
    · cases c <;> first | (cases kind; done) | (cases h <;> contradiction)
    · subst same
      cases h <;> contradiction
  | sortItem =>
    refine ⟨by simp, fun kind => ?_, fun _ => rfl, fun target value same => ?_, by simp⟩
    · cases h.symm.trans kind
    · subst same
      cases h
  | setItem =>
    cases c with
    | assign target value =>
      refine ⟨by simp, by simp [Clause.kind], by simp [Clause.kind], fun target value same => ?_, by simp⟩
      cases same
      exact ⟨rfl, h⟩
    | _ => exact h.elim
  | column =>
    refine ⟨by simp, fun kind => ?_, fun kind => ?_, fun target value same => ?_, fun _ => h⟩
    · cases h.symm.trans kind
    · cases h.symm.trans kind
    · subst same
      cases h

/-- What an alias names fits where the alias does. -/
theorem Fits.subject {subject : Clause} {name : String} (h : p.Fits (.aliased subject name)) : p.Fits subject := by
  cases p with
  | value => cases h.2
  | item => exact h
  | source =>
    rcases h with named | scalar
    · cases subject <;> first | exact .inl rfl | exact .inr rfl | cases named
    · exact fits_source_of_isExpression scalar
  | setItem => exact h.elim
  | sortItem | column => cases h

theorem Fits.join {kind : JoinKind} {target condition : Clause} (h : p.Fits (.join kind target condition)) :
    target.isTableSource = true ∧ condition.isPredicate = true := by
  cases p with
  | source => exact h
  | value => cases h.1
  | setItem => exact h.elim
  | item | sortItem | column => cases h

theorem Fits.assign {target value : Clause} (h : p.Fits (.assign target value)) : target.kind = .field := by
  cases p with
  | setItem => exact h
  | value => cases h.1
  | source => rcases h with h | h <;> cases h
  | item | sortItem | column => cases h

end Place

/-! ## Sections -/

namespace Section

/-- a section whose clauses stand where they belong; those of a boolean section are predicates -/
structure Sound (s : Section) : Prop where
  items : ∀ c ∈ s.items, c.Settled s.kind.place
  predicates : s.kind.isBoolean = true → ∀ c ∈ s.items, c.isPredicate = true

theorem Sound.empty (kind : SectionKind) : (Section.empty kind).Sound := by
  constructor <;> simp [Section.empty]

/-! ### What an operation puts into a section -/

section
variable {kind : SectionKind} {c : Clause}

theorem place_of_isBoolean (boolean : kind.isBoolean = true) : kind.place = .value := by
  cases kind <;> first | rfl | cases boolean

/-- What a section takes fits its place as the section keeps it. -/
theorem fits_of_taken {s : Section} (taken : s.refusal? c = none) : s.kind.place.Fits (admitted s.kind c) := by
  cases hk : s.kind with
  | filter | having => exact Clause.scalar_of_isPredicate (predicate_of_taken (by rw [hk]; rfl) taken)
  | fields =>
    have expression : c.isExpression = true := by simpa [refusal?, hk] using taken
    exact expression
  | groupBy | values =>
    cases he : c.isExpression <;> cases ha : c.isAliased <;> simp [refusal?, hk, he, ha] at taken
    first | exact he | exact ⟨he, ha⟩
  | sources =>
    by_cases hj : c.kind = .join
    · cases c <;> cases hj
      rename_i target condition
      cases ht : target.isTableSource <;> cases hc : condition.isPredicate <;> simp [refusal?, hk, ht, hc] at taken
      exact ⟨ht, hc⟩
    · rw [refusal?_sources hk hj] at taken
      have table : c.isTableSource = true := by simpa using taken
      exact Place.fits_source_of_isTableSource table
  | orderBy => cases c <;> rfl
  | assignments =>
    rw [refusal?_assignments hk] at taken
    cases c with
    | assign target value =>
      have field : target.kind = .field ∧ value.isExpression = true := by simpa using taken
      exact field.1
    | _ => cases taken
  | columns => cases c <;> first | rfl | simp [refusal?, hk] at taken

theorem settled_of_taken {s : Section} (checked : c.check = .ok ()) (taken : s.refusal? c = none)
    (sound : (admitted s.kind c).Sound) : (admitted s.kind c).Settled s.kind.place :=
  ⟨fits_of_taken taken, sound, (fits_admitted checked taken).check⟩

/-- An alias stands where it belongs if what it names does, but not in a row of values. -/
theorem settled_aliased (h : c.Settled kind.place) (predicate : kind.isBoolean = true → c.isPredicate = true)
    (allowed : takesAlias kind c = true) (suits : kind ≠ .values) (name : String) :
    (Clause.aliased c name).Settled kind.place := by
  refine ⟨?_, .of_operands rfl rfl (List.forall_mem_singleton.2 h.sound), by rw [Clause.check]; exact h.checked⟩
  have fits := h.fits
  cases kind with
  | fields | groupBy => exact fits
  | sources => exact .inl allowed
  | values => exact absurd rfl suits
  | filter | having =>
    -- A predicate is neither a table nor a query, and nothing else is given an alias there.
    have truth := predicate rfl
    cases c <;> trivial
  | orderBy | assignments | columns => cases c <;> trivial

/-- Arithmetic that extends an item stands where the item did, but not in a list of columns. -/
theorem fits_withArithmeticPart {p : Place} {op : Arithmetic} {x operand : Clause} (h : p.Fits c) (hp : p ≠ .column) :
    p.Fits (withArithmeticPart c (.calc x op operand)) := by
  cases p with
  | value => cases c <;> first | exact ⟨rfl, rfl⟩ | cases h.1 | cases h.2
  | item => cases c <;> first | rfl | cases h
  | source => cases c <;> first | exact .inr rfl | rcases h with h | h <;> cases h
  | sortItem => cases c <;> first | rfl | cases h
  | setItem => cases c <;> exact h
  | column => exact absurd rfl hp

theorem sound_withArithmeticPart {op : Arithmetic} {operand : Clause} (h : c.Sound) (ho : operand.Sound) :
    (withArithmeticPart c (.calc (arithmeticPart c) op operand)).Sound := by
  have made : ∀ {x : Clause}, x.Sound → (Clause.calc x op operand).Sound := fun hx =>
    .of_operands rfl rfl (List.forall_mem_cons.2 ⟨hx, List.forall_mem_singleton.2 ho⟩)
  cases c with
  | assign target value =>
    have ht : target.Sound := h.operand (by simp [Clause.operands])
    have hv := made (h.operand (x := value) (by simp [Clause.operands]))
    exact .of_scalars rfl (List.forall_mem_singleton.2 ⟨rfl, rfl⟩)
      (List.forall_mem_cons.2 ⟨ht, List.forall_mem_singleton.2 hv⟩)
  | order subject direction =>
    have hs := made (h.operand (x := subject) (List.mem_singleton_self subject))
    exact .of_scalars rfl (List.forall_mem_singleton.2 ⟨rfl, rfl⟩) (List.forall_mem_singleton.2 hs)
  | aliased subject name =>
    have hs := made (h.operand (x := subject) (List.mem_singleton_self subject))
    exact .of_operands rfl rfl (List.forall_mem_singleton.2 hs)
  | _ => exact made h

end

variable {s t : Section} {e : SectionEdit}

/-- A predicate joined onto that of a boolean section stands where it belongs. -/
theorem Sound.joinOn (h : s.Sound) (boolean : s.kind.isBoolean = true) {c : Clause} (checked : c.check = .ok ())
    (predicate : c.isPredicate = true) (sound : c.Sound) (op : Connective) : (s.joinOn op c).Sound := by
  have root : ∀ x : Clause, x.isPredicate = true → x.Sound → x.check = .ok () → x.Settled s.kind.place := by
    intro x truth sound checked
    rw [place_of_isBoolean boolean]
    exact ⟨Clause.scalar_of_isPredicate truth, sound, checked⟩
  have items : ∀ x ∈ (s.joinOn op c).items, x.Settled s.kind.place ∧ x.isPredicate = true := by
    intro x hx
    rcases mem_joinOn hx with hx | rfl | ⟨before, there, rfl⟩
    · exact ⟨h.items x hx, h.predicates boolean x hx⟩
    · exact ⟨root x predicate sound checked, predicate⟩
    · have settled := h.items before there
      have truth := h.predicates boolean before there
      refine ⟨root _ rfl (.of_operands rfl rfl ?_) ((Clause.check_eq_ok_iff _).2 ⟨⟨truth, predicate⟩, ?_⟩), rfl⟩
      · exact List.forall_mem_cons.2 ⟨settled.sound, List.forall_mem_singleton.2 sound⟩
      · exact List.forall_mem_cons.2 ⟨settled.checked, List.forall_mem_singleton.2 checked⟩
  exact ⟨fun x hx => (items x hx).1, fun _ x hx => (items x hx).2⟩

/-- An item in the place of another leaves the section sound if it stands where it belongs. -/
theorem Sound.set (h : s.Sound) {c : Clause} (settled : c.Settled s.kind.place)
    (predicate : s.kind.isBoolean = true → c.isPredicate = true) (i : Nat) :
    ({ s with items := s.items.set i c } : Section).Sound := by
  constructor
  · intro x hx
    rcases List.mem_or_eq_of_mem_set hx with hx | rfl
    · exact h.items x hx
    · exact settled
  · intro boolean x hx
    rcases List.mem_or_eq_of_mem_set hx with hx | rfl
    · exact h.predicates boolean x hx
    · exact predicate boolean

/-- **An operation keeps clauses where they belong**, if what it is given is sound and it suits the section. -/
theorem Step.sound (step : Step s e t) (suits : Suits s.kind e) (clauses : ∀ c ∈ given s.kind e, c.Sound)
    (h : s.Sound) : t.Sound := by
  cases step with
  | @push c checked taken =>
    have sound := clauses (admitted s.kind c) (List.mem_singleton_self _)
    rw [taking]
    split
    · rename_i boolean
      rw [admitted_of_isBoolean boolean] at sound
      exact h.joinOn boolean checked (predicate_of_taken boolean taken) sound .and
    · rename_i list
      have settled := settled_of_taken checked taken sound
      refine ⟨?_, fun boolean => absurd boolean list⟩
      exact List.forall_mem_append.2 ⟨h.items, List.forall_mem_singleton.2 settled⟩
  | @combine op c boolean checked taken =>
    exact h.joinOn boolean checked (predicate_of_taken boolean taken) (clauses c (List.mem_singleton_self c)) op
  | @aliasAs name i c here found allowed =>
    have there : c ∈ s.items := List.mem_of_getElem? found
    have truth := fun boolean => h.predicates boolean c there
    refine h.set (settled_aliased (h.items c there) truth allowed suits name) (fun boolean => ?_) i
    have truth := truth boolean
    have plain : s.kind ≠ .fields := fun hk => by
      rw [hk] at boolean
      cases boolean
    rw [takesAlias, if_neg plain] at allowed
    cases c <;> first | (cases truth; done) | cases allowed
  | @«calc» op operand c i checked here found left right =>
    have there : c ∈ s.items := List.mem_of_getElem? found
    have settled := h.items c there
    refine h.set ⟨fits_withArithmeticPart settled.fits ?_, sound_withArithmeticPart settled.sound ?_, ?_⟩ ?_ i
    · intro hp
      cases hk : s.kind <;> rw [hk] at hp suits <;> first | (cases hp; done) | exact suits rfl
    · exact clauses operand (List.mem_singleton_self operand)
    · exact check_withArithmeticPart settled.checked checked left right
    · intro boolean
      have truth := h.predicates boolean c there
      cases c <;> first | (cases truth; done) | cases left
  | finish => exact ⟨h.items, h.predicates⟩

/-- **A section that is given sound clauses is sound**, by induction on the operations. -/
theorem Grown.sound (h : s.Grown Clause.Sound) : s.Sound := by
  induction h with
  | empty kind => exact .empty kind
  | step _ step suits clauses ih => exact step.sound suits clauses ih

end Section

end SqlTree
