/-
What an operation on a section does.

- `Section.Step`: all that an operation that succeeds can do, one case for each sort of operation.
- `Section.outcome_cases`: an operation takes such a step, or fails and leaves the section as it was.
- `Section.apply_eq_ok`: what an operation that must succeed gives is what its step gives.
-/
import SqlTree.Proofs.Section.Push

namespace SqlTree

theorem Clause.withAlias_eq_ok {subject c : Clause} {name : String} (h : subject.withAlias name = .ok c) :
    subject.isAliasable = true ∧ c = .aliased subject name := by
  rw [withAlias] at h
  split at h
  · exact ⟨‹_›, (Except.ok.inj h).symm⟩
  · cases h

theorem Clause.withAlias_of_isAliasable {subject : Clause} (h : subject.isAliasable = true) (name : String) :
    subject.withAlias name = .ok (.aliased subject name) := by
  rw [withAlias, if_pos h]

/-- A clause passes for an operand of arithmetic if it may have it. -/
theorem Clause.checkOperand_cases (c : Clause) (op : Arithmetic) :
    (c.isArithmetic = true ∧ c.checkOperand op = .ok ()) ∨ ∃ fault, c.checkOperand op = .error fault := by
  rw [checkOperand]
  cases c.isArithmetic with
  | false => exact .inr ⟨_, rfl⟩
  | true => exact .inl ⟨rfl, rfl⟩

theorem Clause.arithmetic_of_checkOperand {left right : Clause} {op : Arithmetic} (hl : left.checkOperand op = .ok ())
    (hr : right.checkOperand op = .ok ()) : Clause.arithmetic left op right = .ok (.calc left op right) := by
  rw [arithmetic, hl, hr]
  rfl

namespace Section

/-- what an operation that succeeds does to a section, and what it has made sure of -/
inductive Step (s : Section) : SectionEdit → Section → Prop
  | push {c : Clause} (checked : c.check = .ok ()) (taken : s.refusal? c = none) : Step s (.push c) (s.taking c)
  | combine {op : Connective} {c : Clause} (boolean : s.kind.isBoolean = true) (checked : c.check = .ok ())
    (taken : s.refusal? c = none) : Step s (.combine op c) (s.joinOn op c)
  | aliasAs {name : String} {i : Nat} {c : Clause} (here : s.cursor = some i) (found : s.items[i]? = some c)
    (allowed : takesAlias s.kind c = true) :
    Step s (.aliasAs name) { s with items := s.items.set i (.aliased c name) }
  | calc {op : Arithmetic} {operand c : Clause} {i : Nat} (checked : operand.check = .ok ()) (here : s.cursor = some i)
    (found : s.items[i]? = some c) (left : (arithmeticPart c).isArithmetic = true)
    (right : operand.isArithmetic = true) :
    Step s (.calc op operand)
      { s with items := s.items.set i (withArithmeticPart c (.calc (arithmeticPart c) op operand)) }
  | finish : Step s .finish s.finish

theorem Step.kind_eq {s t : Section} {e : SectionEdit} (h : Step s e t) : t.kind = s.kind := by
  cases h with
  | push =>
    rw [taking]
    split <;> rfl
  | combine | aliasAs | «calc» | finish => rfl

/-- Joining a predicate on leaves items that were there before, the predicate, or the two joined. -/
theorem mem_joinOn {s : Section} {op : Connective} {c x : Clause} (hx : x ∈ (s.joinOn op c).items) :
    x ∈ s.items ∨ x = c ∨ ∃ before ∈ s.items, x = .logic before op c := by
  rw [joinOn] at hx
  rcases List.mem_append.1 hx with hx | hx
  · exact .inl (List.dropLast_subset s.items hx)
  · obtain rfl := List.mem_singleton.1 hx
    cases last : s.items.getLast? with
    | none => exact .inr (.inl rfl)
    | some before => exact .inr (.inr ⟨before, List.mem_of_getLast? last, rfl⟩)

/-- The current item is looked up, or its absence is reported. -/
theorem run_current (s : Section) (modifier : Modifier) :
    (∃ i c, s.cursor = some i ∧ s.items[i]? = some c ∧ (current modifier).run s = (.ok (i, c), s))
      ∨ (current modifier).run s = (.error (.construction (.noCurrentItem s.kind modifier)), s) := by
  rw [current]
  simp only [run_bind, run_get]
  rcases hc : s.cursor with _ | i
  · exact .inr rfl
  · rcases hi : s.items[i]? with _ | c
    · right
      simp [hi]
    · left
      exact ⟨i, c, rfl, hi, by simp [hi]; rfl⟩

/-- What a section lets be given an alias may have one: outside of a select list it is a table or a query. -/
theorem isAliasable_of_takesAlias {kind : SectionKind} {c : Clause} (h : takesAlias kind c = true) :
    c.isAliasable = true := by
  rw [takesAlias] at h
  split at h
  · exact h
  · cases c <;> first | rfl | cases h

@[simp] theorem run_put (s : Section) (i : Nat) (c : Clause) :
    (put i c).run s = (.ok (), { s with items := s.items.set i c }) := rfl

variable {e : SectionEdit} {s t : Section}

theorem outcome_of_run (h : (perform e).run s = (.ok (), t)) : outcome e s = (none, t) := by
  rw [outcome, h]

theorem outcome_of_run_error {fault : Error} (h : (perform e).run s = (.error fault, t)) :
    outcome e s = (some fault, t) := by
  rw [outcome, h]

/-- **An operation takes a step, or fails and changes nothing.** -/
theorem outcome_cases (e : SectionEdit) (s : Section) :
    (∃ t, outcome e s = (none, t) ∧ Step s e t) ∨ ∃ fault, outcome e s = (some fault, s) := by
  cases e with
  | push c =>
    rcases checked : c.check with fault | ⟨⟩
    · exact .inr ⟨fault, outcome_of_run_error (by simp [perform, push, run_bind, checked])⟩
    · rcases taken : s.refusal? c with _ | why
      · refine .inl ⟨_, outcome_of_run ?_, .push checked taken⟩
        cases hb : s.kind.isBoolean <;> simp [perform, push, combine, run_bind, checked, taken, taking, hb]
      · refine .inr ⟨.construction (.refused s.kind c.kind why), outcome_of_run_error ?_⟩
        cases hb : s.kind.isBoolean <;> simp [perform, push, combine, run_bind, checked, taken, hb]
  | combine op c =>
    cases boolean : s.kind.isBoolean with
    | false =>
      refine .inr ⟨.construction (.notBoolean s.kind op), outcome_of_run_error ?_⟩
      simp [perform, combine, run_bind, boolean]
    | true =>
      rcases taken : s.refusal? c with _ | why
      · rcases checked : c.check with fault | ⟨⟩
        · exact .inr ⟨fault, outcome_of_run_error (by simp [perform, combine, run_bind, boolean, taken, checked])⟩
        · refine .inl ⟨_, outcome_of_run ?_, .combine boolean checked taken⟩
          simp [perform, combine, run_bind, boolean, taken, checked]
      · refine .inr ⟨.construction (.refused s.kind c.kind why), outcome_of_run_error ?_⟩
        simp [perform, combine, run_bind, boolean, taken]
  | aliasAs name =>
    rcases run_current s .aliasing with ⟨i, c, here, found, run⟩ | run
    · cases allowed : takesAlias s.kind c with
      | false =>
        refine .inr ⟨.construction (.itemAlias s.kind c.kind name), outcome_of_run_error ?_⟩
        simp [perform, aliasAs, run_bind, run, allowed]
      | true =>
        -- the item is out of the section only when nothing can go wrong any more
        have aliased := Clause.withAlias_of_isAliasable (isAliasable_of_takesAlias allowed) name
        refine .inl ⟨_, outcome_of_run ?_, .aliasAs here found allowed⟩
        simp [perform, aliasAs, run_bind, run, allowed, aliased]
    · refine .inr ⟨.construction (.noCurrentItem s.kind .aliasing), outcome_of_run_error ?_⟩
      simp [perform, aliasAs, run_bind, run]
  | «calc» op operand =>
    rcases checked : operand.check with fault | ⟨⟩
    · exact .inr ⟨fault, outcome_of_run_error (by simp [perform, extend, run_bind, checked])⟩
    · rcases run_current s (.calc op) with ⟨i, c, here, found, run⟩ | run
      · rcases (arithmeticPart c).checkOperand_cases op with ⟨left, hl⟩ | ⟨fault, hl⟩
        · rcases operand.checkOperand_cases op with ⟨right, hr⟩ | ⟨fault, hr⟩
          · -- both operands have passed before the item is taken out of the section
            have made := Clause.arithmetic_of_checkOperand hl hr
            refine .inl ⟨_, outcome_of_run ?_, .calc checked here found left right⟩
            simp [perform, extend, run_bind, checked, run, hl, hr, made]
          · exact .inr ⟨fault, outcome_of_run_error (by simp [perform, extend, run_bind, checked, run, hl, hr])⟩
        · exact .inr ⟨fault, outcome_of_run_error (by simp [perform, extend, run_bind, checked, run, hl])⟩
      · refine .inr ⟨.construction (.noCurrentItem s.kind (.calc op)), outcome_of_run_error ?_⟩
        simp [perform, extend, run_bind, checked, run]
  | finish => exact .inl ⟨_, rfl, .finish⟩

/-- What an operation that must succeed gives is what its step gives. -/
theorem apply_eq_ok (h : s.apply e = .ok t) : Step s e t := by
  rw [apply] at h
  rcases outcome_cases e s with ⟨u, ho, step⟩ | ⟨fault, ho⟩
  · rw [ho] at h
    cases h
    exact step
  · rw [ho] at h
    cases h

end Section
end SqlTree
