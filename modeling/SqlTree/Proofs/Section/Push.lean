/-
Filling sections clause by clause.

- `apply_push`: what adding a clause to a section comes to.
- `Section.Like.push`: a section takes every clause that is like one that it takes, and stays alike.
- `Section.Rebuilds`: clauses that, pushed in order onto an empty section, are its clauses.
-/
import SqlTree.Proofs.Clause.Operands
import SqlTree.Section

namespace SqlTree

namespace Section

/-! ## Runs of edits -/

section
variable {α β : Type}

@[simp] theorem run_get (s : Section) : (get : Edit Section).run s = (.ok s, s) := rfl

@[simp] theorem run_modify (f : Section → Section) (s : Section) : (modify f : Edit Unit).run s = (.ok (), f s) := rfl

@[simp] theorem run_fail (fault : ConstructionFault) (s : Section) :
    (fail fault : Edit α).run s = (.error (.construction fault), s) := rfl

@[simp] theorem run_liftM (r : Result α) (s : Section) : (liftM r : Edit α).run s = (r, s) := by
  cases r <;> rfl

theorem run_bind (w : Edit α) (f : α → Edit β) (s : Section) :
    (w >>= f).run s = match w.run s with
      | (.ok a, s) => (f a).run s
      | (.error e, s) => (.error e, s) := by
  show (ExceptT.bindCont f (w.run s).1) (w.run s).2 = _
  rcases w.run s with ⟨_ | _, _⟩ <;> rfl

end

/-- A section keeps a clause as it is, or as a sort item. -/
theorem admitted_cases (kind : SectionKind) (c : Clause) :
    admitted kind c = c ∨ admitted kind c = .order c .ascending := by
  unfold admitted
  split <;> simp

theorem admitted_of_ne {kind : SectionKind} (h : kind ≠ .orderBy) (c : Clause) : admitted kind c = c := by
  cases kind <;> first | rfl | exact absurd rfl h

theorem admitted_of_isBoolean {kind : SectionKind} (boolean : kind.isBoolean = true) (c : Clause) :
    admitted kind c = c := admitted_of_ne (fun sorted => by rw [sorted] at boolean; cases boolean) c

/-- the section with a clause that it takes: joined on with AND, or behind the others -/
def taking (c : Clause) (s : Section) : Section :=
  if s.kind.isBoolean then s.joinOn .and c else s.append (admitted s.kind c)

theorem run_combine {s : Section} {c : Clause} (hc : c.check = .ok ()) (hb : s.kind.isBoolean = true) :
    (combine .and c).run s = match s.refusal? c with
      | some why => (.error (.construction (.refused s.kind c.kind why)), s)
      | none => (.ok (), s.joinOn .and c) := by
  rcases hr : s.refusal? c with _ | why <;>
    simp [combine, run_bind, hb, hr, hc]

/-- **Adding a clause**: it obeys the rules for operands, and the section does not refuse it. -/
theorem apply_push (s : Section) (c : Clause) :
    s.apply (.push c) = (do
      c.check
      match s.refusal? c with
      | some why => .error (.construction (.refused s.kind c.kind why))
      | none => .ok (s.taking c)) := by
  rw [apply, outcome, perform, push]
  simp only [run_bind, run_liftM]
  cases hc : c.check with
  | error e => rfl
  | ok _ =>
    simp only [run_get]
    cases hb : s.kind.isBoolean with
    | true =>
      rw [if_pos rfl, run_combine hc hb]
      rcases hr : s.refusal? c with _ | why
      · rw [taking, if_pos hb]
        rfl
      · rfl
    | false =>
      rcases hr : s.refusal? c with _ | why
      · rw [taking, hb]
        rfl
      · rfl

end Section

/-! ## Sections that are alike -/

namespace Clause

variable {L : Likeness} {c c' : Clause}

theorem Like.isAliased_eq (h : c.Like L c') : c.isAliased = c'.isAliased := by rw [isAliased, isAliased, h.kind_eq]

theorem Like.isAliasable_eq (h : c.Like L c') : c.isAliasable = c'.isAliasable := by
  rw [isAliasable, isAliasable, h.kind_eq]

/-- An alias is as scalar as what it names, so this is an induction on the aliases on top of each other. -/
theorem Like.isExpression_eq (h : c.Like L c') : c.isExpression = c'.isExpression := by
  have all : (∀ c c', Clause.Like L c c' → c.isExpression = c'.isExpression) ∧ ∀ s s', Select.Like L s s' → True := by
    refine likeInduction (fun c c' h => ?_) fun _ _ _ _ => trivial
    cases h with
    | aliased _ subject => exact subject.2
    | _ => rfl
  exact all.1 c c' h

theorem Like.isTableSource_eq (h : c.Like L c') : c.isTableSource = c'.isTableSource := by
  cases h.node with
  | aliased _ subject => exact subject.isTableLike_eq
  | _ => rfl

end Clause

namespace Section

structure Like (L : Likeness) (s s' : Section) : Prop where
  kind : s.kind = s'.kind
  items : List.Forall₂ (Clause.Like L) s.items s'.items

/-- what a FROM list makes of a clause that is no join, by the sort of clause -/
theorem refusal?_sources {s : Section} (hs : s.kind = .sources) {c : Clause} (hc : c.kind ≠ .join) :
    s.refusal? c = if c.isTableSource then none else some .notSource := by
  cases c <;> first | exact absurd rfl hc | simp only [refusal?, hs]

/-- what a list of assignments makes of a clause, by the sorts of the clause and its target -/
theorem refusal?_assignments {s : Section} (hs : s.kind = .assignments) (c : Clause) :
    s.refusal? c = match c with
      | .assign target value =>
        if target.kind = .field ∧ value.isExpression then none else some .notAssignment
      | _ => some .notAssignment := by
  cases c with
  | assign target value =>
    cases target <;> simp [refusal?, hs, Clause.kind]
  | _ => simp only [refusal?, hs]

variable {L : Likeness} {s s' t : Section} {c c' : Clause}

/-- Sections that are alike refuse clauses that are alike for the same reason. -/
theorem Like.refusal?_eq (hs : s.Like L s') (hc : c.Like L c') : s.refusal? c = s'.refusal? c' := by
  have kind := hs.kind
  cases hk : s.kind with
  | filter | having => simp only [refusal?, ← kind, hk, hc.isPredicate_eq]
  | fields => simp only [refusal?, ← kind, hk, hc.isExpression_eq]
  | groupBy | values => simp only [refusal?, ← kind, hk, hc.isExpression_eq, hc.isAliased_eq]
  | orderBy =>
    have node : ∀ {s : Section}, s.kind = .orderBy → ∀ c : Clause, s.refusal? c =
        if c.kind = .order ∨ c.isExpression then none else some .notSortItem := by
      intro s hs c
      cases c <;> simp [refusal?, hs, Clause.kind]
    rw [node hk, node (kind ▸ hk), hc.kind_eq, hc.isExpression_eq]
  | columns =>
    have node : ∀ {s : Section}, s.kind = .columns → ∀ c : Clause, s.refusal? c =
        if c.kind = .field then none else some .notColumn := by
      intro s hs c
      cases c <;> simp [refusal?, hs, Clause.kind]
    rw [node hk, node (kind ▸ hk), hc.kind_eq]
  | assignments =>
    rw [refusal?_assignments hk, refusal?_assignments (kind ▸ hk)]
    cases hc.node with
    | assign ht hv => simp only [ht.kind_eq, hv.isExpression_eq]
    | _ => rfl
  | sources =>
    by_cases hj : c.kind = .join
    · cases hc.node with
      | join _ ht hcond =>
        have tables : s.items.any Clause.isTableSource = s'.items.any Clause.isTableSource := by
          have items := hs.items
          generalize s.items = xs at items ⊢
          generalize s'.items = ys at items ⊢
          induction items with
          | nil => rfl
          | cons hx _ ih => rw [List.any_cons, List.any_cons, hx.isTableSource_eq, ih]
        simp only [refusal?, ← kind, hk, ht.isTableSource_eq, hcond.isPredicate_eq, tables]
      | _ => cases hj
    · rw [refusal?_sources hk hj, refusal?_sources (kind ▸ hk) (hc.kind_eq ▸ hj), hc.isTableSource_eq]

theorem admitted_like (kind : SectionKind) (hc : c.Like L c') : (admitted kind c).Like L (admitted kind c') := by
  by_cases hk : kind = .orderBy
  · subst hk
    cases hc.node with
    | order => exact hc
    | _ => exact (Clause.NodeLike.order .ascending hc).like
  · rwa [admitted_of_ne hk, admitted_of_ne hk]

theorem Like.joinOn (hs : s.Like L s') (hc : c.Like L c') : (s.joinOn .and c).Like L (s'.joinOn .and c') := by
  obtain ⟨xs, hx⟩ : ∃ xs : List Clause, s.items = xs.reverse := ⟨_, (List.reverse_reverse _).symm⟩
  obtain ⟨ys, hy⟩ : ∃ ys : List Clause, s'.items = ys.reverse := ⟨_, (List.reverse_reverse _).symm⟩
  have items := hs.items
  rw [hx, hy, List.forall₂_reverse_iff] at items
  refine ⟨hs.kind, ?_⟩
  cases items with
  | nil => simpa [Section.joinOn, hx, hy] using hc
  | @cons x y xs ys hxy hrest =>
    have joined : (Clause.logic x .and c).Like L (.logic y .and c') := by
      rw [Clause.Like]
      exact ⟨y, c', rfl, hxy, hc⟩
    simp only [Section.joinOn, hx, hy, List.getLast?_reverse, List.head?_cons, List.dropLast_reverse, List.tail_cons]
    exact List.rel_append (List.forall₂_reverse_iff.2 hrest) (.cons joined .nil)

theorem Like.taking (hs : s.Like L s') (hc : c.Like L c') : (s.taking c).Like L (s'.taking c') := by
  rw [Section.taking, Section.taking, ← hs.kind]
  split
  · exact hs.joinOn hc
  · exact ⟨hs.kind, List.rel_append hs.items (.cons (admitted_like _ hc) .nil)⟩

/-- **A section takes what is like a clause that it takes**, and stays alike. -/
theorem Like.push (hs : s.Like L s') (hc : c.Like L c') (h : s.apply (.push c) = .ok t) :
    ∃ t', s'.apply (.push c') = .ok t' ∧ t.Like L t' := by
  rw [apply_push] at h
  have checked : c.check = .ok () := by
    cases hcheck : c.check with
    | ok _ => rfl
    | error e => rw [hcheck] at h; cases h
  rw [checked] at h
  rw [apply_push, hc.check_eq_ok checked, ← hs.refusal?_eq hc]
  rcases hr : s.refusal? c with _ | why
  · rw [hr] at h
    obtain rfl : s.taking c = t := Except.ok.inj h
    exact ⟨s'.taking c', rfl, hs.taking hc⟩
  · rw [hr] at h
    cases h

/-! ## Whole sections -/

/-- the section with the clauses of a list added in order -/
def pushAll (s : Section) : List Clause → Result Section
  | [] => .ok s
  | c :: cs => do (← s.apply (.push c)).pushAll cs

theorem pushAll_cons_eq_ok {s t : Section} {c : Clause} {cs : List Clause} (h : s.pushAll (c :: cs) = .ok t) :
    ∃ s', s.apply (.push c) = .ok s' ∧ s'.pushAll cs = .ok t := by
  cases hs : s.apply (.push c) with
  | error e =>
    rw [pushAll, hs] at h
    cases h
  | ok s' =>
    rw [pushAll, hs] at h
    exact ⟨s', rfl, h⟩

theorem Like.pushAll {s s' t : Section} {cs cs' : List Clause} (hs : s.Like L s')
    (hcs : List.Forall₂ (Clause.Like L) cs cs') (h : s.pushAll cs = .ok t) :
    ∃ t', s'.pushAll cs' = .ok t' ∧ t.Like L t' := by
  induction hcs generalizing s s' with
  | nil =>
    obtain rfl := Except.ok.inj h
    exact ⟨s', rfl, hs⟩
  | cons hc _ ih =>
    obtain ⟨u, hu, h⟩ := pushAll_cons_eq_ok h
    obtain ⟨u', hu', like⟩ := hs.push hc hu
    obtain ⟨t', ht', like⟩ := ih like h
    refine ⟨t', ?_, like⟩
    rw [Section.pushAll, hu']
    exact ht'

/-- A section takes no clause that breaks the rules for operands. -/
theorem check_of_pushAll {s t : Section} {cs : List Clause} (h : s.pushAll cs = .ok t) :
    ∀ c ∈ cs, c.check = .ok () := by
  induction cs generalizing s with
  | nil => nofun
  | cons c cs ih =>
    obtain ⟨u, hu, h⟩ := pushAll_cons_eq_ok h
    rw [apply_push] at hu
    exact List.forall_mem_cons.2 ⟨(Clause.then_eq_ok_iff.1 hu).1, ih h⟩

/-- clauses that, pushed in order onto an empty section, are its clauses -/
def Rebuilds (kind : SectionKind) (items : List Clause) : Prop :=
  ∃ s, (empty kind).pushAll items = .ok s ∧ s.items = items

namespace Rebuilds

variable {kind : SectionKind} {items items' : List Clause}

theorem check (h : Rebuilds kind items) : ∀ c ∈ items, c.check = .ok () := by
  obtain ⟨s, hs, -⟩ := h
  exact check_of_pushAll hs

theorem like (h : Rebuilds kind items) (hitems : List.Forall₂ (Clause.Like L) items items') :
    ∃ s, (empty kind).pushAll items' = .ok s ∧ List.Forall₂ (Clause.Like L) items s.items := by
  obtain ⟨s, hs, same⟩ := h
  obtain ⟨s', hs', like⟩ := Like.pushAll ⟨rfl, .nil⟩ hitems hs
  exact ⟨s', hs', same ▸ like.items⟩

end Rebuilds

end Section
end SqlTree
