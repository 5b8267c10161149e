/-
Equality of trees.

Equality looks at literals and parameters by their own equality, under which a float that is no number differs from
itself. So a tree that is like another with equal leaves equals it as far as this one equals itself.

- `Query.Like.beq_eq`: equality with a query of equal leaves is equality with itself.
-/
import SqlTree.Proofs.Clause.Likeness
import SqlTree.Statement

namespace SqlTree

/-- leaves that equal their partners as far as these equal themselves -/
structure Likeness.Equates (L : Likeness) : Prop where
  value : ∀ v v', L.value v v' → (v' == v) = (v == v)
  param : ∀ p p', L.param p p' → (p' == p) = (p == p)

variable {L : Likeness}

namespace Clause

theorem beqAll_eq {cs cs' : List Clause} (h : List.Forall₂ (fun c c' => c.Like L c' ∧ c'.beq c = c.beq c) cs cs') :
    beqAll cs' cs = beqAll cs cs := by
  induction h with
  | nil => rfl
  | cons hc _ ih => rw [beqAll, beqAll, hc.2, ih]

theorem beqOption_eq {o o' : Option Clause} (h : Option.Rel (fun c c' => c.Like L c' ∧ c'.beq c = c.beq c) o o') :
    beqOption o' o = beqOption o o := by
  cases h with
  | none => rfl
  | some hc => rw [beqOption, beqOption, hc.2]

/-- Nodes agree in their own data, so they are as equal as their leaves and what is right below them. -/
theorem NodeLike.beq_eq (hL : L.Equates) {c c' : Clause}
    (h : c.NodeLike L (fun c c' => c.Like L c' ∧ c'.beq c = c.beq c)
    (fun s s' => s.Like L s' ∧ s'.beq s = s.beq s) c') : c'.beq c = c.beq c := by
  cases h with
  | field | allFields | builtin | table => rfl
  | constant h => simp only [Clause.beq, hL.value _ _ h]
  | param h => simp only [Clause.beq, hL.param _ _ h]
  | isNull _ h | not h | cast _ h | aliased _ h | order _ h | anyRow h | subQuery h => simp only [Clause.beq, h.2]
  | compare _ hl hr | logic _ hl hr | «calc» _ hl hr | join _ hl hr | assign hl hr => simp only [Clause.beq, hl.2, hr.2]
  | between h hl hr => simp only [Clause.beq, h.2, hl.2, hr.2]
  | inList _ h hs => simp only [Clause.beq, h.2, beqAll_eq hs]
  | function _ hs | concat hs => simp only [Clause.beq, beqAll_eq hs]
  | aggregate _ _ h => simp only [Clause.beq, beqOption_eq h]

end Clause

/-- Clauses and selects that are alike equal each other as far as the first equals itself. -/
theorem Like.beq_all (hL : L.Equates) :
    (∀ c c', Clause.Like L c c' → c'.beq c = c.beq c) ∧ ∀ s s', Select.Like L s s' → s'.beq s = s.beq s := by
  refine Clause.likeInduction (fun c c' => Clause.NodeLike.beq_eq hL) fun s s' _ h => ?_
  obtain ⟨distinct, limit, hF, hS, hW, hG, hH, hO⟩ := h
  simp only [Select.beq, Clause.beqAll_eq hF, Clause.beqAll_eq hS, Clause.beqOption_eq hW, Clause.beqAll_eq hG,
    Clause.beqOption_eq hH, Clause.beqAll_eq hO]

/-! ## Statements -/

theorem list_beq_eq {α : Type} [BEq α] {R : α → α → Prop} (hR : ∀ a a', R a a' → (a' == a) = (a == a)) {xs ys : List α}
    (h : List.Forall₂ R xs ys) : (ys == xs) = (xs == xs) := by
  induction h with
  | nil => rfl
  | cons hx _ ih => rw [List.cons_beq_cons, List.cons_beq_cons, hR _ _ hx, ih]

namespace Like

variable (hL : L.Equates)

include hL

theorem clauses_beq_eq {cs cs' : List Clause} (h : Clause.LikeAll L cs cs') : (cs' == cs) = (cs == cs) :=
  list_beq_eq (Like.beq_all hL).1 (Clause.likeAll_iff.1 h)

theorem filter_beq_eq {o o' : Option Clause} (h : Clause.LikeOption L o o') : (o' == o) = (o == o) := by
  cases Clause.likeOption_iff.1 h with
  | none => rfl
  | some hc => exact (Like.beq_all hL).1 _ _ hc

theorem statement_beq_eq {s s' : Statement} (h : s.Like L s') : (s' == s) = (s == s) := by
  cases s with
  | select s =>
    obtain ⟨s', rfl, h⟩ := h
    exact (Like.beq_all hL).2 s s' h
  | insert i =>
    obtain ⟨_, _, source', rfl, hc, hv, hs⟩ := h
    have source : (source' == i.source) = (i.source == i.source) := by
      cases hi : i.source with
      | none =>
        rw [hi] at hs
        rw [show source' = none from hs]
      | some s =>
        rw [hi] at hs
        obtain ⟨s', rfl, hs⟩ := hs
        exact (Like.beq_all hL).2 s s' hs
    show (_ && _ && _ && _) = (_ && _ && _ && _)
    rw [clauses_beq_eq hL hc, clauses_beq_eq hL hv, source]
  | update u =>
    obtain ⟨_, _, rfl, ha, hw⟩ := h
    show (_ && _ && _) = (_ && _ && _)
    rw [clauses_beq_eq hL ha, filter_beq_eq hL hw]
  | delete d =>
    obtain ⟨_, rfl, hw⟩ := h
    show (_ && _) = (_ && _)
    rw [filter_beq_eq hL hw]
  | exec x =>
    obtain ⟨_, returns', rfl, ha, hr⟩ := h
    have returns : (returns' == x.returns) = (x.returns == x.returns) := by
      cases hx : x.returns with
      | none =>
        rw [hx] at hr
        rw [show returns' = none from hr]
      | some p =>
        rw [hx] at hr
        obtain ⟨p', rfl, hp⟩ := hr
        exact hL.param p p' hp
    show (_ && _ && _) = (_ && _ && _)
    rw [clauses_beq_eq hL ha, returns]
  | createTable t => rw [show s' = .createTable t from h]
  | dropTable t => rw [show s' = .dropTable t from h]

/-- **Equality with a query of equal leaves is equality with itself.** -/
theorem query_beq_eq {q q' : Query} (h : q.Like L q') : (q' == q) = (q == q) := by
  cases q with
  | single s =>
    obtain ⟨s', rfl, h⟩ := h
    exact statement_beq_eq hL h
  | script ms =>
    obtain ⟨ms', rfl, h⟩ := h
    exact list_beq_eq (fun s s' => statement_beq_eq hL) h

end Like

end SqlTree
