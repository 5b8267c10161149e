/-
Equal trees are of one shape.

- `Likeness.equal`: literals that are equal, and parameters that are equal whatever their identities are.
- `Query.like_of_beq`: queries that are equal differ in such literals and parameters only.
-/
import SqlTree.Proofs.Clause.Likeness
import SqlTree.Statement

namespace SqlTree

/-- equal literals and equal parameters -/
def Likeness.equal : Likeness := ⟨fun v v' => v == v', fun p p' => p == p'⟩

namespace Clause

theorem beqAll_iff {cs cs' : List Clause} : beqAll cs cs' ↔ List.Forall₂ (fun c c' => c.beq c' = true) cs cs' := by
  induction cs generalizing cs' with
  | nil => cases cs' <;> simp [beqAll]
  | cons c cs ih => cases cs' <;> simp [beqAll, ih]

theorem beqOption_iff {o o' : Option Clause} : beqOption o o' ↔ Option.Rel (fun c c' => c.beq c' = true) o o' := by
  cases o <;> cases o' <;> simp [beqOption]

/-- Equal clauses are alike at their roots, and equal right below. -/
theorem node_of_beq {c c' : Clause} (h : c.beq c' = true) :
    NodeLike .equal (fun c c' => c.beq c' = true) (fun s s' => s.beq s' = true) c c' := by
  fun_cases Clause.beq c c' <;>
    simp only [Clause.beq, beqAll_iff, beqOption_iff, Bool.and_eq_true, beq_iff_eq, Bool.false_eq_true] at h
  -- what is left are two clauses by one constructor: their data are the same by `h`, and so are their parts
  all_goals
    try simp only [h]
    constructor <;> first | exact h | simp only [h]

end Clause

theorem Select.node_of_beq {s s' : Select} (h : s.beq s' = true) : s.NodeLike (fun c c' => c.beq c' = true) s' := by
  cases s
  cases s'
  simp only [Select.beq, Clause.beqAll_iff, Clause.beqOption_iff, Bool.and_eq_true, beq_iff_eq] at h
  obtain ⟨⟨⟨⟨⟨⟨⟨rfl, rfl⟩, hF⟩, hS⟩, hW⟩, hG⟩, hH⟩, hO⟩ := h
  exact .mk _ _ hF hS hW hG hH hO

/-- Equal clauses and selects are of one shape. -/
theorem Clause.like_all_of_beq :
    (∀ c c' : Clause, c.beq c' → c.Like .equal c') ∧ ∀ s s' : Select, s.beq s' → s.Like .equal s' :=
  Clause.like_of_related (fun _ _ => Clause.node_of_beq) fun _ _ => Select.node_of_beq

/-! ## Statements -/

theorem forall₂_of_list_beq {α : Type} [BEq α] {R : α → α → Prop} (hR : ∀ a a', (a == a') = true → R a a')
    {xs ys : List α} (h : (xs == ys) = true) : List.Forall₂ R xs ys := by
  induction xs generalizing ys with
  | nil =>
    cases ys with
    | nil => exact .nil
    | cons => cases h
  | cons x xs ih =>
    cases ys with
    | nil => cases h
    | cons y ys =>
      rw [List.cons_beq_cons, Bool.and_eq_true] at h
      exact .cons (hR x y h.1) (ih h.2)

theorem option_beq_cases {α : Type} [BEq α] {o o' : Option α} (h : (o == o') = true) :
    (o = none ∧ o' = none) ∨ ∃ a a', o = some a ∧ o' = some a' ∧ (a == a') = true := by
  cases o with
  | none =>
    cases o' with
    | none => exact .inl ⟨rfl, rfl⟩
    | some => cases h
  | some a =>
    cases o' with
    | none => cases h
    | some a' => exact .inr ⟨a, a', rfl, rfl, h⟩

namespace Statement

theorem clauses_like {cs cs' : List Clause} (h : (cs == cs') = true) : Clause.LikeAll .equal cs cs' :=
  Clause.likeAll_iff.2 (forall₂_of_list_beq Clause.like_all_of_beq.1 h)

theorem filter_like {o o' : Option Clause} (h : (o == o') = true) : Clause.LikeOption .equal o o' := by
  rcases option_beq_cases h with ⟨rfl, rfl⟩ | ⟨c, c', rfl, rfl, h⟩
  · rw [Clause.LikeOption]
  · rw [Clause.LikeOption]
    exact ⟨c', rfl, Clause.like_all_of_beq.1 c c' h⟩

theorem source_like {o o' : Option Select} (h : (o == o') = true) : Select.LikeOption .equal o o' := by
  rcases option_beq_cases h with ⟨rfl, rfl⟩ | ⟨s, s', rfl, rfl, h⟩
  · rfl
  · exact ⟨s', rfl, Clause.like_all_of_beq.2 s s' h⟩

theorem receiver_like {o o' : Option Parameter} (h : (o == o') = true) : Likeness.equal.receiver o o' := by
  rcases option_beq_cases h with ⟨rfl, rfl⟩ | ⟨p, p', rfl, rfl, h⟩
  · rfl
  · exact ⟨p', rfl, h⟩

theorem like_of_beq {s s' : Statement} (h : (s == s') = true) : s.Like .equal s' := by
  have h : s.beq s' = true := h
  cases s with
  | select s =>
    cases s' <;> simp only [Statement.beq, Bool.false_eq_true] at h
    exact ⟨_, rfl, Clause.like_all_of_beq.2 _ _ h⟩
  | insert i =>
    cases s' with
    | insert i' =>
      obtain ⟨table, columns, values, source⟩ := i'
      simp only [Statement.beq, Bool.and_eq_true, beq_iff_eq] at h
      obtain ⟨⟨⟨rfl, hc⟩, hv⟩, hs⟩ := h
      exact ⟨_, _, _, rfl, clauses_like hc, clauses_like hv, source_like hs⟩
    | _ => cases h
  | update u =>
    cases s' with
    | update u' =>
      obtain ⟨table, assignments, filter⟩ := u'
      simp only [Statement.beq, Bool.and_eq_true, beq_iff_eq] at h
      obtain ⟨⟨rfl, ha⟩, hw⟩ := h
      exact ⟨_, _, rfl, clauses_like ha, filter_like hw⟩
    | _ => cases h
  | delete s =>
    cases s' with
    | delete s' =>
      obtain ⟨table, filter⟩ := s'
      simp only [Statement.beq, Bool.and_eq_true, beq_iff_eq] at h
      obtain ⟨rfl, hw⟩ := h
      exact ⟨_, rfl, filter_like hw⟩
    | _ => cases h
  | exec e =>
    cases s' with
    | exec e' =>
      obtain ⟨routine, args, returns⟩ := e'
      simp only [Statement.beq, Bool.and_eq_true, beq_iff_eq] at h
      obtain ⟨⟨rfl, ha⟩, hr⟩ := h
      exact ⟨_, _, rfl, clauses_like ha, receiver_like hr⟩
    | _ => cases h
  | createTable t =>
    cases s' <;> simp only [Statement.beq, beq_iff_eq, Bool.false_eq_true] at h
    exact congrArg _ h.symm
  | dropTable t =>
    cases s' <;> simp only [Statement.beq, beq_iff_eq, Bool.false_eq_true] at h
    exact congrArg _ h.symm

end Statement

/-- **Equal queries are of one shape**: they differ in literals that are equal and in parameters that are equal. -/
theorem Query.like_of_beq {q q' : Query} (h : (q == q') = true) : q.Like .equal q' := by
  have h : q.beq q' = true := h
  cases q with
  | single s =>
    cases q' with
    | single s' => exact ⟨s', rfl, Statement.like_of_beq h⟩
    | script => cases h
  | script m =>
    cases q' with
    | single => cases h
    | script m' => exact ⟨m', rfl, forall₂_of_list_beq (fun _ _ => Statement.like_of_beq) h⟩

end SqlTree
