/-
The rules for operands, one clause at a time.

- `Clause.check_eq_ok_iff`: a clause obeys the rules for operands if its own operands fit and each of them obeys.
- `Clause.Like.check_eq_ok`: a clause that is like one that obeys the rules obeys them.
-/
import SqlTree.Clause.Check
import SqlTree.Proofs.Clause.Likeness

namespace SqlTree

namespace Clause

/-! ## The rules for operands -/

/-- a clause whose own operands have the roles that it asks for -/
def OperandsFit : Clause → Prop
  | .logic left _ right => left.isPredicate ∧ right.isPredicate
  | .not inner => inner.isPredicate
  | .calc left _ right => left.isArithmetic ∧ right.isArithmetic
  | .join _ _ condition => condition.isPredicate
  | _ => True

theorem then_eq_ok_iff {α : Type} {r : Result Unit} {r' : Result α} {a : α} :
    (r >>= fun _ => r') = .ok a ↔ r = .ok () ∧ r' = .ok a := by
  cases r with
  | ok _ => exact (and_iff_right rfl).symm
  | error e => exact ⟨nofun, nofun⟩

theorem checkRole_eq_ok_iff {parent : ClauseKind} {role : Role} {c : Clause} :
    checkRole parent role c = .ok () ↔ role.admits c.kind := by
  unfold checkRole
  split <;> simp_all

theorem checkAll_eq_ok_iff {cs : List Clause} : checkAll cs = .ok () ↔ ∀ c ∈ cs, c.check = .ok () := by
  induction cs with
  | nil => simp [checkAll]
  | cons c cs ih => simp [checkAll, then_eq_ok_iff, ih]

/-- A clause obeys the rules for operands if its operands fit and obey them. -/
theorem check_eq_ok_iff (c : Clause) :
    c.check = .ok () ↔ c.OperandsFit ∧ ∀ x ∈ c.operands, x.check = .ok () := by
  cases c with
  | aggregate fn arg distinct => cases arg <;> simp [check, OperandsFit, operands]
  | join kind t c =>
    cases hc : c.isPredicate <;>
      simp [check, OperandsFit, operands, hc, then_eq_ok_iff, throw, throwThe, MonadExceptOf.throw]
  | _ =>
    simp [check, OperandsFit, operands, then_eq_ok_iff, checkRole_eq_ok_iff, checkAll_eq_ok_iff, Role.admits,
      isPredicate, isArithmetic, and_assoc, and_left_comm]

/-! ## Clauses that are alike -/

variable {L : Likeness}

theorem exists_mem_of_forall₂ {α β : Type} {R : α → β → Prop} {xs : List α} {ys : List β} (h : List.Forall₂ R xs ys) :
    ∀ y ∈ ys, ∃ x ∈ xs, R x y := by
  induction h with
  | nil => nofun
  | @cons x y xs ys hxy _ ih =>
    rw [List.forall_mem_cons]
    refine ⟨⟨x, List.mem_cons_self, hxy⟩, fun y' hy' => ?_⟩
    obtain ⟨x', hx', h⟩ := ih y' hy'
    exact ⟨x', List.mem_cons_of_mem x hx', h⟩

/-- Whether operands fit is a matter of their sorts. -/
theorem Like.operandsFit {c c' : Clause} (h : c.Like L c') (hc : c.OperandsFit) : c'.OperandsFit := by
  cases h.node with
  | logic _ hl hr => simpa only [OperandsFit, hl.isPredicate_eq, hr.isPredicate_eq] using hc
  | join _ _ inner | not inner => simpa only [OperandsFit, inner.isPredicate_eq] using hc
  | «calc» _ hl hr => simpa only [OperandsFit, isArithmetic, hl.kind_eq, hr.kind_eq] using hc
  | _ => trivial

theorem Like.check_eq_ok {c c' : Clause} (h : c.Like L c') (hc : c.check = .ok ()) : c'.check = .ok () := by
  have all : (∀ c : Clause, ∀ c', c.Like L c' → c.check = .ok () → c'.check = .ok ()) ∧ ∀ _ : Select, True := by
    refine operandInduction (fun c ih _ c' h hc => ?_) (fun _ _ => trivial)
    rw [check_eq_ok_iff] at hc ⊢
    refine ⟨h.operandsFit hc.1, fun x' hx' => ?_⟩
    obtain ⟨x, hx, like⟩ := exists_mem_of_forall₂ h.operands x' hx'
    exact ih x hx x' like (hc.2 x hx)
  exact all.1 c c' h hc

end Clause
end SqlTree
