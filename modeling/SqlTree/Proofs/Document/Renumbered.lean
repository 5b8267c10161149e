/-
Documents do not tell identities apart.

A document numbers the parameters of a query in the order of their first places. So queries whose parameters differ in
their identities only, and are shared alike, have one document.

- `Encoding.Same`: two writers that go through lists of identities in step and write the same.
- `Query.Like.toDocument_eq`: such queries have one document.
-/
import SqlTree.Proofs.Document.RoundTrip

namespace SqlTree

/-- parameters that differ in their identities at most, which are related -/
def Likeness.renumbering (ρ : Nat → Nat → Prop) : Likeness :=
  .params fun p p' => ρ p.id p'.id ∧ p' = { p with id := p'.id }

namespace Encoding

variable {ρ : Nat → Nat → Prop} {α β : Type}

/-- writers that, from related identities on, write the same and end with related identities -/
def Same (ρ : Nat → Nat → Prop) (w w' : Encoding α) : Prop :=
  ∀ ids ids', List.Forall₂ ρ ids ids' →
    ∃ a ids₁ ids₁', w.run ids = pure (a, ids₁) ∧ w'.run ids' = pure (a, ids₁') ∧ List.Forall₂ ρ ids₁ ids₁'

namespace Same

theorem pure (a : α) : Same ρ (return a) (return a) := fun ids ids' h => ⟨a, ids, ids', rfl, rfl, h⟩

theorem bind {w w' : Encoding α} {f f' : α → Encoding β} (hw : Same ρ w w') (hf : ∀ a, Same ρ (f a) (f' a)) :
    Same ρ (w >>= f) (w' >>= f') := by
  intro ids ids' h
  obtain ⟨a, ids₁, ids₁', run, run', h⟩ := hw ids ids' h
  obtain ⟨b, ids₂, ids₂', run₂, run₂', h⟩ := hf a ids₁ ids₁' h
  refine ⟨b, ids₂, ids₂', ?_, ?_, h⟩
  · rw [StateT.run_bind, run]
    exact run₂
  · rw [StateT.run_bind, run']
    exact run₂'

theorem map {w w' : Encoding α} (hw : Same ρ w w') (f : α → β) :
    Same ρ (do let a ← w; return f a) (do let a ← w'; return f a) := hw.bind fun a => .pure (f a)

end Same

/-- Related lists of identities know related identities at the same place, or know neither. -/
theorem idxOf?_eq (one : OneToOne ρ) {ids ids' : List Nat} (h : List.Forall₂ ρ ids ids') {a a' : Nat} (ha : ρ a a') :
    ids.idxOf? a = ids'.idxOf? a' := by
  induction h with
  | nil => rfl
  | @cons b b' ids ids' hb _ ih =>
    have same : (b == a) = (b' == a') := by
      rw [Bool.eq_iff_iff, beq_iff_eq, beq_iff_eq]
      exact one b a b' a' hb ha
    rw [List.idxOf?_cons, List.idxOf?_cons, same, ih]

theorem param_same (one : OneToOne ρ) {p p' : Parameter} (id : ρ p.id p'.id) (same : p' = { p with id := p'.id }) :
    Same ρ (param p) (param p') := by
  intro ids ids' h
  cases hi : ids.idxOf? p.id with
  | some n =>
    refine ⟨_, _, _, run_param_known hi, run_param_known ?_, h⟩
    rw [← idxOf?_eq one h id, hi]
  | none =>
    refine ⟨_, _, _, run_param_new hi, ?_, List.rel_append h (.cons id .nil)⟩
    have described : described (numbered ids'.length) p' = described (numbered ids.length) p := by
      rw [same, h.length_eq]
      rfl
    rw [← described]
    exact run_param_new (by rw [← idxOf?_eq one h id, hi])

end Encoding

/-! ## Trees -/

variable {ρ : Nat → Nat → Prop}

/-- Clauses that differ in the identities of parameters only have one label. -/
theorem Clause.NodeLike.label_eq {R : ParamRel} {P : Clause → Clause → Prop} {Q : Select → Select → Prop}
    {c c' : Clause} (h : c.NodeLike (.params R) P Q c') : c.label = c'.label := by
  cases h with
  | constant same => rw [show _ = _ from same]
  | _ => rfl

namespace Encoding

open Likeness (renumbering)

variable {cs cs' : List Clause}

theorem clauses_same (h : List.Forall₂ (fun c c' => Same ρ (clause c) (clause c')) cs cs') :
    Same ρ (clauses cs) (clauses cs') := by
  induction h with
  | nil => exact .pure []
  | cons hc _ ih =>
    rw [clauses, clauses]
    exact hc.bind fun e => ih.map _

theorem optional_same {R : Clause → Clause → Prop} {o o' : Option Clause}
    (h : Option.Rel (fun c c' => R c c' ∧ Same ρ (clause c) (clause c')) o o') : Same ρ (optional o) (optional o') := by
  cases h with
  | none => exact .pure []
  | some hc => exact hc.2.map _

/-- **Clauses and selects that differ in the identities of parameters only are written the same.** -/
theorem clause_and_select_same (one : OneToOne ρ) :
    (∀ c c', Clause.Like (renumbering ρ) c c' → Same ρ (clause c) (clause c'))
      ∧ ∀ s s', Select.Like (renumbering ρ) s s' → Same ρ (select s) (select s') := by
  refine Clause.likeInduction (fun c c' h => ?_) fun s s' _ h => ?_
  · have written (hp : c.kind ≠ .param) (hq : c.query? = none) (hq' : c'.query? = none) :
        Same ρ (clause c) (clause c') := by
      rw [clause_eq c hp hq, clause_eq c' (h.kind_eq ▸ hp) hq', h.label_eq]
      exact (clauses_same (h.operands.imp fun _ _ h => h.2)).map _
    cases h with
    | param same => exact param_same one same.1 same.2
    | anyRow h | subQuery h => exact h.2.map _
    | _ => exact written nofun rfl rfl
  · obtain ⟨distinct, limit, hF, hS, hW, hG, hH, hO⟩ := h
    have hF := clauses_same (hF.imp fun _ _ => And.right)
    have hS := clauses_same (hS.imp fun _ _ => And.right)
    have hG := clauses_same (hG.imp fun _ _ => And.right)
    have hO := clauses_same (hO.imp fun _ _ => And.right)
    rw [select, select]
    exact hF.bind fun _ => hS.bind fun _ => (optional_same hW).bind fun _ => hG.bind fun _ =>
      (optional_same hH).bind fun _ =>
      hO.map _

/-! ## Statements -/

variable (one : OneToOne ρ)

include one

theorem list_same {cs cs' : List Clause} (h : Clause.LikeAll (renumbering ρ) cs cs') :
    Same ρ (clauses cs) (clauses cs') :=
  clauses_same ((Clause.likeAll_iff.1 h).imp (clause_and_select_same one).1)

theorem option_same {o o' : Option Clause} (h : Clause.LikeOption (renumbering ρ) o o') :
    Same ρ (optional o) (optional o') :=
  optional_same (optionRel_imp (Clause.likeOption_iff.1 h) fun c _ c' h => ⟨h, (clause_and_select_same one).1 c c' h⟩)

theorem source_same {o o' : Option Select} (h : Select.LikeOption (renumbering ρ) o o') :
    Same ρ (optionally select o) (optionally select o') := by
  cases o with
  | none =>
    obtain rfl : o' = none := h
    exact .pure none
  | some s =>
    obtain ⟨s', rfl, hs⟩ := h
    exact ((clause_and_select_same one).2 s s' hs).map _

theorem receiver_same {o o' : Option Parameter} (h : (renumbering ρ).receiver o o') :
    Same ρ (optionally param o) (optionally param o') := by
  cases o with
  | none =>
    obtain rfl : o' = none := h
    exact .pure none
  | some p =>
    obtain ⟨p', rfl, id, same⟩ := h
    exact (param_same one id same).map _

theorem statement_same {s s' : Statement} (h : s.Like (renumbering ρ) s') : Same ρ (statement s) (statement s') := by
  cases s with
  | select s =>
    obtain ⟨s', rfl, h⟩ := h
    exact (clause_and_select_same one).2 s s' h
  | insert i =>
    obtain ⟨columns', values', source', rfl, hc, hv, hs⟩ := h
    rw [insert_eq, insert_eq]
    exact (list_same one hc).bind fun _ => (list_same one hv).bind fun _ => (source_same one hs).map _
  | update u =>
    obtain ⟨assignments', filter', rfl, ha, hw⟩ := h
    exact (list_same one ha).bind fun _ => (option_same one hw).map _
  | delete d =>
    obtain ⟨filter', rfl, hw⟩ := h
    exact (option_same one hw).map _
  | exec x =>
    obtain ⟨args', returns', rfl, ha, hr⟩ := h
    rw [exec_eq, exec_eq]
    exact (receiver_same one hr).bind fun _ => (list_same one ha).map _
  | createTable t =>
    rw [show s' = .createTable t from h]
    exact .pure _
  | dropTable t =>
    rw [show s' = .dropTable t from h]
    exact .pure _

/-- **Queries that differ in the identities of parameters only are written the same.** -/
theorem query_same {q q' : Query} (h : q.Like (renumbering ρ) q') : Same ρ (query q) (query q') := by
  cases q with
  | single s =>
    obtain ⟨s', rfl, h⟩ := h
    exact statement_same one h
  | script ms =>
    obtain ⟨ms', rfl, h⟩ := h
    have members : Same ρ (ms.mapM statement) (ms'.mapM statement) := by
      induction h with
      | nil => exact .pure []
      | cons hs _ ih =>
        rw [List.mapM_cons, List.mapM_cons]
        exact (statement_same one hs).bind fun _ => ih.map _
    exact members.map _

end Encoding

/-- **Queries that differ in the identities of parameters only have one document**, if the identities correspond. -/
theorem Query.Like.toDocument_eq (one : OneToOne ρ) {q q' : Query} (h : q.Like (.renumbering ρ) q') :
    q'.toDocument = q.toDocument := by
  obtain ⟨e, ids, ids', written, written', -⟩ := Encoding.query_same one h [] [] .nil
  exact (congrArg (fun r : Id (Element × List Nat) => r.1) written').trans
    (congrArg (fun r : Id (Element × List Nat) => r.1) written).symm

end SqlTree
