/-
Queries that the library gives.

`Query.Given` says how a query comes about: steps build it, a script puts several together, a join is added to one, or a
document describes it.

- `Query.Given.regular`: inserts among them name columns, and take their rows from one place.
-/
import SqlTree.Draft
import SqlTree.Proofs.Document.Outcome

namespace SqlTree

/-- a query that was built step by step, put together from others or read from a document -/
inductive Query.Given : Query → Prop
  | select {steps : List SelectStep} {s : Select} (built : SelectDraft.build steps = .ok s) :
      Given (.single (.select s))
  | insert {table : TableRef} {steps : List InsertStep} {draft : InsertDraft} {i : Insert}
    (steps : steps.foldlM InsertDraft.apply { table := table } = .ok draft) (finished : draft.finish = .ok i) :
    Given (.single (.insert i))
  | update {table : TableRef} {steps : List UpdateStep} {draft : UpdateDraft} {u : Update}
    (steps : steps.foldlM UpdateDraft.apply { table := table } = .ok draft) (finished : draft.finish = .ok u) :
    Given (.single (.update u))
  | delete {table : TableRef} {steps : List DeleteStep} {draft : DeleteDraft}
    (steps : steps.foldlM DeleteDraft.apply { table := table } = .ok draft) : Given (.single (.delete draft.finish))
  | exec {routine : String} {steps : List ExecStep} {e : Exec}
    (steps : steps.foldlM Exec.apply ⟨routine, [], none⟩ = .ok e) : Given (.single (.exec e))
  | createTable {table : TableRef} {steps : List CreateTableStep} {t : CreateTable}
    (steps : steps.foldl CreateTable.apply ⟨table, [], false⟩ = t) (finished : t.check = .ok ()) :
    Given (.single (.createTable t))
  | dropTable (t : DropTable) : Given (.single (.dropTable t))
  | script {members : List Query} (given : ∀ q ∈ members, Given q) : Given (.ofList members)
  | join {q q' : Query} {kind : JoinKind} {target condition : Clause} (given : Given q)
    (joined : q.addJoin kind target condition = .ok q') : Given q'
  | document {r : Registry} {e : Element} {q : Query} (read : Query.ofDocument r e = .ok q) : Given q

theorem map_eq_ok {α β : Type} {f : α → β} {r : Result α} {b : β} (h : r.map f = .ok b) : ∃ a, r = .ok a ∧ f a = b := by
  cases r with
  | ok a => exact ⟨a, rfl, Except.ok.inj h⟩
  | error e => cases h

theorem foldlM_keeps {σ β : Type} {apply : σ → β → Result σ} {P : σ → Prop} {steps : List β}
    (step : ∀ b ∈ steps, ∀ s t, apply s b = .ok t → P s → P t) {s t : σ} (hs : P s)
    (h : steps.foldlM apply s = .ok t) : P t := by
  induction steps generalizing s with
  | nil =>
    cases h
    exact hs
  | cons b steps ih =>
    rw [List.foldlM_cons] at h
    rcases hb : apply s b with e | u
    · rw [hb] at h
      cases h
    · rw [hb] at h
      exact ih (fun b' hb' => step b' (List.mem_cons_of_mem b hb')) (step b List.mem_cons_self s u hb hs) h

/-- A step that builds an insert adds a column to its columns, or leaves them as they are. -/
theorem InsertDraft.apply_onlyColumns (step : InsertStep) (d t : InsertDraft) (h : d.apply step = .ok t)
    (columns : d.columns.OnlyColumns) : t.columns.OnlyColumns := by
  have pushed : ∀ d t : InsertDraft, ∀ name, d.pushColumn name = .ok t → d.columns.OnlyColumns →
      t.columns.OnlyColumns := by
    intro d t name h columns
    obtain ⟨s, hp, rfl⟩ := map_eq_ok h
    exact columns.push hp
  rcases step with ⟨name, c⟩ | name | s | ⟨op, operand⟩
  · rw [InsertDraft.apply] at h
    rcases hv : d.values.apply (.push c) with e | values
    · rw [hv] at h
      cases h
    · rw [hv] at h
      exact pushed { d with values := values } t name h columns
  · exact pushed d t name h columns
  · cases h
    exact columns
  · obtain ⟨values, -, rfl⟩ := map_eq_ok h
    exact columns

/-- A finished insert has the columns of its draft, and has passed its check. -/
theorem InsertDraft.finish_regular {d : InsertDraft} {i : Insert} (h : d.finish = .ok i)
    (columns : d.columns.OnlyColumns) : i.Regular := by
  rw [InsertDraft.finish] at h
  rcases hc : (⟨d.table, d.columns.items, d.values.items, d.source⟩ : Insert).check with e | _
  · simp only [hc] at h
    cases h
  · simp only [hc] at h
    cases h
    exact ⟨columns.2, Insert.values_eq_nil hc⟩

theorem Query.addJoin_select {q q' : Query} {kind : JoinKind} {target condition : Clause}
    (h : q.addJoin kind target condition = .ok q') :
    ∃ s s', q = .single (.select s) ∧ q' = .single (.select s') := by
  unfold Query.addJoin at h
  split at h
  · rename_i sources _ _ _ _
    rcases hs : Section.apply (.push (.join kind target condition)) ⟨.sources, sources, none⟩ with e | joined
    · rw [hs] at h
      cases h
    · rw [hs] at h
      cases h
      exact ⟨_, _, rfl, rfl⟩
  · cases h

/-- **Queries that the library gives are regular.** -/
theorem Query.Given.regular {q : Query} (h : q.Given) : q.Regular := by
  induction h with
  | select _ | update _ _ | delete _ | exec _ | createTable _ _ | dropTable _ => exact .of_ne fun _ => by simp
  | insert steps finished =>
    intro i hi
    cases List.mem_singleton.1 hi
    have start : (Section.empty .columns).OnlyColumns := ⟨rfl, by simp [Section.empty]⟩
    exact InsertDraft.finish_regular finished
      (foldlM_keeps (P := fun d => d.columns.OnlyColumns) (fun b _ => InsertDraft.apply_onlyColumns b) start steps)
  | script _ ih =>
    intro i hi
    obtain ⟨q, hq, hi⟩ := List.mem_flatMap.1 hi
    exact ih q hq i hi
  | join _ joined _ =>
    obtain ⟨-, s, -, rfl⟩ := Query.addJoin_select joined
    exact .of_ne fun _ => by simp
  | document read => exact .of_document read

end SqlTree
