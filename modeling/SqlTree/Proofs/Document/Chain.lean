/-
How deep the document of a chain is.

Each predicate that is joined onto a filter puts all before it one element deeper, which is two levels of JSON. So a
filter can be built and written that no reader of its JSON text takes.

- `longFilter_ofJson_iff`: the JSON text of a filter is read if fewer than sixty predicates were joined onto the first.
-/
import SqlTree.Draft.Select
import SqlTree.Proofs.Document.JsonText
import SqlTree.Proofs.Document.Query
import SqlTree.Proofs.Section.Refill
import SqlTree.Proofs.Statement.Recordable

namespace SqlTree

def isOne : Clause := .compare (.field none "a") .eq (.constant (.int 1))

/-- a predicate with so many others like it joined on -/
def chained (c : Clause) : Nat → Clause
  | 0 => c
  | n + 1 => .logic (chained c n) .and c

/-- a select with so many predicates joined onto its first -/
def longFilter (n : Nat) : Select := .mk false none [] [.ofTable "t"] (some (chained isOne n)) [] none []

def longFilterSteps (n : Nat) : List SelectStep :=
  .source "t" :: .add .filter isOne :: List.replicate n (.combine .and isOne)

/-! ## Building -/

/-- the draft with so many predicates joined onto its first -/
def longFilterDraft (n : Nat) : SelectDraft where
  sources := ⟨.sources, [.ofTable "t"], some 0⟩
  filter := ⟨.filter, [chained isOne n], some 0⟩
  current := .filter

theorem build_longFilter (n : Nat) : SelectDraft.build (longFilterSteps n) = .ok (longFilter n) := by
  have joined : ∀ n k, (List.replicate n (SelectStep.combine .and isOne)).foldlM SelectDraft.apply (longFilterDraft k)
      = Except.ok (longFilterDraft (k + n)) := by
    intro n
    induction n with
    | zero => exact fun k => rfl
    | succ n ih =>
      intro k
      rw [List.replicate_succ, List.foldlM_cons]
      show (List.replicate n (SelectStep.combine .and isOne)).foldlM SelectDraft.apply (longFilterDraft (k + 1)) = _
      rw [ih, Nat.add_right_comm, Nat.add_assoc]
  have start : (longFilterSteps n).foldlM SelectDraft.apply {}
      = (List.replicate n (SelectStep.combine .and isOne)).foldlM SelectDraft.apply (longFilterDraft 0) := rfl
  rw [SelectDraft.build, start, joined, Nat.zero_add]
  rfl

theorem longFilter_recordable (n : Nat) : (longFilter n).Recordable := by
  have field : (Clause.field none "a").Recordable := .leaf rfl rfl
  have number : (Clause.constant (.int 1)).Recordable := .leaf rfl rfl
  have table : (Clause.ofTable "t").Recordable := .leaf rfl rfl
  have one : isOne.Recordable :=
    .node trivial (by simp [isOne, Clause.operands, field, number]) (by simp [isOne, Clause.query?])
  have checked : isOne.check = .ok () := rfl
  have chain : (chained isOne n).isPredicate = true ∧ (chained isOne n).check = .ok ()
      ∧ (chained isOne n).Recordable := by
    induction n with
    | zero => exact ⟨rfl, checked, one⟩
    | succ n ih =>
      obtain ⟨predicate, check, recordable⟩ := ih
      refine ⟨rfl, (Clause.check_eq_ok_iff _).2 ⟨⟨predicate, rfl⟩, ?_⟩,
        .node ⟨predicate, rfl⟩ ?_ (by simp [chained, Clause.query?])⟩
      · simp [chained, Clause.operands, check, checked]
      · simp [chained, Clause.operands, recordable, one]
  obtain ⟨predicate, check, recordable⟩ := chain
  have filter : Section.Rebuilds .filter [chained isOne n] := (Section.AllFit.single rfl check predicate).rebuilds
  refine .sections ⟨_, rfl, rfl⟩ ⟨_, rfl, rfl⟩ filter ⟨_, rfl, rfl⟩ ⟨_, rfl, rfl⟩ ⟨_, rfl, rfl⟩ ?_
  simp [longFilter, Select.clauses, recordable, table]

/-! ## Depth -/

/-- the element of a chain of predicates with one element -/
def chainedElement (e : Element) : Nat → Element
  | 0 => e
  | n + 1 => ⟨"logic", [("op", "and")], [chainedElement e n, e]⟩

def isOneElement : Element :=
  ⟨"compare", [("op", "eq")], [⟨"field", [("name", "a")], []⟩, ⟨"const", [("kind", "int"), ("value", "1")], []⟩]⟩

theorem run_chained (n : Nat) (ids : List Nat) :
    (Encoding.clause (chained isOne n)).run ids = pure (chainedElement isOneElement n, ids) := by
  induction n with
  | zero => rfl
  | succ n ih =>
    rw [chained, Encoding.clause, StateT.run_bind, ih]
    rfl

theorem toDocument_longFilter (n : Nat) :
    (Query.single (.select (longFilter n))).toDocument =
      ⟨"select", [], [⟨"from", [], [⟨"table", [("table", "t")], []⟩]⟩,
        ⟨"where", [], [chainedElement isOneElement n]⟩]⟩ := by
  have filter : (Encoding.optional (some (chained isOne n))).run [] = pure ([chainedElement isOneElement n], []) := by
    rw [Encoding.optional, StateT.run_bind, run_chained]
    rfl
  have sources : (Encoding.clauses [.ofTable "t"]).run [] = pure ([⟨"table", [("table", "t")], []⟩], []) := rfl
  have nothing : (Encoding.clauses []).run [] = pure ([], []) := rfl
  rw [Query.toDocument, Encoding.query, Encoding.statement, longFilter, Encoding.select, StateT.run_bind, nothing,
    pure_bind, StateT.run_bind, sources, pure_bind, StateT.run_bind, filter]
  rfl

theorem openDepth_chainedElement (n : Nat) : (chainedElement isOneElement n).openDepth = 2 * n + 4 := by
  have one : isOneElement.openDepth = 4 := by decide
  induction n with
  | zero => exact one
  | succ n ih =>
    simp only [chainedElement, Element.openDepth, Element.openDepths, ih, one]
    simp
    omega

/-- **The depth of the document grows by two with every predicate that is joined on.** -/
theorem openDepth_longFilter (n : Nat) : (Query.single (.select (longFilter n))).toDocument.openDepth = 2 * n + 8 := by
  rw [toDocument_longFilter]
  simp [Element.openDepth, Element.openDepths, openDepth_chainedElement]
  omega

/-! ## Reading -/

theorem parameters_chained (n : Nat) : (chained isOne n).parameters = [] := by
  induction n with
  | zero => rfl
  | succ n ih =>
    rw [chained, Clause.parameters, ih]
    rfl

/-- The document itself is read, however long the chain is. -/
theorem longFilter_ofDocument (n : Nat) :
    ∃ q, Query.ofDocument .standard (Query.single (.select (longFilter n))).toDocument = .ok q := by
  have recordable : (Query.single (.select (longFilter n))).Recordable :=
    List.forall_mem_singleton.2 (longFilter_recordable n)
  have coherent : Coherent (Query.single (.select (longFilter n))).parameters := by
    simp [Coherent, Query.parameters, Query.statements, Statement.parameters, longFilter, Select.parameters,
      Clause.parametersAll, Clause.parametersOption, parameters_chained, Clause.ofTable, Clause.parameters]
  obtain ⟨e, q, ps, k, written, read, -⟩ :=
    Survives.recordable coherent recordable (fun _ hp => hp) [] {} (Synced.start _)
  have document : (Query.single (.select (longFilter n))).toDocument = e :=
    congrArg (fun r : Id (Element × List Nat) => r.1) written
  refine ⟨q, ?_⟩
  rw [document]
  show (·.1) <$> (Decoding.query .standard e).run {} = _
  rw [read]
  rfl

/-- **The JSON text of a long filter is refused**, on one line or on many: it is read exactly if fewer than sixty
predicates were joined onto the first. -/
theorem longFilter_ofJson_iff (n : Nat) (spacious : Bool) :
    (∃ q, Query.ofJson ((Query.single (.select (longFilter n))).toJson spacious) = .ok q) ↔ n < 60 := by
  rw [Query.ofJson, Query.read_toJson, openDepth_longFilter]
  by_cases h : n < 60
  · rw [if_pos (by omega)]
    exact iff_of_true (longFilter_ofDocument n) h
  · rw [if_neg (by omega)]
    refine iff_of_false ?_ h
    rintro ⟨q, read⟩
    cases read

/-- A filter of sixty-one predicates can be built, and its document is read, but its JSON text is refused. -/
theorem longFilter_refused :
    SelectDraft.build (longFilterSteps 60) = .ok (longFilter 60)
      ∧ (∃ q, Query.ofDocument .standard (Query.single (.select (longFilter 60))).toDocument = .ok q)
      ∧ ∀ spacious, ¬∃ q, Query.ofJson ((Query.single (.select (longFilter 60))).toJson spacious) = .ok q := by
  refine ⟨build_longFilter 60, longFilter_ofDocument 60, fun spacious read => ?_⟩
  exact absurd ((longFilter_ofJson_iff 60 spacious).1 read) (by decide)

end SqlTree
