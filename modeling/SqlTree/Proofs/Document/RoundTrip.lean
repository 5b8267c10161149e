/-
Queries read back from their documents.

- `Query.Recovered`: a query whose parameters are copies of those of another, shared alike.
- `Query.Recovered.render_alike`: both are written alike in every dialect, but for the values of feeds.
- `Query.ofDocument_toDocument`: the document of a query that was put together by the rules is read as such a query.
-/
import SqlTree.Proofs.Document.Query
import SqlTree.Proofs.Rendering.Blindness
import SqlTree.Proofs.Statement.Equality

namespace SqlTree

/-- one query, with copies of its parameters that are shared as those are: two places of the one hold one parameter
exactly if the same two places of the other do -/
def Query.Recovered (q q' : Query) : Prop :=
  ∃ ρ, OneToOne ρ ∧ q.Like (.params fun p p' => ρ p.id p'.id ∧ p' = p.copy p'.id) q'

/-- one query, a NaN taken equal to itself, whose parameters differ in their identities at most -/
def Query.Same (q q' : Query) : Prop := q.Like (.params fun p p' => p' = { p with id := p'.id }) q'

/-- parameters bound under one name and in one direction, with one value and one type unless the
value came from a feed -/
def BoundParam.Agrees (b b' : BoundParam) : Prop :=
  b.name = b'.name ∧ b.direction = b'.direction ∧ (b.deferred = false → b.value = b'.value ∧ b.type = b'.type)

/-! ## Copies -/

theorem Likeness.copies_binds {ρ : Nat → Nat → Prop} (hρ : OneToOne ρ) :
    (Likeness.params fun p p' => ρ p.id p'.id ∧ p' = p.copy p'.id).Binds ρ BoundParam.Agrees where
  null v v' h := by rw [show v = v' from h]
  name p p' h := by rw [h.2]; rfl
  direction p p' h := by rw [h.2]; rfl
  oneToOne := hρ
  identity _ _ h := h.1
  boundName _ _ h := h.1
  literal v v' h _ := by rw [show v = v' from h]; exact ⟨rfl, rfl, fun _ => ⟨rfl, rfl⟩⟩
  bound p p' h name direction supply supply' n n' := by
    refine ⟨rfl, rfl, fun fixed => ?_⟩
    rw [h.2]
    obtain ⟨id, name, type, direction, source⟩ := p
    cases source with
    | fixed v => exact ⟨rfl, rfl⟩
    | deferred feed => cases fixed

/-- **A recovered query is written like the other** in every dialect that the library knows, or fails with it. -/
theorem Query.Recovered.render_alike {q q' : Query} (h : q.Recovered q') {d : Dialect} (hd : d ∈ Dialect.all)
    (supply supply' : Supply) :
    Rendered.Alike BoundParam.Agrees (render d q supply).result (render d q' supply').result := by
  obtain ⟨ρ, hρ, like⟩ := h
  exact render_like (Likeness.copies_binds hρ) (Dialect.all_respects hd _) like supply supply'

/-- Queries that are the same are equal as far as each equals itself. -/
theorem Query.Same.beq_eq {q q' : Query} (h : q.Same q') : (q' == q) = (q == q) := by
  refine Like.query_beq_eq ⟨fun v v' hv => ?_, fun p p' hp => ?_⟩ h
  · rw [show v = v' from hv]
  · rw [hp]
    rfl

/-! ## Reading back -/

/-- the identity under which a list knows a parameter and the number that it has there -/
def numberedIn (ps : List Parameter) (id n : Nat) : Prop := ∃ p, ps[n]? = some p ∧ p.id = id

theorem numberedIn_oneToOne {ps : List Parameter} (distinct : (ps.map Parameter.id).Nodup) :
    OneToOne (numberedIn ps) := by
  rintro a b m n ⟨p, hm, rfl⟩ ⟨p', hn, rfl⟩
  have length : m < (ps.map Parameter.id).length := by
    rw [List.length_map]
    exact (List.getElem?_eq_some_iff.1 hm).1
  constructor
  · intro same
    refine (List.getElem?_inj length distinct).1 ?_
    rw [List.getElem?_map, List.getElem?_map, hm, hn, Option.map_some, Option.map_some, same]
  · rintro rfl
    rw [Option.some.inj (hm.symm.trans hn)]

theorem Parameter.copy_eq {p : Parameter} (h : p.isDeferred = false) (n : Nat) : p.copy n = { p with id := n } := by
  obtain ⟨id, name, type, direction, source⟩ := p
  cases source with
  | fixed v => rfl
  | deferred feed => cases h

/-- **Reading back what was written.** The document of a query that was put together by the rules is read without an
error. What is read is the same tree with the same sharing of parameters; it is the same query if no value was left to a
feed; and in every dialect it is written like the query, or fails with it. -/
theorem Query.ofDocument_toDocument {q : Query} (built : q.Built) (coherent : Coherent q.parameters) :
    ∃ q', Query.ofDocument .standard q.toDocument = .ok q' ∧ q.Recovered q'
      ∧ ((∀ p ∈ q.parameters, p.isDeferred = false) → q.Same q' ∧ (q' == q) = (q == q))
      ∧ ∀ d ∈ Dialect.all, ∀ supply supply',
        Rendered.Alike BoundParam.Agrees (render d q supply).result (render d q' supply').result := by
  obtain ⟨e, q', ps, k, written, read, synced, -, like⟩ :=
    Survives.query coherent built (fun _ hp => hp) [] {} (Synced.start q.parameters)
  have document : q.toDocument = e := congrArg (fun r : Id (Element × List Nat) => r.1) written
  have recovered : q.Recovered q' := by
    refine ⟨numberedIn ps, numberedIn_oneToOne synced.distinct, like _ fun n p hn => ?_⟩
    exact ⟨⟨p, hn, rfl⟩, rfl⟩
  refine ⟨q', ?_, recovered, fun fixed => ?_, fun d hd => recovered.render_alike hd⟩
  · rw [document]
    show (·.1) <$> (Decoding.query .standard e).run {} = _
    rw [read]
    rfl
  · have same : q.Same q' := like _ fun n p hn =>
      p.copy_eq (fixed p (synced.mem p (List.mem_of_getElem? hn))) n
    exact ⟨same, same.beq_eq⟩

/-- a script in which two statements share a parameter, one value is left to a feed and one is no number -/
def lendTo (owner : Parameter) (pin : FeedId) : Query :=
  .script [.select (.mk false none [.field none "id"] [.table ⟨none, "account"⟩]
      (some (.compare (.field none "owner") .eq (.param owner))) [] none []),
    .update ⟨⟨none, "account"⟩,
      [.assign (.field none "owner") (.param owner), .assign (.field none "score") (.constant (.float .nan))],
      some (.compare (.field none "pin") .eq (.param (.deferred 3 pin)))⟩]

/-- A parameter that two statements share comes back shared, and one without a value comes back without one. -/
theorem ofDocument_toDocument_lendTo :
    (lendTo (.fixed 7 (.int 1)) 0).Built ∧ Coherent (lendTo (.fixed 7 (.int 1)) 0).parameters
      ∧ ∃ q', Query.ofDocument .standard (lendTo (.fixed 7 (.int 1)) 0).toDocument = .ok q'
        ∧ (lendTo (.fixed 7 (.int 1)) 0).Recovered q' := by
  have field : ∀ name, (Clause.field none name).Built := fun _ => .leaf rfl rfl
  have param : ∀ p, (Clause.param p).Built := fun _ => .leaf rfl rfl
  have constant : ∀ v, (Clause.constant v).Built := fun _ => .leaf rfl rfl
  have table : ∀ t, (Clause.table t).Built := fun _ => .leaf rfl rfl
  have equal : ∀ name p, (Clause.compare (.field none name) .eq (.param p)).Built := fun name p =>
    .node (by simp) (by simp [Clause.operands, field, param]) (by simp [Clause.query?])
  have set : ∀ name c, c.Built → (Clause.assign (.field none name) c).Built := fun name c hc =>
    .node (by simp) (by simp [Clause.operands, field, hc]) (by simp [Clause.query?])
  have built : (lendTo (.fixed 7 (.int 1)) 0).Built := by
    intro s hs
    simp only [lendTo, Query.statements, List.mem_cons, List.not_mem_nil, or_false] at hs
    rcases hs with rfl | rfl
    · exact .sections ⟨_, rfl, rfl⟩ ⟨_, rfl, rfl⟩ ⟨_, rfl, rfl⟩ ⟨_, rfl, rfl⟩ ⟨_, rfl, rfl⟩ ⟨_, rfl, rfl⟩
        (by simp [Select.clauses, field, table, equal])
    · exact ⟨⟨_, rfl, rfl⟩, ⟨_, rfl, rfl⟩, by simp [param, constant, equal, set], rfl⟩
  have coherent : Coherent (lendTo (.fixed 7 (.int 1)) 0).parameters := by
    simp [Coherent, lendTo, Query.parameters, Query.statements, Statement.parameters, Select.parameters,
      Clause.parametersAll, Clause.parametersOption, Clause.parameters, Parameter.fixed, Parameter.deferred]
  obtain ⟨q', read, recovered, -⟩ := Query.ofDocument_toDocument built coherent
  exact ⟨built, coherent, q', read, recovered⟩

end SqlTree
