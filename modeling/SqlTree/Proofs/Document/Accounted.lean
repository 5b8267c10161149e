/-
Documents accounted for.

- `Decoding.accounts`: what is read from an orderly element accounts for its elements.
- `Query.ofDocument_accounts`: what is kept of a document is orderly and read like the document, and accounted for.
- `misspelt_filter_dropped`: what is not kept may be a whole filter.
-/
import SqlTree.Proofs.Document.Accounting

namespace SqlTree

namespace Decoding

open Element (elements elementsIn inFirst)

variable {r : Registry} {k k' : KnownParams}

theorem clause_account {name : String} {attrs : Keyed String} {children : List Element}
    (ih : ∀ x ∈ children, Accounts r x) (orderly : Element.Orderly r .clause ⟨name, attrs, children⟩) {c : Clause}
    (h : (clause r ⟨name, attrs, children⟩).run k = .ok (c, k')) :
    AccountedFor r (elements r .clause ⟨name, attrs, children⟩) c.parts := by
  have own : ReadAs r (.clause, ⟨name, attrs, children⟩) (.clause c) := ⟨k, k', h⟩
  have listed : ∀ ps : List Part, AccountedFor r (elementsIn r (r.childPlan name .clause) children) ps →
      (.clause c :: ps).Subperm c.parts → AccountedFor r (elements r .clause ⟨name, attrs, children⟩) c.parts := by
    intro ps rest sub
    rw [elements]
    exact (rest.cons own).mono sub
  have leaf : r.childPlan name .clause = .nothing → AccountedFor r (elements r .clause ⟨name, attrs, children⟩)
    c.parts := by
    intro plan
    obtain rfl := orderly.of_nothing plan
    refine listed [] (by rw [elementsIn]; exact .nil _) ?_
    rw [Clause.parts_eq]
    exact List.Sublist.subperm (List.singleton_sublist.2 List.mem_cons_self)
  cases hk : r.clauses.find? name with
  | none =>
    rw [clause, hk] at h
    cases h
  | some kind =>
    have planned := Registry.childPlan_clause hk
    by_cases hp : kind = .param
    · subst hp
      exact leaf planned
    · rw [clause_eq_planned hk hp] at h
      obtain ⟨p, k₁, hplan, h⟩ := run_bind_eq_ok h
      have fits := plan_fits (ofResult_eq_ok hplan)
      cases p with
      | complete c' => exact leaf (planned.trans fits.1)
      | ofClauses build =>
        obtain ⟨cs, k₂, hcs, h⟩ := run_bind_eq_ok h
        obtain ⟨-, operands, query, -⟩ := fits.2 cs c (length_clauses hcs).symm (ofResult_eq_ok h)
        refine listed (cs.flatMap Clause.parts) ?_ ?_
        · rw [planned, fits.1]
          exact clauses_account ih (orderly.of_all (planned.trans fits.1)) hcs
        · rw [Clause.parts_eq, operands, query, Option.toList_none, List.flatMap_nil, List.append_nil]
      | ofSelect build =>
        have statements := orderly.of_all (planned.trans fits.1)
        rcases children with _ | ⟨child, _ | ⟨child', rest⟩⟩
        · cases h
        · obtain ⟨q, k₂, hq, h⟩ := run_bind_eq_ok h
          obtain ⟨s, k₃, hs, h⟩ := run_bind_eq_ok h
          cases h
          obtain rfl := asSelect_eq_ok (ofResult_eq_ok hs)
          obtain ⟨-, operands, query, -⟩ := fits.2 s
          have account := (ih child List.mem_cons_self).2 (statements child List.mem_cons_self) _ _ _ hq
          refine listed s.parts ?_ ?_
          · rw [planned, fits.1, elementsIn, elementsIn, List.append_nil]
            rwa [Query.parts_single] at account
          · rw [Clause.parts_eq, operands, query, Option.toList_some, List.flatMap_singleton, List.flatMap_nil]
            exact .refl _
        · cases h

/-- The elements in the containers of an orderly element are accounted for if those in the first
one of each name are. -/
theorem containers_account {name : String} {attrs : Keyed String} {children : List Element} {containers : Keyed Reading}
    {ps : List Part} (orderly : Element.Orderly r .statement ⟨name, attrs, children⟩)
    (plan : r.childPlan name .statement = .firsts containers) (distinct : (containers.map Prod.fst).Nodup)
    (h : AccountedFor r (containers.flatMap fun c => inFirst r c.1 c.2 children) ps) :
    AccountedFor r (elementsIn r (.firsts containers) children) ps := by
  obtain ⟨once, known, -⟩ := orderly.of_firsts plan
  exact h.perm (Element.elementsIn_firsts distinct once known)

/-- A statement that is no script is a part of its own. -/
theorem statement_account {name : String} {attrs : Keyed String} {children : List Element} {kind : StatementKind}
    (hk : r.statements.find? name = some kind) (hs : kind ≠ .script) {s : Statement} {ps : List Part}
    (read : (query r ⟨name, attrs, children⟩).run k = .ok (.single s, k')) (parts : s.parts = .statement s :: ps)
    (rest : AccountedFor r (elementsIn r kind.childPlan children) ps) :
    AccountedFor r (elements r .statement ⟨name, attrs, children⟩) (Query.single s).parts := by
  have own : r.meansScript name .statement = false := by simp [Registry.meansScript, hk, hs]
  rw [elements, own, Registry.childPlan_statement hk, Query.parts_single, parts]
  exact rest.cons ⟨k, k', read⟩

/-- A statement that is read of containers has the parts of what is in the first container of each name. -/
theorem firsts_account {name : String} {attrs : Keyed String} {children : List Element} {kind : StatementKind}
    {containers : Keyed Reading} (hk : r.statements.find? name = some kind) (hs : kind ≠ .script)
    (plan : kind.childPlan = .firsts containers) (distinct : (containers.map Prod.fst).Nodup)
    (orderly : Element.Orderly r .statement ⟨name, attrs, children⟩) {s : Statement} {ps : List Part}
    (read : (query r ⟨name, attrs, children⟩).run k = .ok (.single s, k')) (parts : s.parts = .statement s :: ps)
    (h : AccountedFor r (containers.flatMap fun c => inFirst r c.1 c.2 children) ps) :
    AccountedFor r (elements r .statement ⟨name, attrs, children⟩) (Query.single s).parts := by
  have planned := (Registry.childPlan_statement hk).trans plan
  exact statement_account hk hs read parts (plan ▸ containers_account orderly planned distinct h)

theorem query_account {name : String} {attrs : Keyed String} {children : List Element}
    (ih : ∀ x ∈ children, Accounts r x) (deep : ∀ x ∈ children, ∀ y ∈ x.children, Accounts r y)
    (orderly : Element.Orderly r .statement ⟨name, attrs, children⟩) {q : Query}
    (h : (query r ⟨name, attrs, children⟩).run k = .ok (q, k')) :
    AccountedFor r (elements r .statement ⟨name, attrs, children⟩) q.parts := by
  cases hk : r.statements.find? name with
  | none =>
    rw [query, hk] at h
    cases h
  | some kind =>
    have planned := Registry.childPlan_statement hk
    cases query_read hk h with
    | select hF hS hW hG hH hO =>
      obtain ⟨-, -, inside⟩ := orderly.of_firsts planned
      refine firsts_account hk (by simp) rfl (by decide) orderly h (Select.parts_eq _) ?_
      have account := (sectionItems_account deep inside rfl hF).append <|
        (sectionItems_account deep inside rfl hS).append <| (sectionItems_account deep inside rfl hW).append <|
        (sectionItems_account deep inside rfl hG).append <| (sectionItems_account deep inside rfl hH).append <|
        (sectionItems_account deep inside rfl hO).append (.nil [])
      simpa [Select.clauses, head_sectionItems rfl hW, head_sectionItems rfl hH, sectionContainers] using account
    | insert hC hV hS =>
      obtain ⟨-, -, inside⟩ := orderly.of_firsts planned
      refine firsts_account hk (by simp) rfl (by decide) orderly h rfl ?_
      have account := (sectionItems_account deep inside rfl hC).append <|
        (sectionItems_account deep inside rfl hV).append <| (sourceOf_account deep inside rfl hS).append (.nil [])
      simpa [sectionContainers] using account
    | update hA hW =>
      obtain ⟨-, -, inside⟩ := orderly.of_firsts planned
      refine firsts_account hk (by simp) rfl (by decide) orderly h rfl ?_
      have account := (sectionItems_account deep inside rfl hA).append <|
        (sectionItems_account deep inside rfl hW).append (.nil [])
      simpa [head_sectionItems rfl hW, sectionContainers] using account
    | delete hW =>
      obtain ⟨-, -, inside⟩ := orderly.of_firsts planned
      refine firsts_account hk (by simp) rfl (by decide) orderly h rfl ?_
      have account := (sectionItems_account deep inside rfl hW).append (.nil [])
      simpa [head_sectionItems rfl hW, sectionContainers] using account
    | exec hR hA =>
      obtain ⟨-, -, inside⟩ := orderly.of_firsts planned
      refine firsts_account hk (by simp) rfl (by decide) orderly h rfl ?_
      have account := (returnsOf_account deep inside rfl hR).append <|
        (argsOf_account deep inside rfl hA).append (.nil [])
      simpa using account
    | script hM =>
      obtain ⟨_, _, hM⟩ := hM
      have own : r.meansScript name .statement = true := by simp [Registry.meansScript, hk]
      rw [elements, own, planned, Query.parts_ofList]
      exact queries_account ih (orderly.of_all planned) hM
    | createTable hC => exact statement_account hk (by simp) h rfl (columns_account (orderly.of_all planned) hC)
    | dropTable =>
      obtain rfl := orderly.of_nothing planned
      exact statement_account hk (by simp) h rfl (by rw [elementsIn]; exact .nil _)

/-- **What is read from an orderly element accounts for it**, by induction on the element: what is read in a container
stands two levels further down. -/
theorem accounts (r : Registry) (e : Element) : Accounts r e := by
  induction e using Element.deepInduction with
  | node name attrs children ih =>
    have direct : ∀ x ∈ children, Accounts r x := fun x hx => (ih x hx).1
    exact ⟨fun orderly _ _ _ h => clause_account direct orderly h,
      fun orderly _ _ _ h => query_account direct (fun x hx => (ih x hx).2) orderly h⟩

end Decoding

/-- the predicate on the rows that an update or a delete concerns, if it has one -/
def Statement.rowFilter? : Statement → Option (Option Clause)
  | .update u => some u.filter
  | .delete d => some d.filter
  | _ => none

namespace Decoding

/-- An update or a delete without a filter is read from an orderly element that has nothing where
the filter would be. -/
theorem filter_eq_none {r : Registry} {e : Element} (orderly : e.Orderly r .statement) {s : Statement}
    {k k' : KnownParams} (h : (query r e).run k = .ok (.single s, k')) (hs : s.rowFilter? = some none) :
    ∀ x ∈ e.children, x.name = SectionKind.filter.name → x.children = [] := by
  obtain ⟨name, attrs, children⟩ := e
  have deep : ∀ x ∈ children, ∀ y ∈ x.children, Accounts r y := fun _ _ y _ => accounts r y
  have empty : ∀ (cs : List Clause), cs.head? = none → cs = [] := fun cs => List.head?_eq_none_iff.1
  cases hk : r.statements.find? name with
  | none =>
    rw [query, hk] at h
    cases h
  | some kind =>
    have planned := Registry.childPlan_statement hk
    cases query_read hk h with
    | update _ hW | delete hW =>
      obtain rfl := empty _ (Option.some.inj hs)
      obtain ⟨once, -, inside⟩ := orderly.of_firsts planned
      exact sectionItems_eq_nil deep inside once rfl hW
    | _ => cases hs

end Decoding

namespace Query

open Decoding (AccountedFor)

/-- **What is kept of a document is accounted for.** A document is read like what is kept of it. That is orderly: it
has elements only where they are read, and containers only if they are looked for, each one once; and a document
that is orderly is kept as a whole. If it is accepted, each element that is kept, but containers and scripts, is
read as a part of the statement, no two as the same one; and an update or a delete has a filter if anything is kept
where that would be. -/
theorem ofDocument_accounts (r : Registry) (e : Element) :
    Query.ofDocument r (e.kept r) = Query.ofDocument r e
      ∧ (e.kept r).Orderly r .statement ∧ (e.Orderly r .statement ↔ e.kept r = e)
      ∧ ∀ q, Query.ofDocument r e = .ok q → AccountedFor r ((e.kept r).elements r .statement) q.parts
        ∧ ∀ s, q = .single s → s.rowFilter? = some none →
          ∀ x ∈ (e.kept r).children, x.name = SectionKind.filter.name → x.children = [] := by
  have same : Query.ofDocument r (e.kept r) = Query.ofDocument r e := by
    rw [Query.ofDocument, Query.ofDocument, Element.kept, (Decoding.kept_eq r e).2]
  have orderly := Element.orderly_keptAs r e .statement
  refine ⟨same, orderly, Element.orderly_iff, fun q hq => ?_⟩
  rw [← same, Query.ofDocument, StateT.run'] at hq
  rcases hr : Decoding.query r (e.kept r) {} with fault | ⟨q', k⟩
  · rw [hr] at hq
    cases hq
  · rw [hr] at hq
    cases hq
    refine ⟨(Decoding.accounts r (e.kept r)).2 orderly {} q' k hr, ?_⟩
    rintro s rfl hs
    exact Decoding.filter_eq_none orderly hr hs

end Query

def columnIsOne : Element :=
  ⟨"compare", [("op", "eq")], [⟨"field", [("name", "a")], []⟩, ⟨"const", [("kind", "int"), ("value", "1")], []⟩]⟩

/-- a delete with a comparison in a container of a name -/
def deleteWith (container : String) : Element := ⟨"delete", [("table", "t")], [⟨container, [], [columnIsOne]⟩]⟩

/-- A delete that is kept as a whole: the statement, the comparison and its operands are accounted for. -/
theorem ofDocument_accounts_deleteWith :
    ∃ q, Query.ofDocument .standard (deleteWith "where") = .ok q
      ∧ ((deleteWith "where").kept .standard) = deleteWith "where"
      ∧ ((deleteWith "where").elements .standard .statement).length = 4
      ∧ Decoding.AccountedFor .standard ((deleteWith "where").elements .standard .statement) q.parts := by
  have kept : (deleteWith "where").kept .standard = deleteWith "where" := rfl
  obtain ⟨-, -, -, accounted⟩ := Query.ofDocument_accounts .standard (deleteWith "where")
  exact ⟨_, rfl, kept, rfl, kept ▸ (accounted _ rfl).1⟩

/-- The name of a container may be misspelt: what it holds is dropped, and a delete of some rows becomes one of all. -/
theorem misspelt_filter_dropped :
    Query.ofDocument .standard (deleteWith "wheer") = .ok (.single (.delete ⟨⟨none, "t"⟩, none⟩))
      ∧ ¬ (deleteWith "wheer").Orderly .standard .statement := by
  refine ⟨rfl, fun h => ?_⟩
  obtain ⟨-, known, -⟩ := h.of_firsts rfl
  exact known _ List.mem_cons_self rfl

end SqlTree