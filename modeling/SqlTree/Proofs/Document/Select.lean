/-
Clauses and selects in documents.

- `Survives.node`: a clause survives if its operands do.
- `Survives.clause_and_select`: every clause and every select that a document can hold survives.
-/
import SqlTree.Proofs.Document.Section

namespace SqlTree

open Section (Rebuilds)

variable {F : List Parameter}

def Select.Survives (F : List Parameter) (s : Select) : Prop :=
  SqlTree.Survives F (Encoding.select s) (Decoding.query .standard)
    fun R q => ∃ s', q = .single (.select s') ∧ s.Like (.params R) s'

namespace Survives

/-! ## Clauses -/

/-- **A clause survives if its operands do**, parameters and queries apart. -/
theorem node {c : Clause} (hp : c.kind ≠ .param) (hq : c.query? = none) (own : c.OperandsReadable)
    (h : ∀ x ∈ c.operands, x.Survives F) : c.Survives F := by
  unfold Clause.Survives
  rw [Encoding.clause_eq c hp hq]
  refine ((clauses h).imp _ _ ?_).shaped
  rintro es cs k k' hrun ⟨R, like⟩
  have length : es.length = c.operands.length := (Decoding.length_clauses hrun).trans like.length_eq.symm
  have name : (c.label.withChildren es).name = c.kind.name := c.label_name
  rcases c.madeBy_plan hp hq own length with ⟨hplan, ho, self⟩ | ⟨build, hplan, hbuild⟩
  · rw [ho] at length
    obtain rfl := List.eq_nil_of_length_eq_zero length
    obtain ⟨-, rfl⟩ := Prod.mk.inj (Except.ok.inj hrun)
    rw [Decoding.clause_complete name hp hplan]
    exact ⟨c, rfl, fun R _ => self R⟩
  · obtain ⟨c', hc', -⟩ := hbuild _ cs like
    rw [Decoding.clause_ofClauses name hp hplan]
    refine ⟨c', ?_, fun R like => ?_⟩
    · rw [Element.withChildren_children, Decoding.run_bind hrun, hc']
      rfl
    · obtain ⟨c'', hc'', like⟩ := hbuild _ cs like
      obtain rfl := Except.ok.inj (hc'.symm.trans hc'')
      exact like

theorem embedded {s : Select} (h : s.Survives F) {kind : ClauseKind} (hp : kind ≠ .param)
    {build : Select → Clause} (hplan : ∀ e, Decoding.plan e kind = Decoding.fromSelect e build) :
    Survives F (do let q ← Encoding.select s; return (Encoding.element kind).withChildren [q])
      (Decoding.clause .standard) fun R c => ∃ s', c = build s' ∧ s.Like (.params R) s' := by
  refine (h.imp _ _ ?_).shaped
  rintro e _ k k' hrun ⟨R, s', rfl, -⟩
  have plan : Decoding.plan ((Encoding.element kind).withChildren [e]) kind = .ok (.ofSelect build) := by
    rw [hplan, Decoding.fromSelect, Element.requireChildren_eq (n := 1) rfl]
    rfl
  refine ⟨build s', ?_, ?_⟩
  · rw [Decoding.clause_ofSelect rfl hp plan rfl, Decoding.run_bind hrun]
    rfl
  · rintro R ⟨s'', same, like⟩
    obtain rfl : s' = s'' := Statement.select.inj (Query.single.inj same)
    exact ⟨s', rfl, like⟩

end Survives

/-! ## Selects -/

theorem Encoding.optional_eq (o : Option Clause) : optional o = clauses o.toList := by
  cases o <;> rfl

theorem Clause.likeOption_head? {L : Likeness} {o : Option Clause} {cs : List Clause}
    (h : List.Forall₂ (Clause.Like L) o.toList cs) : LikeOption L o cs.head? := by
  cases o with
  | none =>
    obtain rfl := List.forall₂_nil_left_iff.1 h
    rw [LikeOption]
    rfl
  | some c =>
    obtain ⟨c', _, hc, -, rfl⟩ := List.forall₂_cons_left_iff.1 h
    rw [LikeOption]
    exact ⟨c', rfl, hc⟩

namespace Encoding

def selectElement (distinct : Bool) (limit : Option RowLimit)
    (sections : List (SectionKind × List Element)) : Element :=
  (withLimit (Element.withFlag { name := StatementKind.select.name } "distinct" distinct) limit).withChildren
    (sections.flatMap fun s => container s.1 s.2)

end Encoding

namespace Decoding

variable (distinct : Bool) (limit : Option RowLimit) (sections : List (SectionKind × List Element))

variable {distinct limit sections} in
theorem query_select {e : Element} (hn : e.name = StatementKind.select.name) : query .standard e = (do
    let limit ← ofResult (limitOf e)
    let distinct ← ofResult (e.flag "distinct")
    let fields ← sectionItems .standard .fields e.children
    let sources ← sectionItems .standard .sources e.children
    let filter ← sectionItems .standard .filter e.children
    let groupBy ← sectionItems .standard .groupBy e.children
    let having ← sectionItems .standard .having e.children
    let orderBy ← sectionItems .standard .orderBy e.children
    return .single (.select (.mk distinct limit fields sources filter.head? groupBy having.head? orderBy))) := by
  obtain ⟨name, attrs, children⟩ := e
  obtain rfl : name = _ := hn
  rw [query, Registry.standard_statement]

theorem limitOf_selectElement : limitOf (Encoding.selectElement distinct limit sections) = .ok limit := by
  have written : ∀ (name : String) (n : Option UInt64),
      (Encoding.selectElement distinct limit sections).attr? name = n.map Decimal.ofUInt64 →
        (Encoding.selectElement distinct limit sections).allowed name Decimal.uint64? = .ok n :=
    fun _ _ => Element.allowed_eq Decimal.uint64?_ofUInt64
  unfold limitOf
  rcases limit with _ | first | ⟨offset, count⟩
  · rw [written "top" none (by simp [Encoding.selectElement, Encoding.withLimit]),
      written "offset" none (by simp [Encoding.selectElement, Encoding.withLimit]),
      written "count" none (by simp [Encoding.selectElement, Encoding.withLimit])]
    rfl
  · rw [written "top" (some first) (by simp [Encoding.selectElement, Encoding.withLimit]),
      written "offset" none (by simp [Encoding.selectElement, Encoding.withLimit]),
      written "count" none (by simp [Encoding.selectElement, Encoding.withLimit])]
    rfl
  · rw [written "top" none (by simp [Encoding.selectElement, Encoding.withLimit]),
      written "offset" (some offset) (by simp [Encoding.selectElement, Encoding.withLimit]),
      written "count" (some count) (by simp [Encoding.selectElement, Encoding.withLimit])]
    rfl

theorem flag_selectElement : (Encoding.selectElement distinct limit sections).flag "distinct" = .ok distinct := by
  refine Element.flag_eq ?_
  rcases limit with _ | _ | _ <;> simp [Encoding.selectElement, Encoding.withLimit]

theorem query_selectElement (f s w g h o : List Element) :
    query .standard (Encoding.selectElement distinct limit
      [(.fields, f), (.sources, s), (.filter, w), (.groupBy, g), (.having, h), (.orderBy, o)]) = (do
        let fields ← items .fields f
        let sources ← items .sources s
        let filter ← items .filter w
        let groupBy ← items .groupBy g
        let having ← items .having h
        let orderBy ← items .orderBy o
        return .single (.select (.mk distinct limit fields sources filter.head? groupBy having.head? orderBy))) := by
  generalize hs : [(SectionKind.fields, f), (.sources, s), (.filter, w), (.groupBy, g), (.having, h), (.orderBy, o)]
    = sections
  have name : (Encoding.selectElement distinct limit sections).name = StatementKind.select.name := by
    rcases limit with _ | _ | _ <;> simp [Encoding.selectElement, Encoding.withLimit]
  have distinctKinds : (sections.map (·.1)).Nodup := by
    subst hs
    exact (by decide : [SectionKind.fields, .sources, .filter, .groupBy, .having, .orderBy].Nodup)
  have found : ∀ kind es, (kind, es) ∈ sections → sectionItems .standard kind
      (Encoding.selectElement distinct limit sections).children = items kind es := fun kind es h => by
    have found := sectionItems_eq distinctKinds h (List.forall_mem_nil fun e : Element => e.name ≠ kind.name)
    rwa [List.append_nil] at found
  rw [query_select name, limitOf_selectElement, flag_selectElement, found .fields f (by simp [← hs]),
    found .sources s (by simp [← hs]), found .filter w (by simp [← hs]), found .groupBy g (by simp [← hs]),
    found .having h (by simp [← hs]), found .orderBy o (by simp [← hs])]
  rfl

end Decoding

namespace Survives

theorem select {s : Select} (recordable : s.Recordable) (h : ∀ c ∈ s.clauses, c.Survives F) : s.Survives F := by
  obtain ⟨hF, hS, hW, hG, hH, hO, -⟩ := recordable
  obtain ⟨distinct, limit, fields, sources, filter, groupBy, having, orderBy⟩ := s
  simp only [Select.clauses, List.forall_mem_append] at h
  obtain ⟨⟨⟨⟨⟨f, s⟩, w⟩, g⟩, h⟩, o⟩ := h
  have parts := (items hF f).both <| (items hS s).both <| (items hW w).both <| (items hG g).both <|
    (items hH h).both (items hO o)
  have read := parts.imp (fun x => Decoding.query .standard (Encoding.selectElement distinct limit
    [(.fields, x.1), (.sources, x.2.1), (.filter, x.2.2.1), (.groupBy, x.2.2.2.1), (.having, x.2.2.2.2.1),
      (.orderBy, x.2.2.2.2.2)]))
    (fun R q => ∃ s', q = .single (.select s')
      ∧ (Select.mk distinct limit fields sources filter groupBy having orderBy).Like (.params R) s') ?_
  · have written := read.shaped
    unfold Select.Survives
    simpa only [Encoding.select, Select.fields, Select.sources, Select.filter, Select.groupBy, Select.having,
      Select.orderBy, Encoding.optional_eq, Encoding.selectElement, List.flatMap_cons, List.flatMap_nil,
      List.append_assoc, List.append_nil, bind_assoc, pure_bind] using written
  · rintro ⟨f, s, w, g, h, o⟩ ⟨f', s', w', g', h', o'⟩ k k' hrun -
    refine ⟨.single (.select (.mk distinct limit f' s' w'.head? g' h'.head? o')), ?_, ?_⟩
    · have read := Decoding.run_map (f := fun x => Query.single (.select
        (.mk distinct limit x.1 x.2.1 x.2.2.1.head? x.2.2.2.1 x.2.2.2.2.1.head? x.2.2.2.2.2))) hrun
      simp only [bind_assoc, pure_bind] at read
      rw [Decoding.query_selectElement]
      exact read
    · rintro R ⟨hf, hs, hw, hg, hh, ho⟩
      refine ⟨_, rfl, ?_⟩
      rw [Select.Like]
      exact ⟨_, _, _, _, _, _, rfl, Clause.likeAll_iff.2 hf, Clause.likeAll_iff.2 hs, Clause.likeOption_head? hw,
        Clause.likeAll_iff.2 hg, Clause.likeOption_head? hh, Clause.likeAll_iff.2 ho⟩

/-! ## Trees -/

/-- **Clauses and selects that a document can hold survive**, the parameters in them being some of `F`. -/
theorem clause_and_select (coherent : Coherent F) :
    (∀ c : Clause, c.Recordable → (∀ p ∈ c.parameters, p ∈ F) → c.Survives F)
      ∧ ∀ s : Select, s.Recordable → (∀ p ∈ s.parameters, p ∈ F) → s.Survives F := by
  refine Clause.operandInduction (fun c operands query recordable hF => ?_) fun s clauses recordable hF => ?_
  · obtain ⟨own, recordableOperands, recordableQuery⟩ := recordable
    by_cases hp : c.kind = .param
    · cases c <;> simp only [Clause.kind, reduceCtorEq] at hp
      exact Survives.param coherent (hF _ (by simp [Clause.parameters]))
    · rw [c.parameters_eq hp] at hF
      cases hq : c.query? with
      | none =>
        exact node hp hq own fun x hx => operands x hx (recordableOperands x hx) fun p hpx =>
          hF p (List.mem_append_left _ (List.mem_flatMap.2 ⟨x, hx, hpx⟩))
      | some s =>
        have survives : s.Survives F := query s hq (recordableQuery s hq) fun p hps => hF p (by simp [hq, hps])
        cases c <;> simp only [Clause.query?, reduceCtorEq] at hq
        all_goals
          obtain rfl := Option.some.inj hq
          refine (embedded survives hp fun _ => rfl).imp _ _ fun e c k k' hrun _ => ⟨c, hrun, fun R like => ?_⟩
          rwa [Clause.Like]
  · refine select recordable fun c hc => clauses c hc ?_ fun p hp => hF p ?_
    · obtain ⟨-, -, -, -, -, -, recordableClauses⟩ := recordable
      exact recordableClauses c hc
    · rw [s.parameters_eq]
      exact List.mem_flatMap.2 ⟨c, hc, hp⟩

end Survives

end SqlTree
