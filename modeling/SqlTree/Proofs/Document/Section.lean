/-
Sections in documents.

A section is written as an element around its clauses, if it holds any, and read clause by clause under the rules by
which it was built.

- `Decoding.sectionItems_eq`: of several sections in one element each is found by its name.
- `Survives.clauses`: a list of clauses survives if its members do.
- `Survives.items`: so does a section that rebuilds itself.
-/
import SqlTree.Proofs.Document.Clause

namespace SqlTree

open Section (Rebuilds)

/-! ## Finding sections -/

namespace Decoding

/-- the clauses of a section from the elements of its clauses -/
def items (kind : SectionKind) (es : List Element) : Decoding (List Clause) := do
  let s ← filled .standard (.empty kind) es
  return s.items

theorem sectionItems_cons_of_ne {kind : SectionKind} {e : Element} (h : e.name ≠ kind.name) (es : List Element) :
    sectionItems .standard kind (e :: es) = sectionItems .standard kind es := by
  cases e
  rw [sectionItems, if_neg h]

theorem sectionItems_absent {kind : SectionKind} {es : List Element} (h : ∀ e ∈ es, e.name ≠ kind.name) :
    sectionItems .standard kind es = items kind [] := by
  induction es with
  | nil => rfl
  | cons e es ih =>
    rw [List.forall_mem_cons] at h
    rw [sectionItems_cons_of_ne h.1, ih h.2]

theorem name_of_mem_container {kind : SectionKind} {es : List Element} {e : Element}
    (h : e ∈ Encoding.container kind es) : e.name = kind.name := by
  unfold Encoding.container at h
  split at h
  · cases h
  · rw [List.mem_singleton.1 h]

/-- **Of several sections in one element each is found by its name.** -/
theorem sectionItems_eq {sections : List (SectionKind × List Element)} (distinct : (sections.map (·.1)).Nodup)
    {kind : SectionKind} {es : List Element} (h : (kind, es) ∈ sections) {rest : List Element}
    (hrest : ∀ e ∈ rest, e.name ≠ kind.name) :
    sectionItems .standard kind ((sections.flatMap fun s => Encoding.container s.1 s.2) ++ rest) = items kind es := by
  induction sections with
  | nil => cases h
  | cons s sections ih =>
    obtain ⟨kind', es'⟩ := s
    rw [List.map_cons, List.nodup_cons] at distinct
    have others : ∀ k, k ≠ kind' → ∀ e ∈ Encoding.container kind' es', e.name ≠ k.name := fun k hk e he hn =>
      hk (SectionKind.name_injective (hn.symm.trans (name_of_mem_container he)))
    rw [List.flatMap_cons, List.append_assoc]
    rcases List.mem_cons.1 h with h | h
    · obtain ⟨rfl, rfl⟩ := Prod.mk.inj h
      have absent : ∀ e ∈ (sections.flatMap fun s => Encoding.container s.1 s.2) ++ rest, e.name ≠ kind.name := by
        intro e he
        rcases List.mem_append.1 he with he | he
        · obtain ⟨s, hs, he⟩ := List.mem_flatMap.1 he
          intro hn
          have same := SectionKind.name_injective ((name_of_mem_container he).symm.trans hn)
          exact distinct.1 (List.mem_map.2 ⟨s, hs, same⟩)
        · exact hrest e he
      cases es with
      | nil => exact sectionItems_absent absent
      | cons e es =>
        show sectionItems .standard kind (⟨kind.name, [], e :: es⟩ :: _) = _
        rw [sectionItems, if_pos rfl]
        rfl
    · have ne : kind ≠ kind' := fun hk => distinct.1 (List.mem_map.2 ⟨_, h, hk⟩)
      have skip : ∀ es, sectionItems .standard kind (Encoding.container kind' es' ++ es)
          = sectionItems .standard kind es := by
        intro es
        unfold Encoding.container
        split
        · rfl
        · exact sectionItems_cons_of_ne (fun hn => ne (SectionKind.name_injective hn.symm)) es
      rw [skip, ih distinct.2 h]

/-! ## Filling sections -/

theorem push_eq_ok {e : Element} {s t : Section} {c : Clause} (h : s.apply (.push c) = .ok t) : push e s c = .ok t := by
  rw [push, h]

/-- A section is filled by the clauses that the elements are read as, if it takes them. -/
theorem run_filled {es : List Element} {cs : List Clause} {s t : Section} {k k' : KnownParams}
    (h : (clauses .standard es).run k = .ok (cs, k')) (ht : s.pushAll cs = .ok t) :
    (filled .standard s es).run k = .ok (t, k') := by
  induction es generalizing s cs k with
  | nil =>
    obtain ⟨rfl, rfl⟩ := Prod.mk.inj (Except.ok.inj h)
    obtain rfl := Except.ok.inj ht
    rfl
  | cons e es ih =>
    rw [clauses] at h
    obtain ⟨c, k₁, hc, h⟩ := run_bind_eq_ok h
    obtain ⟨cs', k₂, hcs, h⟩ := run_bind_eq_ok h
    obtain ⟨rfl, rfl⟩ := Prod.mk.inj (Except.ok.inj h)
    obtain ⟨u, hu, ht⟩ := Section.pushAll_cons_eq_ok ht
    rw [filled, run_bind hc, run_ofResult (push_eq_ok hu)]
    exact ih hcs ht

theorem length_clauses {r : Registry} {es : List Element} {cs : List Clause} {k k' : KnownParams}
    (h : (clauses r es).run k = .ok (cs, k')) : es.length = cs.length := by
  induction es generalizing cs k with
  | nil =>
    obtain ⟨rfl, rfl⟩ := Prod.mk.inj (Except.ok.inj h)
    rfl
  | cons e es ih =>
    rw [clauses] at h
    obtain ⟨c, k₁, hc, h⟩ := run_bind_eq_ok h
    obtain ⟨cs', k₂, hcs, h⟩ := run_bind_eq_ok h
    obtain ⟨rfl, rfl⟩ := Prod.mk.inj (Except.ok.inj h)
    rw [List.length_cons, List.length_cons, ih hcs]

end Decoding

/-! ## Survival -/

def Clause.Survives (F : List Parameter) (c : Clause) : Prop :=
  SqlTree.Survives F (Encoding.clause c) (Decoding.clause .standard) fun R c' => c.Like (.params R) c'

namespace Survives

variable {F : List Parameter}

/-- **A list of clauses survives if its members do.** -/
theorem clauses {cs : List Clause} (h : ∀ c ∈ cs, c.Survives F) :
    Survives F (Encoding.clauses cs) (Decoding.clauses .standard)
      fun R cs' => List.Forall₂ (Clause.Like (.params R)) cs cs' := by
  induction cs with
  | nil => exact of_pure (fun _ => rfl) fun _ => .nil
  | cons c cs ih =>
    rw [List.forall_mem_cons] at h
    refine ((h.1.both (ih h.2)).imp (fun es => Decoding.clauses .standard (es.1 :: es.2)) _ ?_).shaped
    rintro ⟨e, es⟩ ⟨c', cs'⟩ k k' hrun -
    refine ⟨c' :: cs', ?_, fun R like => .cons like.1 like.2⟩
    obtain ⟨_, k₁, hc, hrun⟩ := Decoding.run_bind_eq_ok hrun
    obtain ⟨_, k₂, hcs, hrun⟩ := Decoding.run_bind_eq_ok hrun
    obtain ⟨same, rfl⟩ := Prod.mk.inj (Except.ok.inj hrun)
    obtain ⟨rfl, rfl⟩ := Prod.mk.inj same
    rw [Decoding.clauses, Decoding.run_bind hc, Decoding.run_map hcs]

/-- **A section that rebuilds itself survives** if its clauses do. -/
theorem items {kind : SectionKind} {cs : List Clause} (built : Rebuilds kind cs) (h : ∀ c ∈ cs, c.Survives F) :
    Survives F (Encoding.clauses cs) (Decoding.items kind)
      fun R cs' => List.Forall₂ (Clause.Like (.params R)) cs cs' := by
  refine (clauses h).imp _ _ ?_
  rintro es cs' k k' hrun ⟨R, like⟩
  obtain ⟨s, hs, -⟩ := built.like like
  refine ⟨s.items, Decoding.run_map (Decoding.run_filled hrun hs), fun R like => ?_⟩
  obtain ⟨s', hs', like⟩ := built.like like
  obtain rfl := Except.ok.inj (hs.symm.trans hs')
  exact like

end Survives

end SqlTree
