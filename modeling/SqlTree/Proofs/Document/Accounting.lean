/-
Accounting for the children of elements.

- `Decoding.parts_taking`: a section keeps the parts of every clause that it takes.
- `Decoding.Accounts`: what is read from an element accounts for its elements. What is read from several elements then
  accounts for theirs, one lemma for each list of elements and for each container that is read.
-/
import SqlTree.Proofs.Document.Elements
import SqlTree.Proofs.Document.Kept
import SqlTree.Proofs.Document.Section

namespace SqlTree

namespace Decoding

open Element (elements elementsIn inFirst first?)

/-! ### Results -/

theorem ofResult_eq_ok {α : Type} {x : Result α} {a : α} {k k' : KnownParams} (h : (ofResult x).run k = .ok (a, k')) :
    x = .ok a := by
  cases x with
  | error fault => cases h
  | ok b =>
    cases h
    rfl

/-! ### Statements -/

/-- a result that a reader gives for some known parameters -/
def MayGive {α : Type} (w : Decoding α) (a : α) : Prop := ∃ k k', w.run k = .ok (a, k')

/-- what a statement element is read as, by what is read of its children -/
inductive QueryRead (r : Registry) (es : List Element) : StatementKind → Query → Prop
  | select {distinct : Bool} {limit : Option RowLimit} {fields sources filter groupBy having orderBy : List Clause}
    (hF : MayGive (sectionItems r .fields es) fields) (hS : MayGive (sectionItems r .sources es) sources)
    (hW : MayGive (sectionItems r .filter es) filter) (hG : MayGive (sectionItems r .groupBy es) groupBy)
    (hH : MayGive (sectionItems r .having es) having) (hO : MayGive (sectionItems r .orderBy es) orderBy) :
    QueryRead r es .select
      (.single (.select (.mk distinct limit fields sources filter.head? groupBy having.head? orderBy)))
  | insert {table : TableRef} {columns values : List Clause} {source : Option Select}
    (hC : MayGive (sectionItems r .columns es) columns) (hV : MayGive (sectionItems r .values es) values)
    (hS : MayGive (sourceOf r es) source) : QueryRead r es .insert (.single (.insert ⟨table, columns, values, source⟩))
  | update {table : TableRef} {assignments filter : List Clause}
      (hA : MayGive (sectionItems r .assignments es) assignments)
    (hW : MayGive (sectionItems r .filter es) filter) :
    QueryRead r es .update (.single (.update ⟨table, assignments, filter.head?⟩))
  | delete {table : TableRef} {filter : List Clause} (hW : MayGive (sectionItems r .filter es) filter) :
    QueryRead r es .delete (.single (.delete ⟨table, filter.head?⟩))
  | exec {routine : String} {args : List Clause} {returns : Option Parameter} (hR : MayGive (returnsOf r es) returns)
    (hA : MayGive (argsOf r es) args) : QueryRead r es .exec (.single (.exec ⟨routine, args, returns⟩))
  | script {members : List Query} (hM : MayGive (queries r es) members) : QueryRead r es .script (.ofList members)
  | createTable {table : TableRef} {columns : List ColumnDef} {ifNotExists : Bool}
      (hC : es.mapM columnDef = .ok columns) :
    QueryRead r es .createTable (.single (.createTable ⟨table, columns, ifNotExists⟩))
  | dropTable (t : DropTable) : QueryRead r es .dropTable (.single (.dropTable t))

/-- **What a statement element can be read as**, by the sort that its name means. -/
theorem query_read {r : Registry} {name : String} {attrs : Keyed String} {children : List Element}
    {kind : StatementKind} (hk : r.statements.find? name = some kind) {q : Query} {k k' : KnownParams}
    (h : (query r ⟨name, attrs, children⟩).run k = .ok (q, k')) : QueryRead r children kind q := by
  rw [query, hk] at h
  cases kind with
  | select =>
    obtain ⟨limit, k₁, -, h⟩ := run_bind_eq_ok h
    obtain ⟨distinct, k₂, -, h⟩ := run_bind_eq_ok h
    obtain ⟨fields, k₃, hF, h⟩ := run_bind_eq_ok h
    obtain ⟨sources, k₄, hS, h⟩ := run_bind_eq_ok h
    obtain ⟨filter, k₅, hW, h⟩ := run_bind_eq_ok h
    obtain ⟨groupBy, k₆, hG, h⟩ := run_bind_eq_ok h
    obtain ⟨having, k₇, hH, h⟩ := run_bind_eq_ok h
    obtain ⟨orderBy, k₈, hO, h⟩ := run_bind_eq_ok h
    cases h
    exact .select ⟨_, _, hF⟩ ⟨_, _, hS⟩ ⟨_, _, hW⟩ ⟨_, _, hG⟩ ⟨_, _, hH⟩ ⟨_, _, hO⟩
  | insert =>
    obtain ⟨table, k₁, -, h⟩ := run_bind_eq_ok h
    obtain ⟨columns, k₂, hC, h⟩ := run_bind_eq_ok h
    obtain ⟨values, k₃, hV, h⟩ := run_bind_eq_ok h
    obtain ⟨source, k₄, hS, h⟩ := run_bind_eq_ok h
    obtain ⟨_, k₅, -, h⟩ := run_bind_eq_ok h
    cases h
    exact .insert ⟨_, _, hC⟩ ⟨_, _, hV⟩ ⟨_, _, hS⟩
  | update =>
    obtain ⟨table, k₁, -, h⟩ := run_bind_eq_ok h
    obtain ⟨assignments, k₂, hA, h⟩ := run_bind_eq_ok h
    obtain ⟨filter, k₃, hW, h⟩ := run_bind_eq_ok h
    obtain ⟨_, k₄, -, h⟩ := run_bind_eq_ok h
    cases h
    exact .update ⟨_, _, hA⟩ ⟨_, _, hW⟩
  | delete =>
    obtain ⟨table, k₁, -, h⟩ := run_bind_eq_ok h
    obtain ⟨filter, k₂, hW, h⟩ := run_bind_eq_ok h
    cases h
    exact .delete ⟨_, _, hW⟩
  | exec =>
    obtain ⟨returns, k₁, hR, h⟩ := run_bind_eq_ok h
    obtain ⟨args, k₂, hA, h⟩ := run_bind_eq_ok h
    obtain ⟨routine, k₃, -, h⟩ := run_bind_eq_ok h
    cases h
    exact .exec ⟨_, _, hR⟩ ⟨_, _, hA⟩
  | script =>
    obtain ⟨members, k₁, hM, h⟩ := run_bind_eq_ok h
    cases h
    exact .script ⟨_, _, hM⟩
  | createTable =>
    obtain ⟨columns, k₁, hC, h⟩ := run_bind_eq_ok h
    obtain ⟨table, k₂, -, h⟩ := run_bind_eq_ok h
    obtain ⟨ifNotExists, k₃, -, h⟩ := run_bind_eq_ok h
    obtain ⟨_, k₄, -, h⟩ := run_bind_eq_ok h
    cases h
    exact .createTable (ofResult_eq_ok hC)
  | dropTable =>
    obtain ⟨table, k₁, -, h⟩ := run_bind_eq_ok h
    obtain ⟨ifExists, k₂, -, h⟩ := run_bind_eq_ok h
    cases h
    exact .dropTable _

/-! ### Sections -/

/-- A section that takes a clause keeps the parts that it has, and has those of the clause. -/
theorem parts_taking (s : Section) (c : Clause) :
    (s.items.flatMap Clause.parts ++ c.parts).Subperm ((s.taking c).items.flatMap Clause.parts) := by
  rw [Section.taking]
  split
  · rw [Section.joinOn]
    cases last : s.items.getLast? with
    | none =>
      rw [List.getLast?_eq_none_iff.1 last]
      show c.parts.Subperm (c.parts ++ [])
      rw [List.append_nil]
    | some before =>
      have items : s.items = s.items.dropLast ++ [before] := (List.dropLast_append_getLast? before last).symm
      have joined : (Clause.logic before .and c).parts
          = .clause (.logic before .and c) :: (before.parts ++ c.parts) := by
        simp [Clause.parts_eq (.logic _ _ _), Clause.operands, Clause.query?]
      conv_lhs => rw [items]
      rw [List.flatMap_append, List.flatMap_append, List.flatMap_singleton, List.flatMap_singleton, joined,
        List.append_assoc]
      exact (List.subperm_append_left _).2 .cons_self
  · have admitted : c.parts.Sublist (Section.admitted s.kind c).parts := by
      rcases Section.admitted_cases s.kind c with same | same
      · rw [same]
      · have parts : (Clause.order c .ascending).parts = .clause (.order c .ascending) :: c.parts := by
          simp [Clause.parts_eq (.order _ _), Clause.operands, Clause.query?]
        rw [same, parts]
        exact List.sublist_cons_self _ _
    rw [Section.append, List.flatMap_append, List.flatMap_singleton]
    exact (admitted.append_left _).subperm

theorem taking_of_push {e : Element} {s t : Section} {c : Clause} (h : push e s c = .ok t) : t = s.taking c := by
  have h := apply_of_push h
  rw [Section.apply_push] at h
  obtain ⟨-, h⟩ := Clause.then_eq_ok_iff.1 h
  split at h
  · cases h
  · exact (Except.ok.inj h).symm

variable {r : Registry} {k k' : KnownParams}

/-- A boolean section holds one clause at most. -/
theorem head_sectionItems {kind : SectionKind} (boolean : kind.isBoolean = true) {es : List Element} {cs : List Clause}
    (h : MayGive (sectionItems r kind es) cs) : cs.head?.toList = cs := by
  obtain ⟨k, k', h⟩ := h
  have step : ∀ (s : Section) (c : Clause) (t : Section), s.apply (.push c) = .ok t →
      s.kind = kind ∧ s.items.length ≤ 1 → t.kind = kind ∧ t.items.length ≤ 1 := by
    rintro s c t ht ⟨rfl, few⟩
    obtain rfl := taking_of_push (e := ⟨"", [], []⟩) (push_eq_ok ht)
    rw [Section.taking, if_pos boolean, Section.joinOn]
    refine ⟨rfl, ?_⟩
    rw [List.length_append, List.length_dropLast, List.length_singleton]
    omega
  have few : cs.length ≤ 1 := by
    refine sectionItems_gives (r := r) (P := fun cs => cs.length ≤ 1) (Nat.zero_le 1) (fun es => ?_) es k cs k' h
    exact (filled_gives (s := .empty kind) step ⟨rfl, Nat.zero_le 1⟩ es).mono fun _ h => h.2
  rcases cs with _ | ⟨c, _ | ⟨c', rest⟩⟩
  · rfl
  · rfl
  · simp only [List.length_cons] at few
    omega

/-! ### Lists -/

/-- what is read from an element accounts for it, if it is orderly -/
def Accounts (r : Registry) (e : Element) : Prop :=
  (e.Orderly r .clause → ∀ k c k', (clause r e).run k = .ok (c, k') → AccountedFor r (e.elements r .clause) c.parts)
    ∧ (e.Orderly r .statement →
        ∀ k q k', (query r e).run k = .ok (q, k') → AccountedFor r (e.elements r .statement) q.parts)

section
variable {es : List Element} (ih : ∀ x ∈ es, Accounts r x)

include ih

theorem clauses_account (orderly : ∀ x ∈ es, x.Orderly r .clause) {cs : List Clause}
    (h : (clauses r es).run k = .ok (cs, k')) :
    AccountedFor r (elementsIn r (.all .clause) es) (cs.flatMap Clause.parts) := by
  induction es generalizing cs k with
  | nil =>
    rw [elementsIn]
    exact .nil _
  | cons e es ihs =>
    rw [List.forall_mem_cons] at ih orderly
    rw [clauses] at h
    obtain ⟨c, k₁, hc, h⟩ := run_bind_eq_ok h
    obtain ⟨cs', k₂, hcs, h⟩ := run_bind_eq_ok h
    cases h
    rw [elementsIn]
    exact (ih.1.1 orderly.1 _ _ _ hc).append (ihs ih.2 orderly.2 hcs)

theorem queries_account (orderly : ∀ x ∈ es, x.Orderly r .statement) {qs : List Query}
    (h : (queries r es).run k = .ok (qs, k')) :
    AccountedFor r (elementsIn r (.all .statement) es) (qs.flatMap Query.parts) := by
  induction es generalizing qs k with
  | nil =>
    rw [elementsIn]
    exact .nil _
  | cons e es ihs =>
    rw [List.forall_mem_cons] at ih orderly
    rw [queries] at h
    obtain ⟨q, k₁, hq, h⟩ := run_bind_eq_ok h
    obtain ⟨qs', k₂, hqs, h⟩ := run_bind_eq_ok h
    cases h
    rw [elementsIn]
    exact (ih.1.2 orderly.1 _ _ _ hq).append (ihs ih.2 orderly.2 hqs)

theorem filled_account (orderly : ∀ x ∈ es, x.Orderly r .clause) {s t : Section}
    (h : (filled r s es).run k = .ok (t, k'))
    {xs : List (Reading × Element)} (before : AccountedFor r xs (s.items.flatMap Clause.parts)) :
    AccountedFor r (xs ++ elementsIn r (.all .clause) es) (t.items.flatMap Clause.parts) := by
  induction es generalizing s k xs with
  | nil =>
    cases h
    rwa [elementsIn, List.append_nil]
  | cons e es ihs =>
    rw [List.forall_mem_cons] at ih orderly
    rw [filled] at h
    obtain ⟨c, k₁, hc, h⟩ := run_bind_eq_ok h
    obtain ⟨u, k₂, hu, h⟩ := run_bind_eq_ok h
    obtain rfl := taking_of_push (ofResult_eq_ok hu)
    rw [elementsIn, ← List.append_assoc]
    refine ihs ih.2 orderly.2 h ?_
    exact (before.append (ih.1.1 orderly.1 _ _ _ hc)).mono (parts_taking s c)

end

theorem columns_account {es : List Element} (orderly : ∀ x ∈ es, x.Orderly r .column) {ds : List ColumnDef}
    (h : es.mapM columnDef = .ok ds) : AccountedFor r (elementsIn r (.all .column) es) (ds.map Part.column) := by
  induction es generalizing ds with
  | nil =>
    rw [elementsIn]
    exact .nil _
  | cons e es ih =>
    rw [List.forall_mem_cons] at orderly
    rw [List.mapM_cons] at h
    obtain ⟨d, hd, h⟩ := bind_eq_ok h
    obtain ⟨ds', hds, h⟩ := bind_eq_ok h
    cases h
    have own : e.elements r .column = [(.column, e)] := by
      obtain ⟨name, attrs, children⟩ := e
      obtain rfl := orderly.1.of_nothing rfl
      rw [elements, Registry.childPlan, elementsIn]
      rfl
    rw [elementsIn, own]
    exact (ih orderly.2 hds).cons hd

/-! ### Containers -/

section
variable {es : List Element} (ih : ∀ x ∈ es, ∀ y ∈ x.children, Accounts r y) {containers : Keyed Reading}
  (orderly : ∀ x ∈ es, ∀ how, containers.find? x.name = some how → ∀ y ∈ x.children, y.Orderly r how)

include ih orderly

/-- The children of the first container of a name account for themselves and are orderly. -/
theorem of_container {name : String} {how : Reading} {e : Element} (he : first? name es = some e)
    (known : containers.find? name = some how) :
    (∀ x ∈ e.children, Accounts r x) ∧ ∀ x ∈ e.children, x.Orderly r how := by
  have found := List.mem_of_find?_eq_some he
  have same : e.name = name := by simpa using List.find?_some he
  exact ⟨ih e found, orderly e found how (same ▸ known)⟩

theorem sectionItems_account {kind : SectionKind} (known : containers.find? kind.name = some .clause) {cs : List Clause}
    (h : MayGive (sectionItems r kind es) cs) :
    AccountedFor r (inFirst r kind.name .clause es) (cs.flatMap Clause.parts) := by
  obtain ⟨k, k', h⟩ := h
  rw [sectionItems_eq_first] at h
  rw [inFirst]
  cases he : first? kind.name es with
  | none => exact .nil _
  | some e =>
    rw [he] at h
    obtain ⟨s, k₁, hs, h⟩ := run_bind_eq_ok h
    cases h
    obtain ⟨ihs, orderlies⟩ := of_container ih orderly he known
    exact filled_account ihs orderlies hs (.nil _)

/-- If a section is empty, its containers are, no two of which have one name. -/
theorem sectionItems_eq_nil (once : (es.map Element.name).Nodup) {kind : SectionKind}
    (known : containers.find? kind.name = some .clause) (h : MayGive (sectionItems r kind es) []) :
    ∀ x ∈ es, x.name = kind.name → x.children = [] := by
  intro x hx same
  obtain ⟨qs, read, sub⟩ := sectionItems_account ih orderly known h
  obtain rfl := List.subperm_nil.1 sub
  have nothing := List.forall₂_nil_right_iff.1 read
  have found : first? kind.name es = some x := by
    obtain ⟨e, he⟩ : ∃ e, first? kind.name es = some e :=
      Option.isSome_iff_exists.1 (List.find?_isSome.2 ⟨x, hx, by simpa using same⟩)
    have name : e.name = x.name := by simpa [same] using List.find?_some he
    rw [he, List.inj_on_of_nodup_map once (List.mem_of_find?_eq_some he) hx name]
  rw [inFirst, found] at nothing
  obtain ⟨name, attrs, children⟩ := x
  cases children with
  | nil => rfl
  | cons e es =>
    obtain ⟨name', attrs', children'⟩ := e
    have own : r.meansScript name' .clause = false := rfl
    simp [elementsIn, elements, own] at nothing

theorem sourceOf_account (known : containers.find? "source" = some .statement) {source : Option Select}
    (h : MayGive (sourceOf r es) source) :
    AccountedFor r (inFirst r "source" .statement es) (source.toList.flatMap Select.parts) := by
  obtain ⟨k, k', h⟩ := h
  rw [sourceOf_eq_first] at h
  rw [inFirst]
  cases he : first? "source" es with
  | none => exact .nil _
  | some e =>
    obtain ⟨ihs, orderlies⟩ := of_container ih orderly he known
    obtain ⟨name, attrs, children⟩ := e
    rw [he] at h
    rcases children with _ | ⟨child, _ | ⟨child', rest⟩⟩
    · cases h
    · obtain ⟨q, k₁, hq, h⟩ := run_bind_eq_ok h
      obtain ⟨s, k₂, hs, h⟩ := run_bind_eq_ok h
      cases h
      obtain rfl := asSelect_eq_ok (ofResult_eq_ok hs)
      have account := (ihs child List.mem_cons_self).2 (orderlies child List.mem_cons_self) _ _ _ hq
      show AccountedFor r (elementsIn r (.all .statement) [child]) (s.parts ++ [])
      rwa [elementsIn, elementsIn, List.append_nil, List.append_nil, ← Statement.parts, ← Query.parts_single]
    · cases h

theorem returnsOf_account (known : containers.find? "returns" = some .clause) {returns : Option Parameter}
    (h : MayGive (returnsOf r es) returns) :
    AccountedFor r (inFirst r "returns" .clause es) ((returns.toList.map Clause.param).flatMap Clause.parts) := by
  obtain ⟨k, k', h⟩ := h
  rw [returnsOf_eq_first] at h
  rw [inFirst]
  cases he : first? "returns" es with
  | none => exact .nil _
  | some e =>
    obtain ⟨ihs, orderlies⟩ := of_container ih orderly he known
    obtain ⟨name, attrs, children⟩ := e
    rw [he] at h
    rcases children with _ | ⟨child, _ | ⟨child', rest⟩⟩
    · cases h
    · obtain ⟨c, k₁, hc, h⟩ := run_bind_eq_ok h
      have account := (ihs child List.mem_cons_self).1 (orderlies child List.mem_cons_self) _ _ _ hc
      show AccountedFor r (elementsIn r (.all .clause) [child]) _
      rw [elementsIn, elementsIn, List.append_nil]
      cases c <;> cases h
      simpa using account
    · cases h

theorem argsOf_account (known : containers.find? "args" = some .clause) {args : List Clause}
    (h : MayGive (argsOf r es) args) :
    AccountedFor r (inFirst r "args" .clause es) (args.flatMap Clause.parts) := by
  obtain ⟨k, k', h⟩ := h
  rw [argsOf_eq_first] at h
  rw [inFirst]
  cases he : first? "args" es with
  | none => exact .nil _
  | some e =>
    obtain ⟨ihs, orderlies⟩ := of_container ih orderly he known
    rw [he] at h
    exact clauses_account ihs orderlies h

end

end Decoding

end SqlTree
