/-
Queries in documents.

- `Survives.statement`, `Survives.recordable`: statements and queries that a document can hold survive.
- `Survives.query`: so do those that were put together by the rules.
-/
import SqlTree.Proofs.Document.Statement

namespace SqlTree

open Section (Rebuilds)

variable {F : List Parameter}

/-- a statement that survives as one that is like it -/
def Statement.Survives (F : List Parameter) (s : Statement) : Prop :=
  SqlTree.Survives F (Encoding.statement s) (Decoding.query .standard)
    fun R q => ∃ s', q = .single s' ∧ s.Like (.params R) s'

/-! ## Statements around sections -/

namespace Encoding

/-- the element of an insert around the elements of its parts -/
def insertElement (t : TableRef) (columns values : List Element) (source : Option Element) : Element :=
  (withTable { name := StatementKind.insert.name } t).withChildren
    (container .columns columns ++ container .values values ++ inside "source" source)

def updateElement (t : TableRef) (assignments filter : List Element) : Element :=
  (withTable { name := StatementKind.update.name } t).withChildren
    (container .assignments assignments ++ container .filter filter)

def deleteElement (t : TableRef) (filter : List Element) : Element :=
  (withTable { name := StatementKind.delete.name } t).withChildren (container .filter filter)

def execElement (routine : String) (returns : Option Element) (args : List Element) : Element :=
  Element.withChildren { name := StatementKind.exec.name, attrs := [("routine", routine)] }
    (inside "returns" returns ++ arguments args)

end Encoding

namespace Decoding

theorem name_inside {name : String} {r : Option Element} {e : Element} (h : e ∈ Encoding.inside name r) :
    e.name = name := by
  cases r with
  | none => cases h
  | some => rw [List.mem_singleton.1 h]

theorem query_insertElement (t : TableRef) (c v : List Element) (r : Option Element) :
    query .standard (Encoding.insertElement t c v r) = (do
      let columns ← items .columns c
      let values ← items .values v
      let source ← sourceOf .standard (Encoding.inside "source" r)
      ofResult (checked (Encoding.insertElement t c v r) (Insert.check ⟨t, columns, values, source⟩))
      return .single (.insert ⟨t, columns, values, source⟩)) := by
  have children : (Encoding.insertElement t c v r).children
      = [(SectionKind.columns, c), (.values, v)].flatMap (fun s => Encoding.container s.1 s.2)
        ++ Encoding.inside "source" r := by
    simp [Encoding.insertElement]
  have found : ∀ kind es, (kind, es) ∈ [(SectionKind.columns, c), (.values, v)] →
      sectionItems .standard kind (Encoding.insertElement t c v r).children = items kind es := fun kind es h => by
    have kinds : ([(SectionKind.columns, c), (.values, v)].map (·.1)).Nodup :=
      (by decide : [SectionKind.columns, .values].Nodup)
    rw [children]
    refine sectionItems_eq kinds h fun e he hn => ?_
    rw [name_inside he] at hn
    cases kind <;> revert hn <;> decide
  have source : sourceOf .standard (Encoding.insertElement t c v r).children
      = sourceOf .standard (Encoding.inside "source" r) := by
    rw [children]
    refine sourceOf_append (fun e he => ?_) _
    obtain ⟨s, -, he⟩ := List.mem_flatMap.1 he
    rw [name_of_mem_container he]
    cases s.1 <;> decide
  have name : (Encoding.insertElement t c v r).name = StatementKind.insert.name := name_withTable _ t _
  have table : tableOf (Encoding.insertElement t c v r) = .ok t := tableOf_withTable _ t _
  rw [query_insert name, table, found .columns c (by simp), found .values v (by simp), source]
  rfl

theorem query_updateElement (t : TableRef) (a w : List Element) :
    query .standard (Encoding.updateElement t a w) = (do
      let assignments ← items .assignments a
      let filter ← items .filter w
      ofResult (checked (Encoding.updateElement t a w) (Update.check ⟨t, assignments, filter.head?⟩))
      return .single (.update ⟨t, assignments, filter.head?⟩)) := by
  have children : (Encoding.updateElement t a w).children
      = [(SectionKind.assignments, a), (.filter, w)].flatMap (fun s => Encoding.container s.1 s.2) ++ [] := by
    simp [Encoding.updateElement]
  have found : ∀ kind es, (kind, es) ∈ [(SectionKind.assignments, a), (.filter, w)] →
      sectionItems .standard kind (Encoding.updateElement t a w).children = items kind es := fun kind es h => by
    have kinds : ([(SectionKind.assignments, a), (.filter, w)].map (·.1)).Nodup :=
      (by decide : [SectionKind.assignments, .filter].Nodup)
    rw [children]
    exact sectionItems_eq kinds h (List.forall_mem_nil _)
  have name : (Encoding.updateElement t a w).name = StatementKind.update.name := name_withTable _ t _
  have table : tableOf (Encoding.updateElement t a w) = .ok t := tableOf_withTable _ t _
  rw [query_update name, table, found .assignments a (by simp), found .filter w (by simp)]
  rfl

theorem query_deleteElement (t : TableRef) (w : List Element) :
    query .standard (Encoding.deleteElement t w) = (do
      let filter ← items .filter w
      return .single (.delete ⟨t, filter.head?⟩)) := by
  have children : (Encoding.deleteElement t w).children
      = [(SectionKind.filter, w)].flatMap (fun s => Encoding.container s.1 s.2) ++ [] := by
    simp [Encoding.deleteElement]
  have found : sectionItems .standard .filter (Encoding.deleteElement t w).children = items .filter w := by
    have kinds : ([(SectionKind.filter, w)].map (·.1)).Nodup := (by decide : [SectionKind.filter].Nodup)
    rw [children]
    exact sectionItems_eq kinds List.mem_cons_self (List.forall_mem_nil _)
  have name : (Encoding.deleteElement t w).name = StatementKind.delete.name := name_withTable _ t _
  have table : tableOf (Encoding.deleteElement t w) = .ok t := tableOf_withTable _ t _
  rw [query_delete name, table, found]
  rfl

end Decoding

namespace Survives

theorem of_mem (coherent : Coherent F) {cs : List Clause} (recordable : ∀ c ∈ cs, c.Recordable)
    (hF : ∀ p ∈ Clause.parametersAll cs, p ∈ F) : ∀ c ∈ cs, c.Survives F := fun c hc =>
  (clause_and_select coherent).1 c (recordable c hc) fun p hp =>
    hF p (Clause.parametersAll_eq cs ▸ List.mem_flatMap.2 ⟨c, hc, hp⟩)

theorem insert {i : Insert} (columns : Rebuilds .columns i.columns) (values : Rebuilds .values i.values)
    (check : i.check = .ok ()) (hc : ∀ c ∈ i.columns, c.Survives F) (hv : ∀ c ∈ i.values, c.Survives F)
    (hs : ∀ s ∈ i.source, s.Survives F) : (Statement.insert i).Survives F := by
  have parts := (items columns hc).both ((items values hv).both (source hs))
  have read := parts.imp (fun x => Decoding.query .standard
    (Encoding.insertElement i.table x.1 x.2.1 x.2.2))
    (fun R q => ∃ s', q = .single s' ∧ (Statement.insert i).Like (.params R) s') ?_
  · have written := read.shaped
    unfold Statement.Survives
    simpa only [Encoding.insert_eq, Encoding.insertElement, bind_assoc, pure_bind] using written
  · rintro ⟨c, v, r⟩ ⟨c', v', r'⟩ k k' hrun ⟨R, hc, hv, hr⟩
    have checked : Insert.check ⟨i.table, c', v', r'⟩ = .ok () :=
      (Insert.check_eq hc.length_eq hv.length_eq hr.isSome_eq).symm.trans check
    refine ⟨.single (.insert ⟨i.table, c', v', r'⟩), ?_, ?_⟩
    · have read := Decoding.run_bind (f := fun x => do
        Decoding.ofResult (Decoding.checked (Encoding.insertElement i.table c v r)
          (Insert.check ⟨i.table, x.1, x.2.1, x.2.2⟩))
        return Query.single (.insert ⟨i.table, x.1, x.2.1, x.2.2⟩)) hrun
      simp only [bind_assoc, pure_bind] at read
      rw [Decoding.query_insertElement]
      exact read.trans (Decoding.run_ofResult (Decoding.checked_eq checked))
    · rintro R ⟨hc, hv, hr⟩
      exact ⟨_, rfl, _, _, _, rfl, Clause.likeAll_iff.2 hc, Clause.likeAll_iff.2 hv, hr⟩

theorem update {u : Update} (assignments : Rebuilds .assignments u.assignments)
    (filter : Rebuilds .filter u.filter.toList)
    (check : u.check = .ok ()) (ha : ∀ c ∈ u.assignments, c.Survives F) (hw : ∀ c ∈ u.filter.toList, c.Survives F) :
    (Statement.update u).Survives F := by
  have parts := (items assignments ha).both (items filter hw)
  have read := parts.imp (fun x => Decoding.query .standard (Encoding.updateElement u.table x.1 x.2))
    (fun R q => ∃ s', q = .single s' ∧ (Statement.update u).Like (.params R) s') ?_
  · have written := read.shaped
    unfold Statement.Survives
    simpa only [Encoding.statement, Encoding.optional_eq, Encoding.updateElement, bind_assoc, pure_bind] using written
  · rintro ⟨a, w⟩ ⟨a', w'⟩ k k' hrun ⟨R, ha, hw⟩
    have checked : Update.check ⟨u.table, a', w'.head?⟩ = .ok () := by
      rw [← check, Update.check, Update.check, (Clause.likeAll_iff.2 ha).isEmpty_eq]
    refine ⟨.single (.update ⟨u.table, a', w'.head?⟩), ?_, ?_⟩
    · have read := Decoding.run_bind (f := fun x => do
        Decoding.ofResult (Decoding.checked (Encoding.updateElement u.table a w)
          (Update.check ⟨u.table, x.1, x.2.head?⟩))
        return Query.single (.update ⟨u.table, x.1, x.2.head?⟩)) hrun
      simp only [bind_assoc, pure_bind] at read
      rw [Decoding.query_updateElement]
      exact read.trans (Decoding.run_ofResult (Decoding.checked_eq checked))
    · rintro R ⟨ha, hw⟩
      exact ⟨_, rfl, _, _, rfl, Clause.likeAll_iff.2 ha, Clause.likeOption_head? hw⟩

theorem delete {d : Delete} (filter : Rebuilds .filter d.filter.toList) (hw : ∀ c ∈ d.filter.toList, c.Survives F) :
    (Statement.delete d).Survives F := by
  have read := (items filter hw).imp (fun w => Decoding.query .standard (Encoding.deleteElement d.table w))
    (fun R q => ∃ s', q = .single s' ∧ (Statement.delete d).Like (.params R) s') ?_
  · have written := read.shaped
    unfold Statement.Survives
    simpa only [Encoding.statement, Encoding.optional_eq, Encoding.deleteElement] using written
  · rintro w w' k k' hrun -
    refine ⟨.single (.delete ⟨d.table, w'.head?⟩), ?_, ?_⟩
    · rw [Decoding.query_deleteElement, Decoding.run_map hrun]
    · intro R hw
      exact ⟨_, rfl, _, rfl, Clause.likeOption_head? hw⟩

theorem exec {x : Exec} (coherent : Coherent F) (hr : ∀ p ∈ x.returns, p ∈ F) (ha : ∀ c ∈ x.args, c.Survives F) :
    (Statement.exec x).Survives F := by
  have parts := (returns coherent hr).both (clauses ha)
  have read := parts.imp (fun y => Decoding.query .standard (Encoding.execElement x.routine y.1 y.2))
    (fun R q => ∃ s', q = .single s' ∧ (Statement.exec x).Like (.params R) s') ?_
  · have written := read.shaped
    unfold Statement.Survives
    simpa only [Encoding.exec_eq, Encoding.execElement, bind_assoc, pure_bind] using written
  · rintro ⟨r, a⟩ ⟨r', a'⟩ k k' hrun -
    refine ⟨.single (.exec ⟨x.routine, a', r'⟩), ?_, ?_⟩
    · have routine : (Encoding.execElement x.routine r a).require "routine" = .ok x.routine :=
        Element.require_eq (by simp [Encoding.execElement])
      have name : (Encoding.execElement x.routine r a).name = StatementKind.exec.name := rfl
      have read := Decoding.run_map (f := fun y => Query.single (.exec ⟨x.routine, y.2, y.1⟩)) hrun
      simp only [bind_assoc, pure_bind] at read
      rw [Decoding.query_exec name, routine, Encoding.execElement, Element.withChildren_children,
        Decoding.returnsOf_inside, Decoding.argsOf_arguments]
      exact read
    · rintro R ⟨hr, ha⟩
      exact ⟨_, rfl, _, _, rfl, Clause.likeAll_iff.2 ha, hr⟩

theorem createTable {t : CreateTable} (check : t.check = .ok ()) : (Statement.createTable t).Survives F := by
  refine of_pure (b := .single (.createTable t)) (fun k => ?_) fun R => ⟨_, rfl, rfl⟩
  obtain ⟨table, columns, ifNotExists⟩ := t
  generalize he : ((Encoding.withTable { name := StatementKind.createTable.name } table).withFlag "if-not-exists"
    ifNotExists).withChildren (columns.map Encoding.columnDef) = e
  have name : e.name = StatementKind.createTable.name := by
    subst he
    simp [Encoding.withTable]
  have htable : Decoding.tableOf e = .ok table := by
    refine Decoding.tableOf_eq ?_ ?_ <;> subst he <;> simp [Encoding.withTable]
  have hflag : e.flag "if-not-exists" = .ok ifNotExists := by
    refine Element.flag_eq ?_
    subst he
    simp [Encoding.withTable]
  have hcolumns : e.children.mapM Decoding.columnDef = .ok columns := by
    subst he
    exact Decoding.mapM_columnDef columns
  rw [Decoding.query_createTable name, hcolumns, htable, hflag]
  simp only [Decoding.ofResult_ok_bind, Decoding.checked_eq check]
  rfl

theorem dropTable (t : DropTable) : (Statement.dropTable t).Survives F := by
  refine of_pure (b := .single (.dropTable t)) (fun k => ?_) fun R => ⟨_, rfl, rfl⟩
  obtain ⟨table, ifExists⟩ := t
  generalize he : (Encoding.withTable { name := StatementKind.dropTable.name } table).withFlag "if-exists" ifExists = e
  have name : e.name = StatementKind.dropTable.name := by
    subst he
    simp [Encoding.withTable]
  have htable : Decoding.tableOf e = .ok table := by
    refine Decoding.tableOf_eq ?_ ?_ <;> subst he <;> simp [Encoding.withTable]
  have hflag : e.flag "if-exists" = .ok ifExists := by
    refine Element.flag_eq ?_
    subst he
    simp [Encoding.withTable]
  rw [Decoding.query_dropTable name, htable, hflag]
  rfl

/-- **Statements that a document can hold survive.** -/
theorem statement (coherent : Coherent F) {s : Statement} (recordable : s.Recordable) (hF : ∀ p ∈ s.parameters, p ∈ F) :
    s.Survives F := by
  cases s with
  | select s =>
    refine ((clause_and_select coherent).2 s recordable hF).imp _ _ ?_
    rintro e q k k' hrun -
    refine ⟨q, hrun, ?_⟩
    rintro R ⟨s', rfl, like⟩
    exact ⟨_, rfl, s', rfl, like⟩
  | insert i =>
    obtain ⟨columns, values, clauses, source, check⟩ := recordable
    simp only [Statement.parameters, List.forall_mem_append] at hF clauses
    refine insert columns values check (of_mem coherent clauses.1 hF.1.1) (of_mem coherent clauses.2 hF.1.2)
      fun s hs => (clause_and_select coherent).2 s (source s hs) ?_
    rw [hs] at hF
    exact hF.2
  | update u =>
    obtain ⟨assignments, filter, clauses, check⟩ := recordable
    simp only [Statement.parameters, Clause.parametersOption_eq, ← Clause.parametersAll_eq, List.forall_mem_append]
      at hF clauses
    exact update assignments filter check (of_mem coherent clauses.1 hF.1) (of_mem coherent clauses.2 hF.2)
  | delete d =>
    obtain ⟨filter, clauses⟩ := recordable
    simp only [Statement.parameters, Clause.parametersOption_eq, ← Clause.parametersAll_eq] at hF
    exact delete filter (of_mem coherent (by simpa using clauses) hF)
  | exec x =>
    simp only [Statement.parameters, List.forall_mem_append] at hF
    exact exec coherent (by simpa using hF.1) (of_mem coherent recordable hF.2)
  | createTable t => exact createTable recordable
  | dropTable t => exact dropTable t

/-! ## Scripts -/

theorem members (coherent : Coherent F) {ms : List Statement} (recordable : ∀ s ∈ ms, s.Recordable)
    (hF : ∀ p ∈ ms.flatMap Statement.parameters, p ∈ F) :
    Survives F (ms.mapM Encoding.statement) (Decoding.queries .standard)
      fun R qs => List.Forall₂ (fun s q => ∃ s', q = .single s' ∧ s.Like (.params R) s') ms qs := by
  induction ms with
  | nil => exact of_pure (fun _ => rfl) fun _ => .nil
  | cons s ms ih =>
    rw [List.forall_mem_cons] at recordable
    rw [List.flatMap_cons, List.forall_mem_append] at hF
    have parts := (statement coherent recordable.1 hF.1).both (ih recordable.2 hF.2)
    have read := parts.imp (fun es => Decoding.queries .standard (es.1 :: es.2))
      (fun R qs => List.Forall₂ (fun s q => ∃ s', q = .single s' ∧ s.Like (.params R) s') (s :: ms) qs) ?_
    · have written := read.shaped
      simpa only [List.mapM_cons, bind_assoc, pure_bind] using written
    · rintro ⟨e, es⟩ ⟨q, qs⟩ k k' hrun -
      have read := Decoding.run_map (f := fun x => x.1 :: x.2) hrun
      simp only [bind_assoc, pure_bind] at read
      refine ⟨q :: qs, ?_, fun R like => .cons like.1 like.2⟩
      rw [Decoding.queries]
      exact read

/-- The members of a script are single statements, which are what is left when scripts are taken apart. -/
theorem singles_like {L : Likeness} {ms : List Statement} {qs : List Query}
    (h : List.Forall₂ (fun s q => ∃ s', q = .single s' ∧ s.Like L s') ms qs) :
    List.Forall₂ (Statement.Like L) ms (qs.flatMap Query.statements) := by
  induction h with
  | nil => exact .nil
  | cons hs _ ih =>
    obtain ⟨s', rfl, like⟩ := hs
    exact .cons like ih

/-- **Queries that a document can hold survive.** -/
theorem recordable (coherent : Coherent F) {q : Query} (recordable : q.Recordable) (hF : ∀ p ∈ q.parameters, p ∈ F) :
    Survives F (Encoding.query q) (Decoding.query .standard) fun R q' => q.Like (.params R) q' := by
  cases q with
  | single s =>
    refine (statement coherent (recordable s List.mem_cons_self) fun p hp => hF p ?_).imp _ _ ?_
    · rwa [Query.parameters, Query.statements, List.flatMap_singleton]
    · rintro e q k k' hrun -
      exact ⟨q, hrun, fun R like => like⟩
  | script ms =>
    refine ((members coherent recordable hF).imp _ _ ?_).shaped
    rintro es qs k k' hrun -
    refine ⟨.ofList qs, ?_, fun R like => ?_⟩
    · rw [Decoding.query_script rfl]
      exact Decoding.run_map hrun
    · exact ⟨_, rfl, singles_like like⟩

theorem query (coherent : Coherent F) {q : Query} (built : q.Built) (hF : ∀ p ∈ q.parameters, p ∈ F) :
    Survives F (Encoding.query q) (Decoding.query .standard) fun R q' => q.Like (.params R) q' :=
  recordable coherent built.recordable hF

end Survives

end SqlTree
