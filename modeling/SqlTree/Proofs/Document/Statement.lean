/-
Statements in documents.

Each statement is an element around its sections and around what else it holds; its own check is made again when it is
read, and succeeds on what is like a statement that passed it.

- `Survives.source`, `Survives.returns`: the source of an insert and the receiver of a call survive.
- `Decoding.query_insert` and its kin: what each sort of statement is read from.
-/
import SqlTree.Proofs.Document.Select

namespace SqlTree

open Section (Rebuilds)

variable {F : List Parameter}

/-! ## Parts that may be absent -/

namespace Encoding

/-- the element of something that may be absent -/
def optionally {α : Type} (write : α → Encoding Element) : Option α → Encoding (Option Element)
  | none => return none
  | some a => do
    let e ← write a
    return some e

/-- an element of its own around another, if there is one -/
def inside (name : String) : Option Element → List Element
  | none => []
  | some e => [{ name, children := [e] }]

def arguments (es : List Element) : List Element := if es.isEmpty then [] else [{ name := "args", children := es }]

theorem insert_eq (i : Insert) : statement (.insert i) = (do
    let columns ← clauses i.columns
    let values ← clauses i.values
    let source ← optionally select i.source
    return (withTable { name := StatementKind.insert.name } i.table).withChildren
      (container .columns columns ++ container .values values ++ inside "source" source)) := by
  obtain ⟨table, columns, values, source⟩ := i
  cases source <;> rfl

theorem exec_eq (x : Exec) : statement (.exec x) = (do
    let returns ← optionally param x.returns
    let args ← clauses x.args
    return Element.withChildren { name := StatementKind.exec.name, attrs := [("routine", x.routine)] }
      (inside "returns" returns ++ arguments args)) := by
  obtain ⟨routine, args, returns⟩ := x
  cases returns <;> rfl

end Encoding

namespace Decoding

theorem sourceOf_append {es : List Element} (h : ∀ e ∈ es, e.name ≠ "source") (rest : List Element) :
    sourceOf .standard (es ++ rest) = sourceOf .standard rest := by
  induction es with
  | nil => rfl
  | cons e es ih =>
    rw [List.forall_mem_cons] at h
    cases e
    rw [List.cons_append, sourceOf.eq_def]
    exact (if_neg h.1).trans (ih h.2)

theorem returnsOf_inside (r : Option Element) (args : List Element) :
    returnsOf .standard (Encoding.inside "returns" r ++ Encoding.arguments args)
      = returnsOf .standard (Encoding.inside "returns" r) := by
  have other : ¬"args" = "returns" := by decide
  cases r with
  | none =>
    cases args with
    | nil => rfl
    | cons e es =>
      show returnsOf .standard [⟨"args", [], e :: es⟩] = _
      rw [returnsOf.eq_def]
      exact if_neg other
  | some e =>
    show returnsOf .standard (⟨"returns", [], [e]⟩ :: _) = returnsOf .standard [⟨"returns", [], [e]⟩]
    rw [returnsOf, returnsOf, if_pos rfl, if_pos rfl]

theorem argsOf_arguments (r : Option Element) (args : List Element) :
    argsOf .standard (Encoding.inside "returns" r ++ Encoding.arguments args) = clauses .standard args := by
  have other : ¬"returns" = "args" := by decide
  have found : argsOf .standard (Encoding.arguments args) = clauses .standard args := by
    cases args with
    | nil => rfl
    | cons e es =>
      show argsOf .standard [⟨"args", [], e :: es⟩] = _
      rw [argsOf, if_pos rfl]
  cases r with
  | none => exact found
  | some e =>
    show argsOf .standard (⟨"returns", [], [e]⟩ :: _) = _
    rw [argsOf, if_neg other]
    exact found

end Decoding

namespace Survives

theorem source {o : Option Select} (h : ∀ s ∈ o, s.Survives F) :
    Survives F (Encoding.optionally Encoding.select o)
      (fun r => Decoding.sourceOf .standard (Encoding.inside "source" r))
      fun R o' => Select.LikeOption (.params R) o o' := by
  cases o with
  | none => exact of_pure (fun _ => rfl) fun _ => rfl
  | some s =>
    show Survives F (do let e ← Encoding.select s; return some e) _ _
    refine ((h s rfl).imp _ _ ?_).shaped
    rintro e _ k k' hrun ⟨R, s', rfl, -⟩
    refine ⟨some s', ?_, ?_⟩
    · show (Decoding.sourceOf .standard [⟨"source", [], [e]⟩]).run k = _
      rw [Decoding.sourceOf, if_pos rfl]
      exact Decoding.run_bind hrun
    · rintro R ⟨s'', same, like⟩
      obtain rfl : s' = s'' := Statement.select.inj (Query.single.inj same)
      exact ⟨s', rfl, like⟩

theorem returns (coherent : Coherent F) {o : Option Parameter} (h : ∀ p ∈ o, p ∈ F) :
    Survives F (Encoding.optionally Encoding.param o)
      (fun r => Decoding.returnsOf .standard (Encoding.inside "returns" r))
      fun R o' => (Likeness.params R).receiver o o' := by
  cases o with
  | none => exact of_pure (fun _ => rfl) fun _ => rfl
  | some p =>
    show Survives F (do let e ← Encoding.param p; return some e) _ _
    refine ((param coherent (h p rfl)).imp _ _ ?_).shaped
    rintro e c k k' hrun ⟨R, like⟩
    rw [Clause.Like] at like
    obtain ⟨p', rfl, -⟩ := like
    refine ⟨some p', ?_, fun R like => ?_⟩
    · show (Decoding.returnsOf .standard [⟨"returns", [], [e]⟩]).run k = _
      rw [Decoding.returnsOf, if_pos rfl]
      exact Decoding.run_bind hrun
    · rw [Clause.Like] at like
      obtain ⟨p'', same, like⟩ := like
      obtain rfl := Clause.param.inj same
      exact ⟨p', rfl, like⟩

end Survives

/-! ## Statements -/

theorem Insert.check_eq {i i' : Insert} (hc : i.columns.length = i'.columns.length)
    (hv : i.values.length = i'.values.length) (hs : i.source.isSome = i'.source.isSome) : i.check = i'.check := by
  have empty : i.values.isEmpty = i'.values.isEmpty := by
    rw [Bool.eq_iff_iff, List.isEmpty_iff_length_eq_zero, List.isEmpty_iff_length_eq_zero, hv]
  rw [check, check, hc, hv, hs, empty]

theorem Select.LikeOption.isSome_eq {L : Likeness} {o o' : Option Select} (h : LikeOption L o o') :
    o.isSome = o'.isSome := by
  cases o with
  | none => rw [show o' = none from h]
  | some s =>
    obtain ⟨s', rfl, -⟩ := h
    rfl

namespace Decoding

variable {e : Element}

theorem checked_eq {r : Result Unit} (h : r = .ok ()) : checked e r = .ok () := by
  subst h
  rfl

theorem tableOf_withTable (name : String) (t : TableRef) (children : List Element) :
    tableOf ((Encoding.withTable { name } t).withChildren children) = .ok t :=
  tableOf_eq (by simp [Encoding.withTable]) (by simp [Encoding.withTable])

theorem name_withTable (name : String) (t : TableRef) (children : List Element) :
    ((Encoding.withTable { name } t).withChildren children).name = name := by
  simp [Encoding.withTable]

theorem query_insert (hn : e.name = StatementKind.insert.name) : query .standard e = (do
    let table ← ofResult (tableOf e)
    let columns ← sectionItems .standard .columns e.children
    let values ← sectionItems .standard .values e.children
    let source ← sourceOf .standard e.children
    ofResult (checked e (Insert.check ⟨table, columns, values, source⟩))
    return .single (.insert ⟨table, columns, values, source⟩)) := by
  obtain ⟨name, attrs, children⟩ := e
  obtain rfl : name = _ := hn
  rw [query, Registry.standard_statement]

theorem query_update (hn : e.name = StatementKind.update.name) : query .standard e = (do
    let table ← ofResult (tableOf e)
    let assignments ← sectionItems .standard .assignments e.children
    let filter ← sectionItems .standard .filter e.children
    ofResult (checked e (Update.check ⟨table, assignments, filter.head?⟩))
    return .single (.update ⟨table, assignments, filter.head?⟩)) := by
  obtain ⟨name, attrs, children⟩ := e
  obtain rfl : name = _ := hn
  rw [query, Registry.standard_statement]

theorem query_delete (hn : e.name = StatementKind.delete.name) : query .standard e = (do
    let table ← ofResult (tableOf e)
    let filter ← sectionItems .standard .filter e.children
    return .single (.delete ⟨table, filter.head?⟩)) := by
  obtain ⟨name, attrs, children⟩ := e
  obtain rfl : name = _ := hn
  rw [query, Registry.standard_statement]

theorem query_exec (hn : e.name = StatementKind.exec.name) : query .standard e = (do
    let returns ← returnsOf .standard e.children
    let args ← argsOf .standard e.children
    let routine ← ofResult (e.require "routine")
    return .single (.exec ⟨routine, args, returns⟩)) := by
  obtain ⟨name, attrs, children⟩ := e
  obtain rfl : name = _ := hn
  rw [query, Registry.standard_statement]

theorem query_createTable (hn : e.name = StatementKind.createTable.name) : query .standard e = (do
    let columns ← ofResult (e.children.mapM columnDef)
    let table ← ofResult (tableOf e)
    let ifNotExists ← ofResult (e.flag "if-not-exists")
    ofResult (checked e (CreateTable.check ⟨table, columns, ifNotExists⟩))
    return .single (.createTable ⟨table, columns, ifNotExists⟩)) := by
  obtain ⟨name, attrs, children⟩ := e
  obtain rfl : name = _ := hn
  rw [query, Registry.standard_statement]

theorem query_dropTable (hn : e.name = StatementKind.dropTable.name) : query .standard e = (do
    let table ← ofResult (tableOf e)
    return .single (.dropTable ⟨table, ← ofResult (e.flag "if-exists")⟩)) := by
  obtain ⟨name, attrs, children⟩ := e
  obtain rfl : name = _ := hn
  rw [query, Registry.standard_statement]

theorem query_script (hn : e.name = StatementKind.script.name) : query .standard e = (do
    return .ofList (← queries .standard e.children)) := by
  obtain ⟨name, attrs, children⟩ := e
  obtain rfl : name = _ := hn
  rw [query, Registry.standard_statement]

theorem columnDef_eq (c : ColumnDef) : columnDef (Encoding.columnDef c) = .ok c := by
  obtain ⟨name, type, nullable, primaryKey⟩ := c
  generalize he : Encoding.columnDef ⟨name, type, nullable, primaryKey⟩ = e
  have hkind : ¬e.name ≠ "column" := by
    subst he
    simp [Encoding.columnDef]
  have htype : typeOf e = .ok type := by
    refine Element.required_eq ?_ (DataType.ofTag?_tag type)
    subst he
    simp [Encoding.columnDef]
  have hnullable : nullableOf e = .ok nullable := by
    have word : e.attr? "nullable" = some (Value.boolText nullable) := by
      subst he
      simp [Encoding.columnDef]
    rw [nullableOf, word]
    cases nullable <;> rfl
  have hname : e.require "name" = .ok name := by
    refine Element.require_eq ?_
    subst he
    simp [Encoding.columnDef]
  have hkey : e.flag "primary-key" = .ok primaryKey := by
    refine Element.flag_eq ?_
    subst he
    simp [Encoding.columnDef]
  unfold columnDef
  rw [if_neg hkind, htype, hnullable, hname, hkey]
  rfl

theorem mapM_columnDef (cs : List ColumnDef) : (cs.map Encoding.columnDef).mapM columnDef = .ok cs := by
  induction cs with
  | nil => rfl
  | cons c cs ih =>
    rw [List.map_cons, List.mapM_cons, columnDef_eq, ih]
    rfl

end Decoding

end SqlTree
