/-
Attributes in order.

A map with text keys is in order if its keys ascend, and then it is the map of its own pairs. Writers put attributes in
one by one, so every element that they write is in order, as are those in it.

- `Keyed.ofList_of_ordered`: a map in order is read back from its pairs.
- `Query.toDocument_ordered`: documents of queries are in order.
-/
import SqlTree.Proofs.Document.Statement

namespace SqlTree

/-! ## Maps -/

namespace Keyed

variable {α : Type}

/-- a map whose keys ascend strictly -/
def Ordered (m : Keyed α) : Prop := m.Pairwise (·.1 < ·.1)

/-- Inserting puts no key in front of one that is smaller. -/
theorem mem_insert {key : String} {value : α} {m : Keyed α} {pair : String × α} (h : pair ∈ insert key value m) :
    pair = (key, value) ∨ pair ∈ m := by
  induction m with
  | nil => simpa [insert] using h
  | cons first rest ih =>
    obtain ⟨k, v⟩ := first
    rw [insert] at h
    split at h
    · rcases List.mem_cons.1 h with h | h
      · exact .inl h
      · exact .inr (List.mem_cons_of_mem _ h)
    · split at h
      · exact List.mem_cons.1 h
      · rcases List.mem_cons.1 h with h | h
        · exact .inr (h ▸ List.mem_cons_self)
        · exact (ih h).imp_right (List.mem_cons_of_mem _)

theorem Ordered.insert {m : Keyed α} (h : m.Ordered) (key : String) (value : α) : (m.insert key value).Ordered := by
  induction m with
  | nil => exact List.pairwise_singleton _ _
  | cons first rest ih =>
    obtain ⟨k, v⟩ := first
    obtain ⟨front, h⟩ := List.pairwise_cons.1 h
    rw [Keyed.insert]
    split
    · next same => exact List.pairwise_cons.2 ⟨fun pair hp => same ▸ front pair hp, h⟩
    · next other =>
      split
      · next less =>
        refine List.pairwise_cons.2 ⟨?_, List.pairwise_cons.2 ⟨front, h⟩⟩
        exact List.forall_mem_cons.2 ⟨less, fun pair hp => String.lt_trans less (front pair hp)⟩
      · next notLess =>
        refine List.pairwise_cons.2 ⟨fun pair hp => ?_, ih h⟩
        rcases mem_insert hp with rfl | hp
        · exact Std.lt_of_le_of_ne notLess (Ne.symm other)
        · exact front pair hp

theorem insert_last {m : Keyed α} {key : String} (h : ∀ pair ∈ m, pair.1 < key) (value : α) :
    m.insert key value = m ++ [(key, value)] := by
  induction m with
  | nil => rfl
  | cons first rest ih =>
    obtain ⟨k, v⟩ := first
    obtain ⟨less, h⟩ := List.forall_mem_cons.1 h
    have other : key ≠ k := fun same => String.lt_irrefl k (same ▸ less)
    rw [insert, if_neg other, if_neg (String.lt_asymm less), ih h]
    rfl

/-- **A map in order is the map of its own pairs.** The last pair is inserted last, so this is an
induction from the end. -/
theorem ofList_of_ordered {m : Keyed α} (h : m.Ordered) : ofList m = m := by
  induction m using List.reverseRecOn with
  | nil => rfl
  | append_singleton m last ih =>
    obtain ⟨key, value⟩ := last
    obtain ⟨h, -, behind⟩ := List.pairwise_append.1 h
    have step : ofList (m ++ [(key, value)]) = insert key value (ofList m) := by
      rw [ofList, List.foldl_append]
      rfl
    rw [step, ih h]
    exact insert_last (fun pair hp => behind pair hp _ List.mem_cons_self) value

end Keyed

/-! ## Elements -/

namespace Element

/-- an element with its attributes in order, as are those of every element in it -/
inductive Ordered : Element → Prop
  | node {e : Element} (attrs : e.attrs.Ordered) (children : ∀ x ∈ e.children, Ordered x) : Ordered e

namespace Ordered

variable {e : Element}

theorem named (name : String) : Ordered { name } := .node .nil (by simp)

theorem single (name key value : String) : Ordered { name, attrs := [(key, value)] } :=
  .node (List.pairwise_singleton _ _) (by simp)

theorem withAttr (h : e.Ordered) (key value : String) : (e.withAttr key value).Ordered := by
  obtain ⟨attrs, children⟩ := h
  exact .node (attrs.insert key value) children

theorem withAttr? (h : e.Ordered) (key : String) (value : Option String) : (e.withAttr? key value).Ordered := by
  cases value with
  | none => exact h
  | some value => exact h.withAttr key value

theorem withFlag (h : e.Ordered) (key : String) (holds : Bool) : (e.withFlag key holds).Ordered := by
  cases holds with
  | false => exact h
  | true => exact h.withAttr key "true"

theorem withValue (h : e.Ordered) (v : Value) : (e.withValue v).Ordered := (h.withAttr _ _).withAttr? _ _

theorem withChildren (h : e.Ordered) {children : List Element} (hc : ∀ x ∈ children, x.Ordered) :
    (e.withChildren children).Ordered := by
  obtain ⟨attrs, -⟩ := h
  exact .node attrs hc

end Ordered
end Element

namespace Encoding

variable {α β : Type} {P : α → Prop} {Q : β → Prop}

/-- a writer whose results are of a kind -/
def Gives (w : Encoding α) (P : α → Prop) : Prop := ∀ ids, P (Id.run (w.run ids)).1

theorem Gives.pure {a : α} (h : P a) : Gives (return a) P := fun _ => h

theorem Gives.bind {w : Encoding α} {f : α → Encoding β} (hw : Gives w P) (hf : ∀ a, P a → Gives (f a) Q) :
    Gives (w >>= f) Q := fun ids => hf _ (hw ids) _

def AllOrdered (es : List Element) : Prop := ∀ e ∈ es, e.Ordered

open Element (Ordered)

theorem AllOrdered.append {es es' : List Element} (h : AllOrdered es) (h' : AllOrdered es') : AllOrdered (es ++ es') :=
  List.forall_mem_append.2 ⟨h, h'⟩

theorem container_ordered {es : List Element} (kind : SectionKind) (h : AllOrdered es) :
    AllOrdered (container kind es) := by
  rw [container]
  split
  · simp [AllOrdered]
  · exact List.forall_mem_singleton.2 (.node .nil h)

theorem inside_ordered {o : Option Element} (name : String) (h : ∀ e ∈ o, e.Ordered) : AllOrdered (inside name o) := by
  cases o with
  | none => simp [AllOrdered, inside]
  | some e => exact List.forall_mem_singleton.2 (.node .nil (by simpa using h))

theorem arguments_ordered {es : List Element} (h : AllOrdered es) : AllOrdered (arguments es) := by
  rw [arguments]
  split
  · simp [AllOrdered]
  · exact List.forall_mem_singleton.2 (.node .nil h)

theorem described_ordered {e : Element} (h : e.Ordered) (p : Parameter) : (described e p).Ordered := by
  have named : ((e.withAttr? "name" p.name).withAttr? "type" (p.type.map DataType.tag)).Ordered :=
    (h.withAttr? _ _).withAttr? _ _
  have directed : (if p.direction = .input then (e.withAttr? "name" p.name).withAttr? "type" (p.type.map DataType.tag)
      else ((e.withAttr? "name" p.name).withAttr? "type" (p.type.map DataType.tag)).withAttr "direction"
        p.direction.name).Ordered := by
    split
    · exact named
    · exact named.withAttr _ _
  rw [described]
  cases p.source with
  | fixed v => exact directed.withValue v
  | deferred feed => exact directed.withFlag _ _

theorem param_ordered (p : Parameter) : Gives (param p) Ordered := by
  intro ids
  cases h : ids.idxOf? p.id with
  | some n =>
    rw [run_param_known h]
    exact .single _ _ _
  | none =>
    rw [run_param_new h]
    exact described_ordered (.single _ _ _) p

theorem withTable_ordered {e : Element} (h : e.Ordered) (t : TableRef) : (withTable e t).Ordered :=
  (h.withAttr _ _).withAttr? _ _

theorem withLimit_ordered {e : Element} (h : e.Ordered) (limit : Option RowLimit) : (withLimit e limit).Ordered := by
  rcases limit with _ | _ | _
  · exact h
  · exact h.withAttr _ _
  · exact (h.withAttr _ _).withAttr _ _

theorem columnDef_ordered (c : ColumnDef) : (columnDef c).Ordered :=
  (((Ordered.named _).withAttr _ _).withAttr _ _ |>.withAttr _ _).withFlag _ _

end Encoding

theorem Clause.label_ordered (c : Clause) : c.label.Ordered := by
  have named : ∀ kind, (Encoding.element kind).Ordered := fun kind => .named kind.name
  cases c with
  | field | table => exact ((named _).withAttr _ _).withAttr? _ _
  | allFields => exact (named _).withAttr? _ _
  | constant v => exact (named _).withValue v
  | compare | logic | function | cast | «calc» | aliased | join | order => exact (named _).withAttr _ _
  | isNull | inList => exact (named _).withFlag _ _
  | aggregate => exact ((named _).withAttr _ _).withFlag _ _
  | builtin fn =>
    cases fn with
    | lastId sequence => exact (Element.Ordered.single _ _ _).withAttr? _ _
    | nextId sequence => exact (Element.Ordered.single _ _ _).withAttr _ _
    | _ => exact .single _ _ _
  | _ => exact named _

namespace Encoding

open Element (Ordered)

theorem clauses_ordered {cs : List Clause} (h : ∀ c ∈ cs, Gives (clause c) Ordered) :
    Gives (clauses cs) AllOrdered := by
  induction cs with
  | nil => exact .pure (by simp [AllOrdered])
  | cons c cs ih =>
    rw [List.forall_mem_cons] at h
    rw [clauses]
    exact h.1.bind fun e he => (ih h.2).bind fun es hes => .pure (List.forall_mem_cons.2 ⟨he, hes⟩)

/-- **The elements of clauses and selects are in order**, by induction on what is right below them. -/
theorem clause_and_select_ordered : (∀ c, Gives (clause c) Ordered) ∧ ∀ s, Gives (select s) Ordered := by
  refine Clause.operandInduction (fun c operands query => ?_) fun s each => ?_
  · by_cases hp : c.kind = .param
    · cases c <;> simp only [Clause.kind, reduceCtorEq] at hp
      exact param_ordered _
    · cases hq : c.query? with
      | none =>
        rw [clause_eq c hp hq]
        exact (clauses_ordered operands).bind fun es hes => .pure (c.label_ordered.withChildren hes)
      | some s =>
        have written := query s hq
        cases c <;> simp only [Clause.query?, reduceCtorEq] at hq
        all_goals
          obtain rfl := Option.some.inj hq
          exact written.bind fun e he => .pure ((Ordered.named _).withChildren (List.forall_mem_singleton.2 he))
  · obtain ⟨distinct, limit, fields, sources, filter, groupBy, having, orderBy⟩ := s
    simp only [Select.clauses, List.forall_mem_append] at each
    obtain ⟨⟨⟨⟨⟨f, s⟩, w⟩, g⟩, h⟩, o⟩ := each
    rw [select, optional_eq, optional_eq]
    refine (clauses_ordered f).bind fun _ f => (clauses_ordered s).bind fun _ s => (clauses_ordered w).bind fun _ w =>
      (clauses_ordered g).bind fun _ g => (clauses_ordered h).bind fun _ h => (clauses_ordered o).bind fun _ o =>
        .pure ?_
    refine (withLimit_ordered ((Ordered.named _).withFlag _ _) limit).withChildren ?_
    exact (((((container_ordered _ f).append (container_ordered _ s)).append (container_ordered _ w)).append
      (container_ordered _ g)).append (container_ordered _ h)).append (container_ordered _ o)

theorem list_ordered (cs : List Clause) : Gives (clauses cs) AllOrdered :=
  clauses_ordered fun c _ => clause_and_select_ordered.1 c

theorem optionally_ordered {α : Type} {write : α → Encoding Element} (h : ∀ a, Gives (write a) Ordered) (o : Option α) :
    Gives (optionally write o) fun r => ∀ e ∈ r, e.Ordered := by
  cases o with
  | none => exact .pure (by simp)
  | some a => exact (h a).bind fun e he => .pure (by simpa using he)

theorem statement_ordered (s : Statement) : Gives (statement s) Ordered := by
  cases s with
  | select s => exact clause_and_select_ordered.2 s
  | insert i =>
    rw [insert_eq]
    refine (list_ordered _).bind fun _ c => (list_ordered _).bind fun _ v =>
      (optionally_ordered clause_and_select_ordered.2 _).bind fun _ s => .pure ?_
    exact (withTable_ordered (.named _) _).withChildren
      (((container_ordered _ c).append (container_ordered _ v)).append (inside_ordered _ s))
  | update u =>
    rw [statement, optional_eq]
    refine (list_ordered _).bind fun _ a => (list_ordered _).bind fun _ w => .pure ?_
    exact (withTable_ordered (.named _) _).withChildren ((container_ordered _ a).append (container_ordered _ w))
  | delete d =>
    rw [statement, optional_eq]
    exact (list_ordered _).bind fun _ w => .pure ((withTable_ordered (.named _) _).withChildren (container_ordered _ w))
  | exec x =>
    rw [exec_eq]
    refine (optionally_ordered param_ordered _).bind fun _ r => (list_ordered _).bind fun _ a => .pure ?_
    exact (Ordered.single _ _ _).withChildren ((inside_ordered _ r).append (arguments_ordered a))
  | createTable t =>
    refine .pure (((withTable_ordered (.named _) _).withFlag _ _).withChildren fun e he => ?_)
    obtain ⟨c, -, rfl⟩ := List.mem_map.1 he
    exact columnDef_ordered c
  | dropTable t => exact .pure ((withTable_ordered (.named _) _).withFlag _ _)

end Encoding

/-- **Documents of queries are in order.** -/
theorem Query.toDocument_ordered (q : Query) : q.toDocument.Ordered := by
  have all : Encoding.Gives (Encoding.query q) Element.Ordered := by
    cases q with
    | single s => exact Encoding.statement_ordered s
    | script ms =>
      have members : Encoding.Gives (ms.mapM Encoding.statement) Encoding.AllOrdered := by
        induction ms with
        | nil => exact .pure (by simp [Encoding.AllOrdered])
        | cons s ms ih =>
          rw [List.mapM_cons]
          exact (Encoding.statement_ordered s).bind fun e he => ih.bind fun es hes =>
            .pure (List.forall_mem_cons.2 ⟨he, hes⟩)
      exact members.bind fun es hes => .pure (.node .nil hes)
  exact all []

end SqlTree
