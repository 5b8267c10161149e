/-
What of a document makes a difference.

`Element.kept` is a document without the elements that nobody looks at: children of elements that are read without them,
elements of a name that is not looked for, and all but the first of a name that is.

- `Element.orderly_iff`: nothing is dropped from a document if it is orderly, as what is kept of one is.
- `Decoding.kept_eq`: reading a document is reading what is kept of it.
-/
import SqlTree.Proofs.Document.Reading

namespace SqlTree

/-- the containers that are still looked for behind one of a name -/
def Keyed.without (name : String) (containers : Keyed Reading) : Keyed Reading := containers.filter (·.1 ≠ name)

namespace Element

mutual

/-- what is kept of an element -/
def keptAs (r : Registry) (how : Reading) : Element → Element
  | ⟨name, attrs, children⟩ => ⟨name, attrs, keptChildren r (r.childPlan name how) children⟩

def keptChildren (r : Registry) : ChildPlan → List Element → List Element
  | _, [] => []
  | .nothing, _ :: _ => []
  | .all how, e :: es => keptAs r how e :: keptChildren r (.all how) es
  | .firsts containers, ⟨name, attrs, children⟩ :: es =>
    match containers.find? name with
    | some how =>
      ⟨name, attrs, keptChildren r (.all how) children⟩ :: keptChildren r (.firsts (containers.without name)) es
    | none => keptChildren r (.firsts containers) es

end

def kept (r : Registry) (e : Element) : Element := e.keptAs r .statement

variable {r : Registry} {containers : Keyed Reading} {name : String} {how : Reading}

theorem find?_without (h : name' ≠ name) : (containers.without name').find? name = containers.find? name := by
  induction containers with
  | nil => rfl
  | cons c cs ih =>
    obtain ⟨n, how⟩ := c
    rw [Keyed.without] at ih ⊢
    by_cases hn : n = name'
    · subst hn
      rw [List.filter_cons_of_neg (by simp), ih, Keyed.find?, if_neg h]
    · rw [List.filter_cons_of_pos (by simpa using hn), Keyed.find?, Keyed.find?, ih]

theorem find?_without_self : (containers.without name).find? name = none := by
  induction containers with
  | nil => rfl
  | cons c cs ih =>
    obtain ⟨n, how⟩ := c
    rw [Keyed.without] at ih ⊢
    by_cases hn : n = name
    · rw [List.filter_cons_of_neg (by simp [hn]), ih]
    · rw [List.filter_cons_of_pos (by simpa using hn), Keyed.find?, if_neg hn, ih]

/-- Of the containers that are looked for the first ones are kept, with what is kept of their children. -/
theorem first?_keptChildren (h : containers.find? name = some how) (es : List Element) :
    first? name (keptChildren r (.firsts containers) es)
      = (first? name es).map fun e => ⟨e.name, e.attrs, keptChildren r (.all how) e.children⟩ := by
  induction es generalizing containers with
  | nil => rw [keptChildren]; rfl
  | cons e es ih =>
    obtain ⟨n, attrs, children⟩ := e
    rw [keptChildren]
    by_cases hn : n = name
    · subst hn
      simp only [h, first?_cons_self, Option.map_some]
    · rw [first?_cons_of_ne hn]
      cases hf : containers.find? n with
      | none => exact ih h
      | some how' =>
        dsimp only
        rw [first?_cons_of_ne hn]
        exact ih ((find?_without hn).trans h)

theorem keptChildren_all (es : List Element) : keptChildren r (.all how) es = es.map (keptAs r how) := by
  induction es with
  | nil => rw [keptChildren, List.map_nil]
  | cons e es ih => rw [keptChildren, ih, List.map_cons]

theorem length_keptChildren_all (es : List Element) : (keptChildren r (.all how) es).length = es.length := by
  rw [keptChildren_all, List.length_map]

theorem keptChildren_nothing (es : List Element) : keptChildren r .nothing es = [] := by
  cases es <;> rw [keptChildren]

/-! ## Orderly documents -/

/-- an element that has children only where they are read, and containers only if they are looked for, each one once -/
inductive Orderly (r : Registry) : Reading → Element → Prop where
  | leaf {how : Reading} {name : String} {attrs : Keyed String} (plan : r.childPlan name how = .nothing) :
      Orderly r how ⟨name, attrs, []⟩
  | all {how how' : Reading} {name : String} {attrs : Keyed String} {children : List Element}
      (plan : r.childPlan name how = .all how') (each : ∀ x ∈ children, Orderly r how' x) :
      Orderly r how ⟨name, attrs, children⟩
  | firsts {how : Reading} {containers : Keyed Reading} {name : String} {attrs : Keyed String} {children : List Element}
      (plan : r.childPlan name how = .firsts containers) (distinct : (children.map Element.name).Nodup)
      (known : ∀ x ∈ children, containers.find? x.name ≠ none)
      (each : ∀ x ∈ children, ∀ how', containers.find? x.name = some how' → ∀ y ∈ x.children, Orderly r how' y) :
      Orderly r how ⟨name, attrs, children⟩

/-- Containers with different names that are looked for are kept if their children are. -/
theorem keptChildren_firsts_self {es : List Element} (distinct : (es.map Element.name).Nodup)
    (each : ∀ x ∈ es, ∃ how, containers.find? x.name = some how ∧ keptChildren r (.all how) x.children = x.children) :
    keptChildren r (.firsts containers) es = es := by
  induction es generalizing containers with
  | nil => rw [keptChildren]
  | cons e es ih =>
    obtain ⟨name, attrs, children⟩ := e
    rw [List.map_cons, List.nodup_cons] at distinct
    rw [List.forall_mem_cons] at each
    obtain ⟨⟨how, found, same⟩, rest⟩ := each
    rw [keptChildren, found]
    dsimp only
    rw [same, ih distinct.2 fun x hx => ?_]
    have other : x.name ≠ name := fun h => distinct.1 (List.mem_map.2 ⟨x, hx, h⟩)
    rw [find?_without (Ne.symm other)]
    exact rest x hx

theorem keptAs_of_orderly {e : Element} (h : e.Orderly r how) : e.keptAs r how = e := by
  induction h with
  | leaf plan => rw [keptAs, plan, keptChildren]
  | all plan _ ih =>
    rw [keptAs, plan, keptChildren_all, List.map_congr_left ih, List.map_id']
  | firsts plan distinct known _ ih =>
    rw [keptAs, plan, keptChildren_firsts_self distinct fun x hx => ?_]
    obtain ⟨how', found⟩ := Option.ne_none_iff_exists'.1 (known x hx)
    exact ⟨how', found, by rw [keptChildren_all, List.map_congr_left (ih x hx how' found), List.map_id']⟩

theorem mem_keptChildren_firsts {es : List Element} {x : Element} (hx : x ∈ keptChildren r (.firsts containers) es) :
    ∃ how, ∃ e ∈ es, containers.find? x.name = some how
      ∧ x = ⟨e.name, e.attrs, keptChildren r (.all how) e.children⟩ := by
  induction es generalizing containers with
  | nil =>
    rw [keptChildren] at hx
    cases hx
  | cons e es ih =>
    obtain ⟨name, attrs, children⟩ := e
    rw [keptChildren] at hx
    cases found : containers.find? name with
    | none =>
      rw [found] at hx
      obtain ⟨how, e, he, known, same⟩ := ih hx
      exact ⟨how, e, List.mem_cons_of_mem _ he, known, same⟩
    | some how =>
      rw [found] at hx
      rcases List.mem_cons.1 hx with rfl | hx
      · exact ⟨how, _, List.mem_cons_self, found, rfl⟩
      · obtain ⟨how', e, he, known, same⟩ := ih hx
        have other : x.name ≠ name := by
          intro h
          rw [h, find?_without_self] at known
          cases known
        exact ⟨how', e, List.mem_cons_of_mem _ he, find?_without (Ne.symm other) ▸ known, same⟩

theorem nodup_keptChildren_firsts (es : List Element) :
    ((keptChildren r (.firsts containers) es).map Element.name).Nodup := by
  induction es generalizing containers with
  | nil =>
    rw [keptChildren]
    exact List.nodup_nil
  | cons e es ih =>
    obtain ⟨name, attrs, children⟩ := e
    rw [keptChildren]
    cases found : containers.find? name with
    | none => exact ih
    | some how =>
      refine List.nodup_cons.2 ⟨fun h => ?_, ih⟩
      obtain ⟨x, hx, same⟩ := List.mem_map.1 h
      obtain ⟨_, _, -, known, -⟩ := mem_keptChildren_firsts hx
      rw [same, find?_without_self] at known
      cases known

/-- What is kept of an element is orderly, by induction on the element. -/
theorem orderly_keptAs (r : Registry) (e : Element) : ∀ how, (e.keptAs r how).Orderly r how := by
  induction e using Element.deepInduction with
  | node name attrs children ih =>
    have listed : ∀ {how : Reading} {es : List Element}, (∀ x ∈ es, ∀ how, (x.keptAs r how).Orderly r how) →
        ∀ x ∈ keptChildren r (.all how) es, x.Orderly r how := by
      intro how es h x hx
      rw [keptChildren_all] at hx
      obtain ⟨y, hy, rfl⟩ := List.mem_map.1 hx
      exact h y hy how
    intro how
    rw [keptAs]
    cases plan : r.childPlan name how with
    | nothing =>
      rw [keptChildren_nothing]
      exact .leaf plan
    | all how' => exact .all plan (listed fun x hx => (ih x hx).1)
    | firsts containers =>
      refine .firsts plan (nodup_keptChildren_firsts children) (fun x hx => ?_) fun x hx how' known => ?_
      · obtain ⟨how', _, -, known, -⟩ := mem_keptChildren_firsts hx
        rw [known]
        exact Option.some_ne_none how'
      · obtain ⟨how'', e, he, known', rfl⟩ := mem_keptChildren_firsts hx
        obtain rfl := Option.some.inj (known.symm.trans known')
        exact listed (ih e he).2

/-! What an orderly element is like, by what is read of its children. -/

namespace Orderly

variable {attrs : Keyed String} {children : List Element} (h : Orderly r how ⟨name, attrs, children⟩)

include h

theorem of_nothing (plan : r.childPlan name how = .nothing) : children = [] := by
  cases h with
  | leaf => rfl
  | all other | firsts other =>
    rw [plan] at other
    cases other

theorem of_all {how' : Reading} (plan : r.childPlan name how = .all how') : ∀ x ∈ children, Orderly r how' x := by
  cases h with
  | leaf => simp
  | all other each =>
    rw [plan] at other
    cases other
    exact each
  | firsts other =>
    rw [plan] at other
    cases other

theorem of_firsts (plan : r.childPlan name how = .firsts containers) :
    (children.map Element.name).Nodup ∧ (∀ x ∈ children, containers.find? x.name ≠ none)
      ∧ ∀ x ∈ children, ∀ how', containers.find? x.name = some how' → ∀ y ∈ x.children, Orderly r how' y := by
  cases h with
  | leaf => simp
  | all other =>
    rw [plan] at other
    cases other
  | firsts other distinct known each =>
    rw [plan] at other
    cases other
    exact ⟨distinct, known, each⟩

end Orderly

/-- **Nothing is dropped from an element if it is orderly.** -/
theorem orderly_iff {e : Element} : e.Orderly r how ↔ e.keptAs r how = e :=
  ⟨keptAs_of_orderly, fun h => h ▸ orderly_keptAs r e how⟩

end Element

/-! ## Reading what is kept -/

namespace Decoding

open Element (kept keptAs keptChildren first?)

variable {r : Registry}

/-! ### Elements are read as what is kept of them -/

/-- what is kept of an element is read as the element is, for whatever it is read -/
def SameKept (r : Registry) (e : Element) : Prop :=
  clause r (e.keptAs r .clause) = clause r e ∧ query r (e.keptAs r .statement) = query r e

section
variable {es : List Element} (h : ∀ e ∈ es, SameKept r e)

include h

theorem clauses_kept : clauses r (keptChildren r (.all .clause) es) = clauses r es := by
  induction es with
  | nil => rw [keptChildren]
  | cons e es ih =>
    rw [List.forall_mem_cons] at h
    rw [keptChildren, clauses, clauses, h.1.1, ih h.2]

theorem queries_kept : queries r (keptChildren r (.all .statement) es) = queries r es := by
  induction es with
  | nil => rw [keptChildren]
  | cons e es ih =>
    rw [List.forall_mem_cons] at h
    rw [keptChildren, queries, queries, h.1.2, ih h.2]

theorem filled_kept (s : Section) : filled r s (keptChildren r (.all .clause) es) = filled r s es := by
  induction es generalizing s with
  | nil => rw [keptChildren]
  | cons e es ih =>
    rw [List.forall_mem_cons] at h
    have named : ∀ s c, push (e.keptAs r .clause) s c = push e s c := fun s c => by cases e; rfl
    rw [keptChildren, filled, filled, h.1.1]
    simp only [named, ih h.2]

end

theorem columns_kept (es : List Element) : (keptChildren r (.all .column) es).mapM columnDef = es.mapM columnDef := by
  induction es with
  | nil => rw [keptChildren]
  | cons e es ih =>
    have same : columnDef (e.keptAs r .column) = columnDef e := by cases e; rfl
    rw [keptChildren, List.mapM_cons, List.mapM_cons, same, ih]

section
variable {es : List Element} (h : ∀ x ∈ es, ∀ y ∈ x.children, SameKept r y) {containers : Keyed Reading}

include h

theorem of_first {name : String} {e : Element} (he : first? name es = some e) : ∀ y ∈ e.children, SameKept r y :=
  h e (List.mem_of_find?_eq_some he)

theorem sectionItems_kept {kind : SectionKind} (hk : containers.find? kind.name = some .clause) :
    sectionItems r kind (keptChildren r (.firsts containers) es) = sectionItems r kind es := by
  rw [sectionItems_eq_first, sectionItems_eq_first, Element.first?_keptChildren hk]
  cases he : first? kind.name es with
  | none => rfl
  | some e => simp only [Option.map_some, filled_kept (of_first h he)]

theorem sourceOf_kept (hk : containers.find? "source" = some .statement) :
    sourceOf r (keptChildren r (.firsts containers) es) = sourceOf r es := by
  rw [sourceOf_eq_first, sourceOf_eq_first, Element.first?_keptChildren hk]
  cases he : first? "source" es with
  | none => rfl
  | some e =>
    obtain ⟨name, attrs, children⟩ := e
    have same := of_first h he
    rcases children with _ | ⟨child, _ | ⟨child', rest⟩⟩
    · rfl
    · simp only [Option.map_some, keptChildren, (same child List.mem_cons_self).2]
      cases child
      rfl
    · simp only [Option.map_some, keptChildren, Element.fail, List.length_cons, Element.length_keptChildren_all]

theorem returnsOf_kept (hk : containers.find? "returns" = some .clause) :
    returnsOf r (keptChildren r (.firsts containers) es) = returnsOf r es := by
  rw [returnsOf_eq_first, returnsOf_eq_first, Element.first?_keptChildren hk]
  cases he : first? "returns" es with
  | none => rfl
  | some e =>
    obtain ⟨name, attrs, children⟩ := e
    have same := of_first h he
    rcases children with _ | ⟨child, _ | ⟨child', rest⟩⟩
    · rfl
    · simp only [Option.map_some, keptChildren, (same child List.mem_cons_self).1]
      rfl
    · simp only [Option.map_some, keptChildren, Element.fail, List.length_cons, Element.length_keptChildren_all]

theorem argsOf_kept (hk : containers.find? "args" = some .clause) :
    argsOf r (keptChildren r (.firsts containers) es) = argsOf r es := by
  rw [argsOf_eq_first, argsOf_eq_first, Element.first?_keptChildren hk]
  cases he : first? "args" es with
  | none => rfl
  | some e => simp only [Option.map_some, clauses_kept (of_first h he)]

end

theorem find?_sectionContainers {kind : SectionKind} {kinds : List SectionKind} (h : kind ∈ kinds) :
    (sectionContainers kinds).find? kind.name = some .clause := by
  induction kinds with
  | nil => cases h
  | cons k ks ih =>
    rw [sectionContainers, List.map_cons, Keyed.find?]
    split
    · rfl
    · rename_i other
      refine ih ((List.mem_cons.1 h).resolve_left ?_)
      rintro rfl
      exact other rfl

theorem sections_kept {es : List Element} (h : ∀ x ∈ es, ∀ y ∈ x.children, SameKept r y) (kinds : List SectionKind) :
    ∀ kind ∈ kinds, sectionItems r kind (keptChildren r (.firsts (sectionContainers kinds)) es)
        = sectionItems r kind es :=
  fun _ hk => sectionItems_kept h (find?_sectionContainers hk)

/-- How a clause comes about depends on the children only through their number, unless it is read without them. -/
theorem plan_kept {kind : ClauseKind} {name : String} {attrs : Keyed String} {children : List Element} :
    plan ⟨name, attrs, keptChildren r kind.childPlan children⟩ kind = plan ⟨name, attrs, children⟩ kind := by
  have number : ∀ how, (keptChildren r (.all how) children).length = children.length := fun how =>
    Element.length_keptChildren_all children
  have absent : ∀ how, (keptChildren r (.all how) children).isEmpty = children.isEmpty := fun how => by
    cases children with
    | nil => rw [keptChildren]
    | cons => rw [keptChildren]; rfl
  cases kind with
  | field | allFields | constant | param | builtin | table | function | concat => rfl
  | inList => simp only [plan, ClauseKind.childPlan, absent]; rfl
  | _ =>
    simp only [plan, fromOne, fromTwo, fromThree, fromSelect, Element.requireChildren, ClauseKind.childPlan, number]
    rfl

section
variable {name : String} {attrs : Keyed String} {children : List Element} (direct : ∀ x ∈ children, SameKept r x)

include direct

theorem clause_kept : clause r ((Element.mk name attrs children).keptAs r .clause)
    = clause r ⟨name, attrs, children⟩ := by
  rw [keptAs, Registry.childPlan]
  cases hk : r.clauses.find? name with
  | none =>
    rw [clause, clause, hk]
    rfl
  | some kind =>
    by_cases hp : kind = .param
    · subst hp
      rw [clause, clause, hk]
      rfl
    · simp only [Option.map_some, Option.getD_some]
      rw [clause_eq_planned hk hp, clause_eq_planned hk hp, plan_kept]
      cases hplan : plan ⟨name, attrs, children⟩ kind with
      | error e => rfl
      | ok p =>
        have fits := plan_fits hplan
        simp only [ofResult_ok_bind]
        cases p with
        | complete c => rfl
        | ofClauses build => simp only [fits.1, clauses_kept direct]
        | ofSelect build =>
          simp only [fits.1]
          rcases children with _ | ⟨child, _ | ⟨child', rest⟩⟩
          · rfl
          · simp only [keptChildren, (direct child List.mem_cons_self).2]
            cases child
            rfl
          · simp only [keptChildren, Element.fail, List.length_cons, Element.length_keptChildren_all]

variable (deep : ∀ x ∈ children, ∀ y ∈ x.children, SameKept r y)

include deep

theorem query_kept :
    query r ((Element.mk name attrs children).keptAs r .statement) = query r ⟨name, attrs, children⟩ := by
  rw [keptAs, query, query, Registry.childPlan]
  cases hk : r.statements.find? name with
  | none => rfl
  | some kind =>
    simp only [Option.map_some, Option.getD_some]
    cases kind with
    | select =>
      have items := sections_kept deep [.fields, .sources, .filter, .groupBy, .having, .orderBy]
      simp only [List.forall_mem_cons] at items
      simp only [StatementKind.childPlan, items]
      rfl
    | insert =>
      have columns : sectionItems r .columns (keptChildren r StatementKind.insert.childPlan children)
          = sectionItems r .columns children := sectionItems_kept deep rfl
      have values : sectionItems r .values (keptChildren r StatementKind.insert.childPlan children)
          = sectionItems r .values children := sectionItems_kept deep rfl
      have source : sourceOf r (keptChildren r StatementKind.insert.childPlan children) = sourceOf r children :=
        sourceOf_kept deep rfl
      simp only [columns, values, source]
      rfl
    | update =>
      have items := sections_kept deep [.assignments, .filter]
      simp only [List.forall_mem_cons] at items
      simp only [StatementKind.childPlan, items]
      rfl
    | delete =>
      have items := sections_kept deep [.filter]
      simp only [List.forall_mem_cons] at items
      simp only [StatementKind.childPlan, items]
      rfl
    | exec =>
      have returns : returnsOf r (keptChildren r StatementKind.exec.childPlan children) = returnsOf r children :=
        returnsOf_kept deep rfl
      have args : argsOf r (keptChildren r StatementKind.exec.childPlan children) = argsOf r children :=
        argsOf_kept deep rfl
      simp only [returns, args]
      rfl
    | script => simp only [StatementKind.childPlan, queries_kept direct]
    | createTable =>
      simp only [StatementKind.childPlan, columns_kept]
      rfl
    | dropTable => rfl

end

/-- **Reading an element is reading what is kept of it**, by induction on the element: a container is read for the
clauses or the statement inside it, which stand two levels further down. -/
theorem kept_eq (r : Registry) (e : Element) : SameKept r e := by
  induction e using Element.deepInduction with
  | node name attrs children ih =>
    have direct : ∀ x ∈ children, SameKept r x := fun x hx => (ih x hx).1
    exact ⟨clause_kept direct, query_kept direct fun x hx => (ih x hx).2⟩

end Decoding

end SqlTree
