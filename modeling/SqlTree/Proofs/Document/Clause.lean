/-
Clauses in documents.

A clause is written as its label, an element for its sort and its own data, around the elements of what is right below
it; it is read by its label first. So a tree survives if the labels do, by induction over operands.

- `Encoding.clause_eq`: the element of a clause is its label around its operands.
- `Clause.madeBy_plan`: what a label asks for makes the clause again from operands that are alike.
- `Decoding.clause_ofClauses` and its kin: an element is read by the plan that its name and attributes give.
-/
import SqlTree.Proofs.Document.Sharing
import SqlTree.Proofs.Statement.Recordable

namespace SqlTree

/-! ## Labels -/

/-- the element of a clause without what is below it; it says all of a clause but its operands and its query -/
def Clause.label : Clause → Element
  | .field of name => ((Encoding.element .field).withAttr "name" name).withAttr? "table" of
  | .allFields of => (Encoding.element .allFields).withAttr? "table" of
  | .constant v => (Encoding.element .constant).withValue v
  | .param _ => Encoding.element .param
  | .compare _ op _ => (Encoding.element .compare).withAttr "op" op.name
  | .isNull _ negated => (Encoding.element .isNull).withFlag "negated" negated
  | .inList _ _ negated => (Encoding.element .inList).withFlag "negated" negated
  | .between .. => Encoding.element .between
  | .anyRow _ => Encoding.element .anyRow
  | .logic _ op _ => (Encoding.element .logic).withAttr "op" op.name
  | .not _ => Encoding.element .not
  | .aggregate fn _ distinct => ((Encoding.element .aggregate).withAttr "func" fn.name).withFlag "distinct" distinct
  | .function name _ => (Encoding.element .function).withAttr "name" name
  | .builtin fn => Encoding.builtin fn
  | .concat _ => Encoding.element .concat
  | .cast _ type => (Encoding.element .cast).withAttr "type" type.tag
  | .calc _ op _ => (Encoding.element .calc).withAttr "op" op.name
  | .aliased _ name => (Encoding.element .aliased).withAttr "alias" name
  | .table ref => Encoding.withTable (Encoding.element .table) ref
  | .join kind _ _ => (Encoding.element .join).withAttr "kind" kind.name
  | .order _ direction => (Encoding.element .order).withAttr "direction" direction.name
  | .assign .. => Encoding.element .assign
  | .subQuery _ => Encoding.element .subQuery

namespace Clause

theorem label_name (c : Clause) : c.label.name = c.kind.name := by
  cases c with
  | builtin fn => cases fn <;> simp [label, Encoding.builtin, kind]
  | _ => simp [label, Encoding.element, Encoding.withTable, kind]

theorem label_children (c : Clause) : c.label.children = [] := by
  cases c with
  | builtin fn => cases fn <;> simp [label, Encoding.builtin]
  | _ => simp [label, Encoding.element, Encoding.withTable]

end Clause

/-- The element of a clause is its label around the elements of its operands. -/
theorem Encoding.clause_eq (c : Clause) (hp : c.kind ≠ .param) (hq : c.query? = none) :
    Encoding.clause c = (do
      let es ← Encoding.clauses c.operands
      return c.label.withChildren es) := by
  cases c with
  | param => exact absurd rfl hp
  | anyRow | subQuery => cases hq
  | aggregate fn arg distinct =>
    cases arg with
    | none =>
      simp only [clause, Clause.operands, Option.toList_none, clauses, pure_bind]
      rw [Element.withChildren_nil _ (Clause.label_children _)]
      rfl
    | some arg => rfl
  | field | allFields | constant | builtin | table =>
    simp only [clause, Clause.operands, clauses, pure_bind]
    rw [Element.withChildren_nil _ (Clause.label_children _)]
    rfl
  | _ => rfl

/-! ## Plans -/

namespace Decoding

variable {e : Element}

theorem tableOf_eq {t : TableRef} (hname : e.attr? "table" = some t.name) (hschema : e.attr? "schema" = t.schema) :
    tableOf e = .ok t := by
  unfold tableOf
  rw [Element.require_eq hname, hschema]
  rfl

theorem fromOne_eq (h : e.children.length = 1) (build : Clause → Result Clause) :
    ∃ f, fromOne e build = .ok (.ofClauses f) ∧ ∀ c, f [c] = build c := by
  unfold fromOne
  rw [Element.requireChildren_eq h]
  exact ⟨_, rfl, fun _ => rfl⟩

theorem fromTwo_eq (h : e.children.length = 2) (build : Clause → Clause → Result Clause) :
    ∃ f, fromTwo e build = .ok (.ofClauses f) ∧ ∀ c c', f [c, c'] = build c c' := by
  unfold fromTwo
  rw [Element.requireChildren_eq h]
  exact ⟨_, rfl, fun _ _ => rfl⟩

theorem fromThree_eq (h : e.children.length = 3) (build : Clause → Clause → Clause → Clause) :
    ∃ f, fromThree e build = .ok (.ofClauses f) ∧ ∀ c c' c'', f [c, c', c''] = .ok (build c c' c'') := by
  unfold fromThree
  rw [Element.requireChildren_eq h]
  exact ⟨_, rfl, fun _ _ _ => rfl⟩

theorem builtinOf_eq {fn : Builtin} (h : ∀ key, e.attr? key = (Encoding.builtin fn).attr? key) :
    builtinOf e = .ok fn := by
  have sequence : e.attr? "sequence" = match fn with
      | .lastId sequence => sequence
      | .nextId sequence => some sequence
      | _ => none := by
    rw [h]
    cases fn <;> simp [Encoding.builtin]
  have word : e.require "fn" = .ok fn.name := by
    refine Element.require_eq ((h _).trans ?_)
    cases fn <;> simp [Encoding.builtin]
  unfold builtinOf
  rw [word, sequence]
  cases fn with
  | nextId name =>
    have given : e.require "sequence" = .ok name := Element.require_eq sequence
    show (do return Builtin.nextId (← e.require "sequence")) = _
    rw [given]
    rfl
  | _ => rfl

end Decoding

/-- a plan that makes a clause again: the clause itself, or from operands that are alike one that is like it -/
def Clause.MadeBy (c : Clause) (r : Result ClausePlan) : Prop :=
  (r = .ok (.complete c) ∧ c.operands = [] ∧ ∀ R, c.Like (.params R) c) ∨ ∃ build, r = .ok (.ofClauses build)
    ∧ ∀ L : Likeness, ∀ cs, List.Forall₂ (Clause.Like L) c.operands cs → ∃ c', build cs = .ok c' ∧ c.Like L c'

namespace Clause

section
variable {c x y z : Clause} {e : Element}

theorem madeBy_one (ho : c.operands = [x]) (he : e.children.length = c.operands.length) {build : Clause → Result Clause}
    (h : ∀ L x', x.Like L x' → ∃ c', build x' = .ok c' ∧ c.Like L c') : c.MadeBy (Decoding.fromOne e build) := by
  obtain ⟨f, hf, hbuild⟩ := Decoding.fromOne_eq (by rw [he, ho]; rfl) build
  refine .inr ⟨f, hf, fun L cs hcs => ?_⟩
  rw [ho] at hcs
  rcases hcs with _ | ⟨hx, _ | _⟩
  rw [hbuild]
  exact h L _ hx

theorem madeBy_two (ho : c.operands = [x, y]) (he : e.children.length = c.operands.length)
    {build : Clause → Clause → Result Clause}
    (h : ∀ L x' y', x.Like L x' → y.Like L y' → ∃ c', build x' y' = .ok c' ∧ c.Like L c') :
    c.MadeBy (Decoding.fromTwo e build) := by
  obtain ⟨f, hf, hbuild⟩ := Decoding.fromTwo_eq (by rw [he, ho]; rfl) build
  refine .inr ⟨f, hf, fun L cs hcs => ?_⟩
  rw [ho] at hcs
  rcases hcs with _ | ⟨hx, _ | ⟨hy, _ | _⟩⟩
  rw [hbuild]
  exact h L _ _ hx hy

end

section
variable {c : Clause} {e : Element} (attr : ∀ key, e.attr? key = c.label.attr? key)

include attr

/-- A clause that has nothing below it is what its label says. -/
theorem madeBy_leaf (leaf : c.kind ∈ [.field, .allFields, .constant, .builtin, .table]) :
    c.MadeBy (Decoding.plan e c.kind) := by
  cases c with
  | field of name =>
    have hname : e.require "name" = .ok name := Element.require_eq ((attr _).trans (by simp [label]))
    have htable : e.attr? "table" = of := (attr _).trans (by simp [label, Encoding.element])
    rw [kind, Decoding.plan, hname, htable]
    exact .inl ⟨rfl, rfl, fun R => (NodeLike.field of name).like⟩
  | allFields of =>
    have htable : e.attr? "table" = of := (attr _).trans (by simp [label, Encoding.element])
    rw [kind, Decoding.plan, htable]
    exact .inl ⟨rfl, rfl, fun R => (NodeLike.allFields of).like⟩
  | constant v =>
    have hvalue : e.value = .ok v :=
      Element.value_eq ((attr _).trans (by simp [label])) ((attr _).trans (by simp [label, Encoding.element]))
    rw [kind, Decoding.plan, hvalue]
    exact .inl ⟨rfl, rfl, fun R => (NodeLike.constant rfl).like⟩
  | builtin fn =>
    rw [kind, Decoding.plan, Decoding.builtinOf_eq attr]
    exact .inl ⟨rfl, rfl, fun R => (NodeLike.builtin fn).like⟩
  | table ref =>
    have hname : e.attr? "table" = some ref.name := (attr _).trans (by simp [label, Encoding.withTable])
    have hschema : e.attr? "schema" = ref.schema := (attr _).trans
      (by simp [label, Encoding.withTable, Encoding.element])
    rw [kind, Decoding.plan, Decoding.tableOf_eq hname hschema]
    exact .inl ⟨rfl, rfl, fun R => (NodeLike.table ref).like⟩
  | _ => simp [kind] at leaf

variable (children : e.children.length = c.operands.length)

include children

theorem madeBy_inList {x : Clause} {xs : List Clause} {negated : Bool} (hc : c = .inList x xs negated) :
    c.MadeBy (Decoding.plan e c.kind) := by
  subst hc
  have hnegated : e.flag "negated" = .ok negated := Element.flag_eq ((attr _).trans (by simp [label, Encoding.element]))
  have filled : e.children.isEmpty = false := by
    cases hc : e.children with
    | nil =>
      rw [hc] at children
      cases children
    | cons => rfl
  rw [kind, Decoding.plan, filled]
  refine .inr ⟨_, rfl, ?_⟩
  rintro L _ (_ | @⟨_, x', _, xs', hx, hxs⟩)
  refine ⟨.inList x' xs' negated, ?_, (NodeLike.inList negated hx hxs).like⟩
  show (do return Clause.inList x' xs' (← e.flag "negated")) = _
  rw [hnegated]
  rfl

theorem madeBy_aggregate {fn : Aggregate} {arg : Option Clause} {distinct : Bool}
    (hc : c = .aggregate fn arg distinct) :
    c.MadeBy (Decoding.plan e c.kind) := by
  subst hc
  have hfn : e.required "func" Aggregate.ofName? = .ok fn :=
    Element.required_eq ((attr _).trans (by simp [label])) (Aggregate.ofName?_name fn)
  have hdistinct : e.flag "distinct" = .ok distinct :=
    Element.flag_eq ((attr _).trans (by simp [label, Encoding.element]))
  have few : ¬e.children.length > 1 := by
    rw [children]
    cases arg <;> simp [operands]
  rw [kind, Decoding.plan, hfn]
  refine .inr ⟨fun cs => do return .aggregate fn cs.head? (← e.flag "distinct"), ?_, fun L cs hcs => ?_⟩
  · show (if e.children.length > 1 then _ else _) = _
    rw [if_neg few]
    rfl
  · have same : Option.Rel (Like L) arg cs.head? := by
      cases arg with
      | none =>
        obtain rfl := List.forall₂_nil_left_iff.1 hcs
        exact .none
      | some x =>
        obtain ⟨x', _, hx, -, rfl⟩ := List.forall₂_cons_left_iff.1 hcs
        exact .some hx
    refine ⟨.aggregate fn cs.head? distinct, ?_, (NodeLike.aggregate fn distinct same).like⟩
    rw [hdistinct]
    rfl

theorem madeBy_predicate (hp : c.isPredicate) (hq : c.query? = none) (own : c.OperandsReadable) :
    c.MadeBy (Decoding.plan e c.kind) := by
  cases c with
  | anyRow => cases hq
  | inList => exact madeBy_inList attr children rfl
  | compare l op r =>
    have hop : e.required "op" Comparison.ofName? = .ok op :=
      Element.required_eq ((attr _).trans (by simp [label])) (Comparison.ofName?_name op)
    rw [kind, Decoding.plan, hop]
    exact madeBy_two rfl children fun L l' r' hl hr => ⟨_, rfl, (NodeLike.compare op hl hr).like⟩
  | logic l op r =>
    have hop : e.required "op" Connective.ofName? = .ok op :=
      Element.required_eq ((attr _).trans (by simp [label])) (Connective.ofName?_name op)
    rw [kind, Decoding.plan, hop]
    refine madeBy_two rfl children fun L l' r' hl hr => ⟨.logic l' op r', ?_, (NodeLike.logic op hl hr).like⟩
    have left : l'.isPredicate := hl.isPredicate_eq ▸ own.1
    have right : r'.isPredicate := hr.isPredicate_eq ▸ own.2
    simp only [Decoding.requirePredicate, left, right]
    rfl
  | not x =>
    rw [kind, Decoding.plan]
    exact madeBy_one rfl children fun L x' hx => ⟨_, rfl, (NodeLike.not hx).like⟩
  | isNull x negated =>
    have hnegated : e.flag "negated" = .ok negated := Element.flag_eq
      ((attr _).trans (by simp [label, Encoding.element]))
    rw [kind, Decoding.plan]
    refine madeBy_one rfl children fun L x' hx => ⟨.isNull x' negated, ?_, (NodeLike.isNull negated hx).like⟩
    rw [hnegated]
    rfl
  | between x l h =>
    obtain ⟨f, hf, hbuild⟩ := Decoding.fromThree_eq (children.trans rfl) .between
    rw [kind, Decoding.plan]
    refine .inr ⟨f, hf, ?_⟩
    rintro L _ (_ | ⟨hx, (_ | ⟨hl, (_ | ⟨hh, _ | _⟩)⟩)⟩)
    exact ⟨_, hbuild _ _ _, (NodeLike.between hx hl hh).like⟩
  | _ => cases hp

end

/-- **What a label asks for makes the clause again.** What is asked of the operands is checked besides. -/
theorem madeBy_plan {c : Clause} (hp : c.kind ≠ .param) (hq : c.query? = none) (own : c.OperandsReadable)
    {es : List Element}
    (length : es.length = c.operands.length) : c.MadeBy (Decoding.plan (c.label.withChildren es) c.kind) := by
  generalize he : c.label.withChildren es = e
  have children : e.children.length = c.operands.length := he ▸ length
  have attr : ∀ key, e.attr? key = c.label.attr? key := fun _ => he ▸ rfl
  by_cases predicate : c.isPredicate
  · exact madeBy_predicate attr children predicate hq own
  cases c with
  | param => exact absurd rfl hp
  | subQuery => cases hq
  | field | allFields | constant | builtin | table => exact madeBy_leaf attr (by simp [kind])
  | aggregate => exact madeBy_aggregate attr children rfl
  | «calc» l op r =>
    have hop : e.required "op" Arithmetic.ofName? = .ok op :=
      Element.required_eq ((attr _).trans (by simp [label])) (Arithmetic.ofName?_name op)
    rw [kind, Decoding.plan, hop]
    exact madeBy_two rfl children fun L l' r' hl hr => ⟨_, rfl, (NodeLike.calc op hl hr).like⟩
  | join kind t c =>
    have hkind : e.required "kind" JoinKind.ofName? = .ok kind :=
      Element.required_eq ((attr _).trans (by simp [label])) (JoinKind.ofName?_name kind)
    rw [Clause.kind, Decoding.plan, hkind]
    exact madeBy_two rfl children fun L t' c' ht hc => ⟨_, rfl, (NodeLike.join kind ht hc).like⟩
  | assign t v =>
    rw [kind, Decoding.plan]
    exact madeBy_two rfl children fun L t' v' ht hv => ⟨_, rfl, (NodeLike.assign ht hv).like⟩
  | cast x type =>
    have htype : Decoding.typeOf e = .ok type :=
      Element.required_eq ((attr _).trans (by simp [label])) (DataType.ofTag?_tag type)
    rw [kind, Decoding.plan, htype]
    exact madeBy_one rfl children fun L x' hx => ⟨_, rfl, (NodeLike.cast type hx).like⟩
  | aliased x name =>
    have hname : e.require "alias" = .ok name := Element.require_eq ((attr _).trans (by simp [label]))
    rw [kind, Decoding.plan, hname]
    refine madeBy_one rfl children fun L x' hx => ⟨.aliased x' name, ?_, (NodeLike.aliased name hx).like⟩
    have fits : x'.isAliasable := hx.isAliasable_eq ▸ own
    exact if_pos fits
  | order x direction =>
    have hdirection : e.allowed "direction" SortOrder.ofName? = .ok (some direction) :=
      Element.allowed_eq SortOrder.ofName?_name ((attr _).trans (by simp [label]))
    rw [kind, Decoding.plan, hdirection]
    exact madeBy_one rfl children fun L x' hx => ⟨_, rfl, (NodeLike.order direction hx).like⟩
  | function name xs =>
    have hname : e.require "name" = .ok name := Element.require_eq ((attr _).trans (by simp [label]))
    rw [kind, Decoding.plan, hname]
    exact .inr ⟨_, rfl, fun L xs' hxs => ⟨_, rfl, (NodeLike.function name hxs).like⟩⟩
  | concat xs =>
    rw [kind, Decoding.plan]
    exact .inr ⟨_, rfl, fun L xs' hxs => ⟨_, rfl, (NodeLike.concat hxs).like⟩⟩
  | _ => exact absurd rfl predicate

end Clause

/-! ## Reading by a plan -/

namespace Decoding

variable {e : Element} {kind : ClauseKind}

variable (hn : e.name = kind.name) (hp : kind ≠ .param)

include hn hp

theorem clause_complete {c : Clause} (hplan : plan e kind = .ok (.complete c)) : clause .standard e = return c := by
  obtain ⟨name, attrs, children⟩ := e
  obtain rfl : name = _ := hn
  rw [clause, Registry.standard_clause]
  cases kind <;> first | exact absurd rfl hp | (dsimp only; rw [hplan]; rfl)

theorem clause_ofClauses {build : List Clause → Result Clause} (hplan : plan e kind = .ok (.ofClauses build)) :
    clause .standard e = (do ofResult (build (← clauses .standard e.children))) := by
  obtain ⟨name, attrs, children⟩ := e
  obtain rfl : name = _ := hn
  rw [clause, Registry.standard_clause]
  cases kind <;> first | exact absurd rfl hp | (dsimp only; rw [hplan]; rfl)

theorem clause_ofSelect {build : Select → Clause} {child : Element} (hplan : plan e kind = .ok (.ofSelect build))
    (hc : e.children = [child]) : clause .standard e = (do
      let q ← query .standard child
      return build (← ofResult (asSelect child q))) := by
  obtain ⟨name, attrs, children⟩ := e
  obtain rfl : name = _ := hn
  obtain rfl : children = _ := hc
  rw [clause, Registry.standard_clause]
  cases kind <;> first | exact absurd rfl hp | (dsimp only; rw [hplan]; rfl)

end Decoding

end SqlTree
