/-
What is read of the children of an element.

An element is read for a clause, for a statement or for a column. `childPlan` says what is then read of its children:
nothing, all of them, or the first one of each name that is looked for.

- `Decoding.plan_fits`: the clauses or the select read from all children are what stands right below the clause, which
  is of the sort that was planned.
- `Decoding.sectionItems_eq_first` and the lemmas behind it: a container is the first element of its name.
-/
import SqlTree.Proofs.Clause.Operands
import SqlTree.Proofs.Document.Outcome
import SqlTree.Proofs.Statement.Recordable

namespace SqlTree

inductive Reading where
  | clause
  | statement
  | column
  deriving DecidableEq

/-- what is read of the children of an element -/
inductive ChildPlan where
  | nothing
  | all (how : Reading)
  /-- the children of the first element of each name -/
  | firsts (containers : Keyed Reading)

def ClauseKind.childPlan : ClauseKind → ChildPlan
  | .field | .allFields | .constant | .param | .builtin | .table => .nothing
  | .anyRow | .subQuery => .all .statement
  | _ => .all .clause

/-- the containers of sections, which hold clauses -/
def sectionContainers (kinds : List SectionKind) : Keyed Reading := kinds.map fun k => (k.name, .clause)

def StatementKind.childPlan : StatementKind → ChildPlan
  | .select => .firsts (sectionContainers [.fields, .sources, .filter, .groupBy, .having, .orderBy])
  | .insert => .firsts (sectionContainers [.columns, .values] ++ [("source", .statement)])
  | .update => .firsts (sectionContainers [.assignments, .filter])
  | .delete => .firsts (sectionContainers [.filter])
  | .exec => .firsts [("returns", .clause), ("args", .clause)]
  | .script => .all .statement
  | .createTable => .all .column
  | .dropTable => .nothing

/-- what is read of the children of an element of a name -/
def Registry.childPlan (r : Registry) (name : String) : Reading → ChildPlan
  | .clause => ((r.clauses.find? name).map ClauseKind.childPlan).getD .nothing
  | .statement => ((r.statements.find? name).map StatementKind.childPlan).getD .nothing
  | .column => .nothing

theorem Registry.childPlan_clause {r : Registry} {name : String} {kind : ClauseKind}
    (h : r.clauses.find? name = some kind) :
    r.childPlan name .clause = kind.childPlan := by
  rw [childPlan, h]
  rfl

theorem Registry.childPlan_statement {r : Registry} {name : String} {kind : StatementKind}
    (h : r.statements.find? name = some kind) : r.childPlan name .statement = kind.childPlan := by
  rw [childPlan, h]
  rfl

namespace Element

def first? (name : String) (es : List Element) : Option Element := es.find? (·.name == name)

theorem first?_cons_self (name : String) (attrs : Keyed String) (children es : List Element) :
    first? name (⟨name, attrs, children⟩ :: es) = some ⟨name, attrs, children⟩ :=
  List.find?_cons_of_pos (by simp)

theorem first?_cons_of_ne {e : Element} {name : String} (h : e.name ≠ name) (es : List Element) :
    first? name (e :: es) = first? name es :=
  List.find?_cons_of_neg (by simp [h])

/-- What holds of an element if it holds of its children and of theirs, holds of every element. -/
theorem deepInduction {P : Element → Prop}
    (node : ∀ name attrs children, (∀ x ∈ children, P x ∧ ∀ y ∈ x.children, P y) → P ⟨name, attrs, children⟩)
    (e : Element) :
    P e := by
  have both : P e ∧ ∀ x ∈ e.children, P x := by
    induction e using Element.induction with
    | node name attrs children ih => exact ⟨node name attrs children ih, fun x hx => (ih x hx).1⟩
  exact both.1

end Element

/-! ## Clauses and their children -/

/-- a clause of a sort, with what stands right below it and operands that a reader takes -/
structure Clause.Node (c : Clause) (sort : ClauseKind) (below : List Clause) (inner : Option Select) : Prop where
  kind : c.kind = sort
  operands : c.operands = below
  query : c.query? = inner
  readable : c.OperandsReadable

/-- a plan that makes a clause of a sort and uses the children of an element as those of that sort are read: all of `n`
clauses become the operands, or the select becomes the query -/
def ClausePlan.Fits (kind : ClauseKind) (n : Nat) : ClausePlan → Prop
  | .complete c => kind.childPlan = .nothing ∧ c.Node kind [] none
  | .ofClauses build =>
    kind.childPlan = .all .clause ∧ ∀ cs c, cs.length = n → build cs = .ok c → c.Node kind cs none
  | .ofSelect build => kind.childPlan = .all .statement ∧ ∀ s, (build s).Node kind [] (some s)

namespace Decoding

theorem bind_eq_ok {α β : Type} {r : Result α} {f : α → Result β} {b : β} (h : (do let a ← r; f a) = .ok b) :
    ∃ a, r = .ok a ∧ f a = .ok b := by
  cases r with
  | error e => cases h
  | ok a => exact ⟨a, rfl, h⟩

variable {e : Element} {kind : ClauseKind} {p : ClausePlan}

theorem fits_one {build : Clause → Result Clause} (h : fromOne e build = .ok p) (hk : kind.childPlan = .all .clause)
    (hb : ∀ x c, build x = .ok c → c.Node kind [x] none) : p.Fits kind e.children.length := by
  obtain ⟨_, -, h⟩ := bind_eq_ok h
  cases h
  refine ⟨hk, fun cs c _ hc => ?_⟩
  rcases cs with _ | ⟨x, _ | ⟨y, rest⟩⟩
  · cases hc
  · exact hb x c hc
  · cases hc

theorem fits_two {build : Clause → Clause → Result Clause} (h : fromTwo e build = .ok p)
    (hk : kind.childPlan = .all .clause)
    (hb : ∀ x y c, build x y = .ok c → c.Node kind [x, y] none) : p.Fits kind e.children.length := by
  obtain ⟨_, -, h⟩ := bind_eq_ok h
  cases h
  refine ⟨hk, fun cs c _ hc => ?_⟩
  rcases cs with _ | ⟨x, _ | ⟨y, _ | ⟨z, rest⟩⟩⟩
  · cases hc
  · cases hc
  · exact hb x y c hc
  · cases hc

theorem fits_three {build : Clause → Clause → Clause → Clause} (h : fromThree e build = .ok p)
    (hk : kind.childPlan = .all .clause) (hb : ∀ x y z, (build x y z).Node kind [x, y, z] none) :
    p.Fits kind e.children.length := by
  obtain ⟨_, -, h⟩ := bind_eq_ok h
  cases h
  refine ⟨hk, fun cs c _ hc => ?_⟩
  rcases cs with _ | ⟨x, _ | ⟨y, _ | ⟨z, _ | ⟨w, rest⟩⟩⟩⟩
  · cases hc
  · cases hc
  · cases hc
  · cases hc
    exact hb x y z
  · cases hc

theorem fits_any {build : List Clause → Clause} {n : Nat} (hk : kind.childPlan = .all .clause)
    (hb : ∀ cs, (build cs).Node kind cs none) : (ClausePlan.ofClauses fun cs => .ok (build cs)).Fits kind n := by
  refine ⟨hk, ?_⟩
  rintro cs _ - ⟨⟩
  exact hb cs

theorem fits_select {build : Select → Clause} (h : fromSelect e build = .ok p) (hk : kind.childPlan = .all .statement)
    (hb : ∀ s, (build s).Node kind [] (some s)) : p.Fits kind e.children.length := by
  obtain ⟨_, -, h⟩ := bind_eq_ok h
  cases h
  exact ⟨hk, hb⟩

theorem requirePredicate_eq_ok {c : Clause} (h : requirePredicate e c = .ok ()) : c.isPredicate := by
  unfold requirePredicate at h
  split at h
  · assumption
  · cases h

theorem logic_fits (h : plan e .logic = .ok p) : p.Fits .logic e.children.length := by
  obtain ⟨_, -, h⟩ := bind_eq_ok h
  refine fits_two h rfl fun x y c hc => ?_
  obtain ⟨_, hx, hc⟩ := bind_eq_ok hc
  obtain ⟨_, hy, hc⟩ := bind_eq_ok hc
  cases hc
  exact ⟨rfl, rfl, rfl, requirePredicate_eq_ok hx, requirePredicate_eq_ok hy⟩

theorem aliased_fits (h : plan e .aliased = .ok p) : p.Fits .aliased e.children.length := by
  obtain ⟨_, -, h⟩ := bind_eq_ok h
  refine fits_one h rfl fun x c hc => ?_
  split at hc
  · cases hc
    exact ⟨rfl, rfl, rfl, ‹_›⟩
  · cases hc

theorem inList_fits (h : plan e .inList = .ok p) : p.Fits .inList e.children.length := by
  rw [plan] at h
  split at h
  · cases h
  · cases h
    refine ⟨rfl, fun cs c _ hc => ?_⟩
    rcases cs with _ | ⟨x, xs⟩
    · cases hc
    · obtain ⟨_, -, hc⟩ := bind_eq_ok hc
      cases hc
      exact ⟨rfl, rfl, rfl, trivial⟩

-- what is built keeps the first child only, and the plan has seen that there is no second
theorem aggregate_fits (h : plan e .aggregate = .ok p) : p.Fits .aggregate e.children.length := by
  obtain ⟨fn, -, h⟩ := bind_eq_ok h
  dsimp only at h
  split at h
  · cases h
  · rename_i few
    cases h
    refine ⟨rfl, fun cs c hn hc => ?_⟩
    obtain ⟨_, -, hc⟩ := bind_eq_ok hc
    cases hc
    rcases cs with _ | ⟨x, _ | ⟨y, rest⟩⟩
    · exact ⟨rfl, rfl, rfl, trivial⟩
    · exact ⟨rfl, rfl, rfl, trivial⟩
    · simp only [List.length_cons] at hn
      omega

/-- **What a plan can be**, sort by sort: it makes a clause of that sort above what the children are. -/
theorem plan_fits (h : plan e kind = .ok p) : p.Fits kind e.children.length := by
  cases kind with
  | field | constant | builtin | table =>
    obtain ⟨_, -, h⟩ := bind_eq_ok h
    cases h
    exact ⟨rfl, rfl, rfl, rfl, trivial⟩
  | allFields =>
    cases h
    exact ⟨rfl, rfl, rfl, rfl, trivial⟩
  | param => cases h
  | not =>
    refine fits_one h rfl ?_
    rintro x _ ⟨⟩
    exact ⟨rfl, rfl, rfl, trivial⟩
  | isNull =>
    refine fits_one h rfl fun x c hc => ?_
    obtain ⟨_, -, hc⟩ := bind_eq_ok hc
    cases hc
    exact ⟨rfl, rfl, rfl, trivial⟩
  | cast | order =>
    obtain ⟨_, -, h⟩ := bind_eq_ok h
    refine fits_one h rfl ?_
    rintro x _ ⟨⟩
    exact ⟨rfl, rfl, rfl, trivial⟩
  | assign =>
    refine fits_two h rfl ?_
    rintro x y _ ⟨⟩
    exact ⟨rfl, rfl, rfl, trivial⟩
  | compare | «calc» | join =>
    obtain ⟨_, -, h⟩ := bind_eq_ok h
    refine fits_two h rfl ?_
    rintro x y _ ⟨⟩
    exact ⟨rfl, rfl, rfl, trivial⟩
  | between => exact fits_three h rfl fun x y z => ⟨rfl, rfl, rfl, trivial⟩
  | function =>
    obtain ⟨_, -, h⟩ := bind_eq_ok h
    cases h
    exact fits_any rfl fun cs => ⟨rfl, rfl, rfl, trivial⟩
  | concat =>
    cases h
    exact fits_any rfl fun cs => ⟨rfl, rfl, rfl, trivial⟩
  | anyRow | subQuery => exact fits_select h rfl fun s => ⟨rfl, rfl, rfl, trivial⟩
  | logic => exact logic_fits h
  | aliased => exact aliased_fits h
  | inList => exact inList_fits h
  | aggregate => exact aggregate_fits h

/-- A clause is read as its plan says, parameters apart. -/
theorem clause_eq_planned {r : Registry} {name : String} {attrs : Keyed String} {children : List Element}
    {kind : ClauseKind} (hk : r.clauses.find? name = some kind) (hp : kind ≠ .param) :
    clause r ⟨name, attrs, children⟩ = (do
      match ← ofResult (plan ⟨name, attrs, children⟩ kind) with
      | .complete c => return c
      | .ofClauses build => do
        let cs ← clauses r children
        ofResult (build cs)
      | .ofSelect build =>
        match children with
        | [child] => do
          let q ← query r child
          return build (← ofResult (asSelect child q))
        | _ => ofResult (Element.fail ⟨name, attrs, children⟩ (.childCount 1 children.length))) := by
  rw [clause, hk]
  cases kind <;> first | rfl | exact absurd rfl hp

end Decoding

/-! ## Containers are looked for by name -/

namespace Decoding

open Element (first?)

variable {r : Registry}

theorem sectionItems_eq_first (kind : SectionKind) (es : List Element) :
    sectionItems r kind es = match first? kind.name es with
      | none => return []
      | some e => do return (← filled r (.empty kind) e.children).items := by
  induction es with
  | nil => rw [sectionItems]; rfl
  | cons e es ih =>
    obtain ⟨name, attrs, children⟩ := e
    rw [sectionItems]
    by_cases hn : name = kind.name
    · subst hn
      rw [if_pos rfl, Element.first?_cons_self]
    · rw [if_neg hn, Element.first?_cons_of_ne hn, ih]

theorem sourceOf_eq_first (es : List Element) :
    sourceOf r es = match first? "source" es with
      | none => return none
      | some e =>
        match e.children with
        | [child] => do
          let q ← query r child
          return some (← ofResult (asSelect child q))
        | _ => ofResult (e.fail (.childCount 1 e.children.length)) := by
  induction es with
  | nil => rw [sourceOf]; rfl
  | cons e es ih =>
    obtain ⟨name, attrs, children⟩ := e
    rw [sourceOf.eq_def]
    dsimp only
    by_cases hn : name = "source"
    · subst hn
      rw [if_pos rfl]
      rcases children with _ | ⟨child, _ | _⟩ <;> rfl
    · rw [if_neg hn, Element.first?_cons_of_ne hn, ih]

theorem returnsOf_eq_first (es : List Element) :
    returnsOf r es = match first? "returns" es with
      | none => return none
      | some e =>
        match e.children with
        | [child] => do
          match ← clause r child with
          | .param p => return some p
          | c => ofResult (e.fail (.notParam c.kind))
        | _ => ofResult (e.fail (.childCount 1 e.children.length)) := by
  induction es with
  | nil => rw [returnsOf]; rfl
  | cons e es ih =>
    obtain ⟨name, attrs, children⟩ := e
    rw [returnsOf.eq_def]
    dsimp only
    by_cases hn : name = "returns"
    · subst hn
      rw [if_pos rfl]
      rcases children with _ | ⟨child, _ | _⟩ <;> rfl
    · rw [if_neg hn, Element.first?_cons_of_ne hn, ih]

theorem argsOf_eq_first (es : List Element) :
    argsOf r es = match first? "args" es with
      | none => return []
      | some e => clauses r e.children := by
  induction es with
  | nil => rw [argsOf]; rfl
  | cons e es ih =>
    obtain ⟨name, attrs, children⟩ := e
    rw [argsOf]
    by_cases hn : name = "args"
    · subst hn
      rw [if_pos rfl, Element.first?_cons_self]
    · rw [if_neg hn, Element.first?_cons_of_ne hn, ih]

end Decoding

end SqlTree
