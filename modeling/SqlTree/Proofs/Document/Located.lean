/-
A document that cannot be read is faulty where it is reported to be.

- `Constructs`: what fails for reasons of construction only. Whatever the rules of construction refuse in a document
  is turned into a fault of an element.
- `Decoding.Blames`: a reader whose result is of a kind, or which reports a fault that an element in question shows.
- `Query.ofDocument_located`: a document is read, or it is reported with a fault and the name of an
  element that shows it.
-/
import SqlTree.Proofs.Document.Blame

namespace SqlTree

/-! ## Rules of construction -/

/-- a result that is an error for reasons of construction only -/
def Constructs {α : Type} (res : Result α) : Prop := ∀ e, res = .error e → ∃ fault, e = .construction fault

namespace Constructs

variable {α β : Type}

theorem ok (a : α) : Constructs (.ok a) := fun _ h => by cases h

theorem error (fault : ConstructionFault) : Constructs (.error (.construction fault) : Result α) := by
  rintro _ ⟨⟩
  exact ⟨fault, rfl⟩

theorem bind {res : Result α} {f : α → Result β} (h : Constructs res) (hf : ∀ a, Constructs (f a)) :
    Constructs (res >>= f) := by
  cases res with
  | ok a => exact hf a
  | error e => exact fun _ he => h _ (by cases he; rfl)

theorem next {res : Result Unit} {f : Result β} (h : Constructs res) (hf : Constructs f) : Constructs (do res; f) :=
  h.bind fun _ => hf

end Constructs

namespace Clause

theorem checkRole_constructs (parent : ClauseKind) (role : Role) (c : Clause) :
    Constructs (checkRole parent role c) := by
  rw [checkRole]
  split
  · exact .ok ()
  · exact .error _

theorem checkAll_constructs {cs : List Clause} (h : ∀ c ∈ cs, Constructs c.check) : Constructs (checkAll cs) := by
  induction cs with
  | nil =>
    rw [checkAll]
    exact .ok ()
  | cons c cs ih =>
    rw [List.forall_mem_cons] at h
    rw [checkAll]
    exact h.1.next (ih h.2)

/-- The rules for operands fail for reasons of construction, by induction on the tree. -/
theorem check_constructs : (∀ c : Clause, Constructs c.check) ∧ ∀ _ : Select, True := by
  refine operandInduction (fun c operands _ => ?_) fun _ _ => trivial
  have role := checkRole_constructs
  cases c with
  | compare l _ r | assign l r =>
    rw [check]
    exact (operands l (by simp [Clause.operands])).next (operands r (by simp [Clause.operands]))
  | logic l _ r | «calc» l _ r =>
    rw [check]
    exact (role _ _ l).next ((operands l (by simp [Clause.operands])).next
      ((role _ _ r).next (operands r (by simp [Clause.operands]))))
  | not c =>
    rw [check]
    exact (role _ _ c).next (operands c (by simp [Clause.operands]))
  | isNull c | cast c | aliased c | order c =>
    rw [check]
    exact operands c (by simp [Clause.operands])
  | between c l h =>
    rw [check]
    exact (operands c (by simp [Clause.operands])).next ((operands l (by simp [Clause.operands])).next
      (operands h (by simp [Clause.operands])))
  | inList c cs =>
    rw [check]
    exact (operands c (by simp [Clause.operands])).next
      (checkAll_constructs fun x hx => operands x (by simp [Clause.operands, hx]))
  | function _ cs | concat cs =>
    rw [check]
    exact checkAll_constructs fun x hx => operands x (by simp [Clause.operands, hx])
  | aggregate fn arg =>
    cases arg with
    | none =>
      rw [check]
      exact .ok ()
    | some c =>
      rw [check]
      exact operands c (by simp [Clause.operands])
  | join _ t c =>
    rw [check]
    split
    · exact .error _
    · exact (operands t (by simp [Clause.operands])).next (operands c (by simp [Clause.operands]))
  | _ =>
    rw [check]
    exact .ok ()

end Clause

theorem Section.push_constructs (s : Section) (c : Clause) : Constructs (s.apply (.push c)) := by
  rw [apply_push]
  refine (Clause.check_constructs.1 c).next ?_
  cases s.refusal? c with
  | none => exact .ok _
  | some why => exact .error _

theorem Insert.check_constructs (i : Insert) : Constructs i.check := by
  rw [check]
  repeat' split
  all_goals first | exact .ok () | exact .error _

theorem Update.check_constructs (u : Update) : Constructs u.check := by
  rw [check]
  split
  · exact .error _
  · exact .ok ()

theorem CreateTable.check_constructs (t : CreateTable) : Constructs t.check := by
  rw [check]
  split
  · exact .error _
  · exact .ok ()

/-! ## Readers -/

variable {r : Registry} {D : Element → Prop} {α β : Type} {P P' : α → Prop} {Q : β → Prop}

namespace Decoding

open Element (GivesClause GivesQuery Inside)

section
variable {e : Element} (here : D e)

include here

/-- A section takes what an element is read as, or the element is blamed for what the section refuses. -/
theorem push_blamed {c : Clause} (gives : e.GivesClause r c) (s : Section) :
    Blamed r D (fun _ => True) (push e s c) := by
  rw [push]
  cases ha : s.apply (.push c) with
  | ok t => exact .ok trivial
  | error fault =>
    obtain ⟨fault, rfl⟩ := s.push_constructs c _ ha
    exact .fail here (.inl ⟨c, gives, s, ha⟩)

theorem checked_blamed {res : Result Unit} (constructs : Constructs res)
    (shown : ∀ fault, res = .error (.construction fault) → e.Shows r (.incomplete fault)) :
    Blamed r D (fun _ => True) (checked e res) := by
  cases hr : res with
  | ok _ => exact .ok trivial
  | error fault =>
    obtain ⟨fault, rfl⟩ := constructs _ hr
    exact .fail here (shown fault hr)

theorem asSelect_blamed {q : Query} (gives : e.GivesQuery r q) : Blamed r D (fun _ => True) (asSelect e q) := by
  cases q with
  | script members => exact .fail here ⟨nofun, _, gives, rfl⟩
  | single s =>
    cases s with
    | select s => exact .ok trivial
    | _ => exact .fail here ⟨nofun, _, gives, rfl⟩

end

/-- a reader whose result is of a kind, or which reports a fault that one of these elements shows, whatever is known -/
def Blames (r : Registry) (D : Element → Prop) (w : Decoding α) (P : α → Prop) : Prop :=
  ∀ k, Blamed r D (fun z => P z.1) (w.run k)

namespace Blames

theorem pure {a : α} (h : P a) : Blames r D (return a) P := fun _ => .ok h

theorem ofResult {res : Result α} (h : Blamed r D P res) : Blames r D (Decoding.ofResult res) P := by
  intro k
  cases h with
  | ok h => exact .ok h
  | error inside shown => exact .error inside shown

theorem fail {e : Element} {fault : DocumentFault} (inside : D e) (shown : e.Shows r fault) :
    Blames r D (Decoding.ofResult (e.fail fault)) P := ofResult (.fail inside shown)

theorem mono {w : Decoding α} (h : Blames r D w P) (imp : ∀ a, P a → P' a) : Blames r D w P' :=
  fun k => (h k).mono fun z => imp z.1

theorem widen {D' : Element → Prop} {w : Decoding α} (h : Blames r D w P) (sub : ∀ x, D x → D' x) : Blames r D' w P :=
  fun k => (h k).widen sub

theorem bind {w : Decoding α} {f : α → Decoding β} (h : Blames r D w P) (hf : ∀ a, P a → Blames r D (f a) Q) :
    Blames r D (w >>= f) Q := by
  intro k
  rw [StateT.run_bind]
  exact (h k).bind fun z hz => hf z.1 hz z.2

theorem seq {w : Decoding α} {f : α → Decoding β} (h : Blames r D w P) (hf : ∀ a, Blames r D (f a) Q) :
    Blames r D (w >>= f) Q := h.bind fun a _ => hf a

theorem result {res : Result α} {f : α → Decoding β} (h : Blamed r D P res) (hf : ∀ a, P a → Blames r D (f a) Q) :
    Blames r D (Decoding.ofResult res >>= f) Q := (ofResult h).bind hf

/-- What a reader gives is what it gives from some state on. -/
theorem given {w : Decoding α} (h : Blames r D w P) : Blames r D w fun a => ∃ k k', w.run k = .ok (a, k') := by
  intro k
  have read := h k
  cases hw : w.run k with
  | ok z => exact .ok ⟨k, z.2, hw⟩
  | error fault =>
    rw [hw] at read
    cases read with
    | error inside shown => exact .error inside shown

end Blames

/-- A parameter is read as known or as described, or its element is blamed. -/
theorem param_blames {e : Element} (here : D e) : Blames r D (param e) fun _ => True := by
  rw [param]
  refine .result (Element.require_blamed here "ref") fun ref href => ?_
  intro k
  rw [StateT.run_bind, StateT.run_get, pure_bind]
  dsimp only
  cases k.byRef.find? ref with
  | some known => exact .ok trivial
  | none =>
    dsimp only
    split
    · rename_i undefined
      rw [Bool.and_eq_true, Option.isNone_iff_eq_none, Option.isNone_iff_eq_none] at undefined
      exact .error here ⟨href, undefined⟩
    · rw [StateT.run_bind]
      refine Blamed.bind (P := fun _ => True) ?_ fun _ _ => .ok trivial
      exact Blames.ofResult (describedParam_blamed here k.nextId) k

/-! ### Clauses and what containers hold -/

/-- an element in question that is read as a clause, or blames elements in question -/
def ClauseBlames (r : Registry) (D : Element → Prop) (x : Element) : Prop :=
  D x ∧ Blames r D (clause r x) (x.GivesClause r)

def QueryBlames (r : Registry) (D : Element → Prop) (x : Element) : Prop :=
  D x ∧ Blames r D (query r x) (x.GivesQuery r)

section
variable {es : List Element} (h : ∀ x ∈ es, ClauseBlames r D x)

include h

theorem clauses_blame : Blames r D (clauses r es) (List.Forall₂ (GivesClause r) es) := by
  induction es with
  | nil =>
    rw [clauses]
    exact .pure .nil
  | cons e es ih =>
    rw [List.forall_mem_cons] at h
    rw [clauses]
    exact h.1.2.bind fun c gives => (ih h.2).bind fun cs rest => .pure (.cons gives rest)

theorem filled_blames (s : Section) : Blames r D (filled r s es) fun _ => True := by
  induction es generalizing s with
  | nil =>
    rw [filled]
    exact .pure trivial
  | cons e es ih =>
    rw [List.forall_mem_cons] at h
    rw [filled]
    exact h.1.2.bind fun c gives => .result (push_blamed h.1.1 gives s) fun t _ => ih h.2 t

end

section
variable {es : List Element} (here : ∀ x ∈ es, D x) (h : ∀ x ∈ es, ∀ y ∈ x.children, ClauseBlames r D y)

include h

theorem sectionItems_blame (kind : SectionKind) : Blames r D (sectionItems r kind es) fun _ => True := by
  rw [sectionItems_eq_first]
  cases he : Element.first? kind.name es with
  | none => exact .pure trivial
  | some e => exact (filled_blames (h e (List.mem_of_find?_eq_some he)) _).seq fun s => .pure trivial

theorem argsOf_blame : Blames r D (argsOf r es) fun _ => True := by
  rw [argsOf_eq_first]
  cases he : Element.first? "args" es with
  | none => exact .pure trivial
  | some e => exact (clauses_blame (h e (List.mem_of_find?_eq_some he))).mono fun _ _ => trivial

include here

theorem returnsOf_blame : Blames r D (returnsOf r es) fun _ => True := by
  rw [returnsOf_eq_first]
  cases he : Element.first? "returns" es with
  | none => exact .pure trivial
  | some e =>
    have member := List.mem_of_find?_eq_some he
    have read := h e member
    have inside := here e member
    obtain ⟨name, attrs, children⟩ := e
    rcases children with _ | ⟨child, _ | ⟨_, _⟩⟩
    · exact .fail inside ⟨rfl, by simp⟩
    · refine (read child List.mem_cons_self).2.bind fun c gives => ?_
      cases c with
      | param p => exact .pure trivial
      | _ => exact .fail inside ⟨nofun, child, _, rfl, gives, rfl⟩
    · exact .fail inside ⟨rfl, by simp⟩

end

theorem sourceOf_blames {es : List Element} (here : ∀ x ∈ es, D x) (h : ∀ x ∈ es, ∀ y ∈ x.children, QueryBlames r D y) :
    Blames r D (sourceOf r es) fun _ => True := by
  rw [sourceOf_eq_first]
  cases he : Element.first? "source" es with
  | none => exact .pure trivial
  | some e =>
    have member := List.mem_of_find?_eq_some he
    have read := h e member
    have inside := here e member
    obtain ⟨name, attrs, children⟩ := e
    rcases children with _ | ⟨child, _ | ⟨_, _⟩⟩
    · exact .fail inside ⟨rfl, by simp⟩
    · obtain ⟨below, read⟩ := read child List.mem_cons_self
      exact read.bind fun q gives => .result (asSelect_blamed below gives) fun s _ => .pure trivial
    · exact .fail inside ⟨rfl, by simp⟩

theorem queries_blame {es : List Element} (h : ∀ x ∈ es, QueryBlames r D x) :
    Blames r D (queries r es) fun _ => True := by
  induction es with
  | nil =>
    rw [queries]
    exact .pure trivial
  | cons e es ih =>
    rw [List.forall_mem_cons] at h
    rw [queries]
    exact h.1.2.seq fun q => (ih h.2).seq fun qs => .pure trivial

theorem columns_blamed {es : List Element} (here : ∀ x ∈ es, D x) : Blamed r D (fun _ => True) (es.mapM columnDef) := by
  induction es with
  | nil => exact .pure trivial
  | cons e es ih =>
    rw [List.forall_mem_cons] at here
    rw [List.mapM_cons]
    exact (columnDef_blamed here.1).seq fun _ => (ih here.2).seq fun _ => .pure trivial

/-! ### Elements -/

section
variable {name : String} {attrs : Keyed String} {children : List Element} (here : D ⟨name, attrs, children⟩)

include here

/-- A clause is read of what the children are read as, or one of the elements is blamed. -/
theorem clause_blames (clauses_ : ∀ x ∈ children, ClauseBlames r D x) (queries_ : ∀ x ∈ children, QueryBlames r D x) :
    Blames r D (clause r ⟨name, attrs, children⟩) fun _ => True := by
  cases hk : r.clauses.find? name with
  | none =>
    rw [clause, hk]
    exact .fail here hk
  | some kind =>
    by_cases hp : kind = .param
    · subst hp
      rw [clause, hk]
      exact (param_blames here).seq fun p => .pure trivial
    · rw [clause_eq_planned hk hp]
      refine .result (plan_blamed here hp) fun plan builds => ?_
      cases plan with
      | complete c => exact .pure trivial
      | ofClauses build => exact (clauses_blame clauses_).bind fun cs given => .ofResult (builds cs given)
      | ofSelect build =>
        rcases children with _ | ⟨child, _ | ⟨_, _⟩⟩
        · exact .fail here ⟨rfl, by simp⟩
        · obtain ⟨below, read⟩ := queries_ child List.mem_cons_self
          exact read.bind fun q gives => .result (asSelect_blamed below gives) fun s _ => .pure trivial
        · exact .fail here ⟨rfl, by simp⟩

/-- A query is read of what the children, and what containers among them hold, are read as, or one of the elements is
blamed. -/
theorem query_blames (queries_ : ∀ x ∈ children, QueryBlames r D x)
    (innerClauses : ∀ x ∈ children, ∀ y ∈ x.children, ClauseBlames r D y)
    (innerQueries : ∀ x ∈ children, ∀ y ∈ x.children, QueryBlames r D y) :
    Blames r D (query r ⟨name, attrs, children⟩) fun _ => True := by
  have below : ∀ x ∈ children, D x := fun x hx => (queries_ x hx).1
  have items := fun kind => sectionItems_blame innerClauses kind
  rw [query]
  dsimp only
  cases hk : r.statements.find? name with
  | none => exact .fail here hk
  | some kind =>
    cases kind with
    | select =>
      refine .result (limitOf_blamed here) fun limit _ => .result (Element.flag_blamed here _) fun distinct _ => ?_
      exact (items .fields).seq fun fields => (items .sources).seq fun sources => (items .filter).seq fun filter =>
        (items .groupBy).seq fun groupBy => (items .having).seq fun having => (items .orderBy).seq fun orderBy =>
          .pure trivial
    | insert =>
      refine .result (tableOf_blamed here) fun table _ => (items .columns).seq fun columns =>
        (items .values).seq fun values =>
        (sourceOf_blames below innerQueries).seq fun source => ?_
      refine .result (checked_blamed here (Insert.check_constructs _) fun fault hf => ?_) fun _ _ => .pure trivial
      simp only [Element.Shows, hk]
      exact ⟨_, hf⟩
    | update =>
      refine .result (tableOf_blamed here) fun table _ => (items .assignments).seq fun assignments =>
        (items .filter).seq fun filter => ?_
      refine .result (checked_blamed here (Update.check_constructs _) fun fault hf => ?_) fun _ _ => .pure trivial
      simp only [Element.Shows, hk]
      exact ⟨_, hf⟩
    | delete => exact .result (tableOf_blamed here) fun table _ => (items .filter).seq fun filter => .pure trivial
    | exec =>
      refine (returnsOf_blame below innerClauses).seq fun returns => (argsOf_blame innerClauses).seq fun args => ?_
      exact .result (Element.require_blamed here _) fun routine _ => .pure trivial
    | script => exact (queries_blame queries_).seq fun qs => .pure trivial
    | createTable =>
      refine .result (columns_blamed below) fun columns _ => .result (tableOf_blamed here) fun table _ =>
        .result (Element.flag_blamed here _) fun ifNotExists _ => ?_
      refine .result (checked_blamed here (CreateTable.check_constructs _) fun fault hf => ?_) fun _ _ => .pure trivial
      simp only [Element.Shows, hk]
      exact ⟨_, hf⟩
    | dropTable =>
      exact .result (tableOf_blamed here) fun table _ => .result (Element.flag_blamed here _) fun ifExists _ =>
        .pure trivial

end

/-- Elements are read for clauses and for queries, or one inside them is blamed, by induction on the element: what is
inside a child is inside the element. -/
theorem element_blames (r : Registry) (e : Element) :
    Blames r (·.Inside e) (clause r e) (e.GivesClause r) ∧ Blames r (·.Inside e) (query r e) (e.GivesQuery r) := by
  induction e using Element.deepInduction with
  | node name attrs children ih =>
    have child : ∀ x ∈ children, ∀ z, Inside z x → z.Inside ⟨name, attrs, children⟩ := fun x hx z hz => .child hx hz
    have inner : ∀ x ∈ children, ∀ y ∈ x.children, ∀ z, Inside z y → z.Inside ⟨name, attrs, children⟩ :=
      fun x hx y hy z hz => child x hx z (.child hy hz)
    have clauses_ : ∀ x ∈ children, ClauseBlames r (·.Inside ⟨name, attrs, children⟩) x :=
      fun x hx => ⟨child x hx x .self, (ih x hx).1.1.widen (child x hx)⟩
    have queries_ : ∀ x ∈ children, QueryBlames r (·.Inside ⟨name, attrs, children⟩) x :=
      fun x hx => ⟨child x hx x .self, (ih x hx).1.2.widen (child x hx)⟩
    have innerClauses : ∀ x ∈ children, ∀ y ∈ x.children, ClauseBlames r (·.Inside ⟨name, attrs, children⟩) y :=
      fun x hx y hy => ⟨inner x hx y hy y .self, ((ih x hx).2 y hy).1.widen (inner x hx y hy)⟩
    have innerQueries : ∀ x ∈ children, ∀ y ∈ x.children, QueryBlames r (·.Inside ⟨name, attrs, children⟩) y :=
      fun x hx y hy => ⟨inner x hx y hy y .self, ((ih x hx).2 y hy).2.widen (inner x hx y hy)⟩
    exact ⟨(clause_blames .self clauses_ queries_).given, (query_blames .self queries_ innerClauses innerQueries).given⟩

end Decoding

/-- **A document is read, or reported with a fault and the name of an element that shows it**: the element of the
document or one inside it, whatever the document holds. -/
theorem Query.ofDocument_located (r : Registry) (e : Element) :
    (∃ q, Query.ofDocument r e = .ok q)
      ∨ ∃ (x : Element) (fault : DocumentFault), x.Inside e ∧ x.Shows r fault
        ∧ Query.ofDocument r e = .error (.document x.name fault) := by
  have read := (Decoding.element_blames r e).2 {}
  rw [Query.ofDocument, StateT.run']
  cases hr : (Decoding.query r e).run {} with
  | ok z => exact .inl ⟨z.1, by rw [StateT.run] at hr; rw [hr]; rfl⟩
  | error fault =>
    rw [hr] at read
    cases read with
    | error inside shown => exact .inr ⟨_, _, inside, shown, by rw [StateT.run] at hr; rw [hr]; rfl⟩

end SqlTree
