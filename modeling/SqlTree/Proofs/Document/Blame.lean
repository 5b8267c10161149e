/-
What an element of a document is blamed for.

A document that cannot be read is reported as a fault of one of its elements. `Element.Shows` says what there is to
see at an element that has a fault: the attribute that is missing or has no meaning, the number of its children, or
what a child was read as.

- `Blamed`: a result of a kind, or a fault that one of the elements in question shows.
- `Decoding.plan_blamed`: what a clause is made of is read from its element, or the element is blamed.
-/
import SqlTree.Proofs.Document.Reading

namespace SqlTree

namespace Element

/-- an element, or one that stands anywhere inside it -/
inductive Inside (x : Element) : Element → Prop
  | self : Inside x x
  | child {e c : Element} (hc : c ∈ e.children) (inside : Inside x c) : Inside x e

/-- an element that is read as a clause, whatever parameters are known by then -/
def GivesClause (r : Registry) (e : Element) (c : Clause) : Prop := ∃ k k', (Decoding.clause r e).run k = .ok (c, k')

def GivesQuery (r : Registry) (e : Element) (q : Query) : Prop := ∃ k k', (Decoding.query r e).run k = .ok (q, k')

/-- a fault that can be seen at an element -/
def Shows (r : Registry) (e : Element) : DocumentFault → Prop
  | .missingAttribute key => e.attr? key = none
  | .malformed key value => e.attr? key = some value
  | .childCount expected found => e.children.length = found ∧ found ≠ expected
  | .unknownStatement => r.statements.find? e.name = none
  | .unknownClause => r.clauses.find? e.name = none
  | .notSelect found => found ≠ .select ∧ ∃ q, e.GivesQuery r q ∧ q.kind = found
  | .notParam found => found ≠ .param ∧ ∃ x c, e.children = [x] ∧ x.GivesClause r c ∧ c.kind = found
  | .undefinedReference ref => e.attr? "ref" = some ref ∧ e.attr? "kind" = none ∧ e.attr? "deferred" = none
  | .missingSubject => e.children = []
  | .severalArguments => 1 < e.children.length
  | .operandNotPredicate operand => ∃ x ∈ e.children, ∃ c, x.GivesClause r c ∧ c.kind = operand ∧ ¬ c.isPredicate
  | .incompleteRowLimit =>
    (e.attr? "offset").isSome ≠ (e.attr? "count").isSome ∨ (e.attr? "top").isSome ∧ (e.attr? "offset").isSome
  | .columnExpected => e.name ≠ "column"
  | .unknownDataType _ => False
  -- a section refuses the element, or the element names a child that takes no name
  | .misbuilt fault => (∃ c, e.GivesClause r c ∧ ∃ s : Section, s.apply (.push c) = .error (.construction fault))
    ∨ ∃ x ∈ e.children, ∃ c name, x.GivesClause r c ∧ e.attr? "alias" = some name ∧ ¬ c.isAliasable
      ∧ fault = .notAliasable c.kind name
  | .incomplete fault =>
    match r.statements.find? e.name with
    | some .insert => ∃ i : Insert, i.check = .error (.construction fault)
    | some .update => ∃ u : Update, u.check = .error (.construction fault)
    | some .createTable => ∃ t : CreateTable, t.check = .error (.construction fault)
    | _ => False

end Element

/-- a result of a kind, or a fault that one of these elements shows -/
inductive Blamed (r : Registry) (D : Element → Prop) {α : Type} (P : α → Prop) : Result α → Prop
  | ok {a : α} (h : P a) : Blamed r D P (.ok a)
  | error {x : Element} {fault : DocumentFault} (inside : D x) (shown : x.Shows r fault) :
    Blamed r D P (.error (.document x.name fault))

variable {r : Registry} {D D' : Element → Prop} {α β : Type} {P P' : α → Prop} {Q : β → Prop}

namespace Blamed

theorem pure {a : α} (h : P a) : Blamed r D P (Pure.pure a) := .ok h

theorem fail {e : Element} {fault : DocumentFault} (inside : D e) (shown : e.Shows r fault) :
    Blamed r D P (e.fail fault) := .error inside shown

theorem mono {res : Result α} (h : Blamed r D P res) (imp : ∀ a, P a → P' a) : Blamed r D P' res := by
  cases h with
  | ok h => exact .ok (imp _ h)
  | error inside shown => exact .error inside shown

/-- Elements among others may be blamed among the others. -/
theorem widen {res : Result α} (h : Blamed r D P res) (sub : ∀ x, D x → D' x) : Blamed r D' P res := by
  cases h with
  | ok h => exact .ok h
  | error inside shown => exact .error (sub _ inside) shown

theorem bind {res : Result α} {f : α → Result β} (h : Blamed r D P res) (hf : ∀ a, P a → Blamed r D Q (f a)) :
    Blamed r D Q (res >>= f) := by
  cases h with
  | ok h => exact hf _ h
  | error inside shown => exact .error inside shown

theorem seq {res : Result α} {f : α → Result β} (h : Blamed r D P res) (hf : ∀ a, Blamed r D Q (f a)) :
    Blamed r D Q (res >>= f) := h.bind fun a _ => hf a

theorem next {res : Result Unit} {f : Result β} (h : Blamed r D (fun _ => True) res) (hf : Blamed r D Q f) :
    Blamed r D Q (do res; f) := h.seq fun _ => hf

end Blamed

/-! ## Attributes -/

namespace Element

variable {e : Element} (here : D e)

include here

theorem require_blamed (key : String) : Blamed r D (fun v => e.attr? key = some v) (e.require key) := by
  rw [require]
  cases h : e.attr? key with
  | none => exact .fail here h
  | some v => exact .ok rfl

theorem flag_blamed (key : String) : Blamed r D (fun _ => True) (e.flag key) := by
  rw [flag]
  split
  · exact .ok trivial
  · exact .ok trivial
  · exact .ok trivial
  · exact .fail here ‹_›

theorem meaning_blamed {key raw : String} (h : e.attr? key = some raw) (read : String → Option α) :
    Blamed r D (fun _ => True) (e.meaning key raw read) := by
  rw [meaning]
  cases read raw with
  | none => exact .fail here h
  | some v => exact .ok trivial

theorem required_blamed (key : String) (read : String → Option α) : Blamed r D (fun _ => True) (e.required key read) :=
  (require_blamed here key).bind fun _ h => meaning_blamed here h read

theorem allowed_blamed (key : String) (read : String → Option α) :
    Blamed r D (fun a => a.isSome = (e.attr? key).isSome) (e.allowed key read) := by
  rw [allowed]
  cases h : e.attr? key with
  | none => exact .ok rfl
  | some raw =>
    simp only [meaning]
    cases read raw with
    | none => exact .error here h
    | some v => exact .ok rfl

theorem requireChildren_blamed (n : Nat) : Blamed r D (fun _ => e.children.length = n) (e.requireChildren n) := by
  rw [requireChildren]
  split
  · exact .ok ‹_›
  · exact .fail here ⟨rfl, ‹_›⟩

theorem value_blamed : Blamed r D (fun _ => True) e.value := by
  refine (require_blamed here "kind").bind fun kind hk => ?_
  split
  · exact .ok trivial
  · refine (require_blamed here "value").bind fun raw hv => ?_
    split
    · exact meaning_blamed here hv _
    · exact .fail here hk

end Element

/-! ## What stands in the attributes of one element -/

namespace Decoding

open Element

variable {e : Element} (here : D e)

include here

theorem tableOf_blamed : Blamed r D (fun _ => True) (tableOf e) := (require_blamed here _).seq fun _ => .pure trivial

theorem typeOf_blamed : Blamed r D (fun _ => True) (typeOf e) := required_blamed here _ _

theorem describedParam_blamed (id : Nat) : Blamed r D (fun _ => True) (describedParam e id) := by
  refine (allowed_blamed here _ _).seq fun direction => (flag_blamed here _).seq fun deferred => ?_
  cases deferred with
  | true => exact (allowed_blamed here _ _).seq fun _ => .pure trivial
  | false => exact (value_blamed here).seq fun _ => (allowed_blamed here _ _).seq fun _ => .pure trivial

theorem builtinOf_blamed : Blamed r D (fun _ => True) (builtinOf e) := by
  refine (require_blamed here "fn").bind fun fn hfn => ?_
  split
  · exact .ok trivial
  · exact .ok trivial
  · exact .ok trivial
  · exact (require_blamed here _).seq fun _ => .pure trivial
  · exact .fail here hfn

/-- A row limit is read, or it is told by halves or twice. -/
theorem limitOf_blamed : Blamed r D (fun _ => True) (limitOf e) := by
  refine (allowed_blamed here "top" _).bind fun top ht => (allowed_blamed here "offset" _).bind fun offset ho => ?_
  refine (allowed_blamed here "count" _).bind fun count hc => ?_
  rcases top with _ | _ <;> rcases offset with _ | _ <;> rcases count with _ | _
  · exact .ok trivial
  · exact .fail here (.inl (by simp [← ho, ← hc]))
  · exact .fail here (.inl (by simp [← ho, ← hc]))
  · exact .ok trivial
  · exact .ok trivial
  · exact .fail here (.inl (by simp [← ho, ← hc]))
  · exact .fail here (.inl (by simp [← ho, ← hc]))
  · exact .fail here (.inr ⟨ht.symm, ho.symm⟩)

theorem nullableOf_blamed : Blamed r D (fun _ => True) (nullableOf e) := by
  rw [nullableOf]
  split
  · exact .ok trivial
  · exact .ok trivial
  · exact .ok trivial
  · exact .fail here ‹_›

theorem columnDef_blamed : Blamed r D (fun _ => True) (columnDef e) := by
  rw [columnDef]
  split
  · exact .fail here ‹_›
  · refine (typeOf_blamed here).seq fun _ => (nullableOf_blamed here).seq fun _ =>
      (require_blamed here _).seq fun _ => ?_
    exact (flag_blamed here _).seq fun _ => .pure trivial

end Decoding

/-! ## Plans of clauses -/

/-- a plan that makes a clause of what the children are read as, or has the element to blame -/
def ClausePlan.Builds (r : Registry) (D : Element → Prop) (e : Element) : ClausePlan → Prop
  | .ofClauses build => ∀ cs, List.Forall₂ (Element.GivesClause r) e.children cs → Blamed r D (fun _ => True) (build cs)
  | .complete _ | .ofSelect _ => True

namespace Decoding

open Element

variable {e : Element} (here : D e)

include here

theorem fromOne_blamed {build : Clause → Result Clause}
    (hb : ∀ x c, e.children = [x] → x.GivesClause r c → Blamed r D (fun _ => True) (build c)) :
    Blamed r D (ClausePlan.Builds r D e) (fromOne e build) := by
  refine (requireChildren_blamed here 1).bind fun _ one => .pure fun cs hcs => ?_
  obtain ⟨x, hx⟩ := List.length_eq_one_iff.1 one
  rw [hx] at hcs
  obtain ⟨c, _, gives, rest, rfl⟩ := List.forall₂_cons_left_iff.1 hcs
  obtain rfl := List.forall₂_nil_left_iff.1 rest
  exact hb x c hx gives

theorem fromTwo_blamed {build : Clause → Clause → Result Clause}
    (hb : ∀ x y c c', e.children = [x, y] → x.GivesClause r c → y.GivesClause r c' →
      Blamed r D (fun _ => True) (build c c')) : Blamed r D (ClausePlan.Builds r D e) (fromTwo e build) := by
  refine (requireChildren_blamed here 2).bind fun _ two => .pure fun cs hcs => ?_
  obtain ⟨x, y, hxy⟩ := List.length_eq_two.1 two
  rw [hxy] at hcs
  obtain ⟨c, _, gives, rest, rfl⟩ := List.forall₂_cons_left_iff.1 hcs
  obtain ⟨c', _, gives', none, rfl⟩ := List.forall₂_cons_left_iff.1 rest
  obtain rfl := List.forall₂_nil_left_iff.1 none
  exact hb x y c c' hxy gives gives'

theorem fromThree_blamed (build : Clause → Clause → Clause → Clause) :
    Blamed r D (ClausePlan.Builds r D e) (fromThree e build) := by
  refine (requireChildren_blamed here 3).bind fun _ three => .pure fun cs hcs => ?_
  obtain ⟨c, c', c'', rfl⟩ := List.length_eq_three.1 (hcs.length_eq.symm.trans three)
  exact .ok trivial

theorem fromSelect_blamed (build : Select → Clause) : Blamed r D (ClausePlan.Builds r D e) (fromSelect e build) :=
  (requireChildren_blamed here 1).seq fun _ => .pure trivial

theorem requirePredicate_blamed {x : Element} {c : Clause} (hx : x ∈ e.children) (gives : x.GivesClause r c) :
    Blamed r D (fun _ => True) (requirePredicate e c) := by
  rw [requirePredicate]
  split
  · exact .ok trivial
  · exact .fail here ⟨x, hx, c, gives, rfl, ‹_›⟩

/-- **What a clause is made of is read, or its element is blamed**, sort by sort. -/
theorem plan_blamed {kind : ClauseKind} (hp : kind ≠ .param) : Blamed r D (ClausePlan.Builds r D e) (plan e kind) := by
  cases kind with
  | param => exact absurd rfl hp
  | field => exact (require_blamed here _).seq fun _ => .pure trivial
  | allFields => exact .pure trivial
  | constant => exact (value_blamed here).seq fun _ => .pure trivial
  | builtin => exact (builtinOf_blamed here).seq fun _ => .pure trivial
  | table => exact (tableOf_blamed here).seq fun _ => .pure trivial
  | compare | «calc» | join =>
    exact (required_blamed here _ _).seq fun _ => fromTwo_blamed here fun _ _ _ _ _ _ _ => .pure trivial
  | assign => exact fromTwo_blamed here fun _ _ _ _ _ _ _ => .pure trivial
  | logic =>
    refine (required_blamed here _ _).seq fun op => fromTwo_blamed here fun x y c c' hxy gives gives' => ?_
    have left := requirePredicate_blamed here (hxy ▸ List.mem_cons_self) gives
    have right := requirePredicate_blamed here (hxy ▸ List.mem_cons_of_mem x List.mem_cons_self) gives'
    exact left.next (right.next (.pure trivial))
  | isNull => exact fromOne_blamed here fun _ _ _ _ => (flag_blamed here _).seq fun _ => .pure trivial
  | not => exact fromOne_blamed here fun _ _ _ _ => .pure trivial
  | cast => exact (typeOf_blamed here).seq fun _ => fromOne_blamed here fun _ _ _ _ => .pure trivial
  | order => exact (allowed_blamed here _ _).seq fun _ => fromOne_blamed here fun _ _ _ _ => .pure trivial
  | aliased =>
    refine (require_blamed here "alias").bind fun name hname => fromOne_blamed here fun x c hx gives => ?_
    split
    · exact .pure trivial
    · exact .fail here (.inr ⟨x, hx ▸ List.mem_cons_self, c, name, gives, hname, ‹_›, rfl⟩)
  | between => exact fromThree_blamed here _
  | anyRow | subQuery => exact fromSelect_blamed here _
  | inList =>
    rw [plan]
    rcases hc : e.children with _ | ⟨x, xs⟩
    · exact .fail here hc
    · refine .pure fun cs hcs => ?_
      rw [hc] at hcs
      obtain ⟨c, cs', -, -, rfl⟩ := List.forall₂_cons_left_iff.1 hcs
      exact (flag_blamed here _).seq fun _ => .pure trivial
  | aggregate =>
    refine (required_blamed here _ _).seq fun fn => ?_
    split
    · exact .fail here ‹_›
    · exact .pure fun cs _ => (flag_blamed here _).seq fun _ => .pure trivial
  | function => exact (require_blamed here _).seq fun _ => .pure fun _ _ => .pure trivial
  | concat => exact .pure fun _ _ => .pure trivial

end Decoding
end SqlTree
