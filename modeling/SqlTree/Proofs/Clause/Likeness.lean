/-
Trees of one shape.

Two trees are alike if they differ in their literals and their parameters only, and those are related. What a `Likeness`
relates them by is left open: statements that differ in the values of their parameters are alike, and so are a statement
and its copy with other identities.

- `Like.kind_eq` and its kin: what is asked of a node alone has one answer on trees that are alike.
- `Clause.NodeLike`: clauses that are alike at their roots, with any relation of what is right below them. What is alike
  is so at the roots and below (`Clause.Like.node`), and the other way round (`Clause.like_of_related`).
- `Clause.likeInduction`: what trees that are alike have in common is shown node by node.
- `Like.query_paramNames`: trees that are alike name the same parameters.
-/
import Mathlib.Data.List.Forall2
import SqlTree.Proofs.Clause.Induction
import SqlTree.Clause.Names

namespace SqlTree

/-- how the literals and the parameters of two trees are related -/
structure Likeness where
  value : Value → Value → Prop
  param : Parameter → Parameter → Prop

mutual

/-- clauses that differ in literals and parameters only -/
def Clause.Like (L : Likeness) : Clause → Clause → Prop
  | .field of name, c => c = .field of name
  | .allFields of, c => c = .allFields of
  | .constant v, c => ∃ v', c = .constant v' ∧ L.value v v'
  | .param p, c => ∃ p', c = .param p' ∧ L.param p p'
  | .compare left op right, c => ∃ left' right', c = .compare left' op right' ∧ left.Like L left' ∧ right.Like L right'
  | .isNull subject negated, c => ∃ subject', c = .isNull subject' negated ∧ subject.Like L subject'
  | .inList subject items negated, c => ∃ subject' items', c = .inList subject' items' negated
    ∧ subject.Like L subject' ∧ Clause.LikeAll L items items'
  | .between subject low high, c => ∃ subject' low' high', c = .between subject' low' high'
    ∧ subject.Like L subject' ∧ low.Like L low' ∧ high.Like L high'
  | .anyRow query, c => ∃ query', c = .anyRow query' ∧ query.Like L query'
  | .logic left op right, c => ∃ left' right', c = .logic left' op right' ∧ left.Like L left' ∧ right.Like L right'
  | .not inner, c => ∃ inner', c = .not inner' ∧ inner.Like L inner'
  | .aggregate fn arg distinct, c => ∃ arg', c = .aggregate fn arg' distinct ∧ Clause.LikeOption L arg arg'
  | .function name args, c => ∃ args', c = .function name args' ∧ Clause.LikeAll L args args'
  | .builtin fn, c => c = .builtin fn
  | .concat parts, c => ∃ parts', c = .concat parts' ∧ Clause.LikeAll L parts parts'
  | .cast subject type, c => ∃ subject', c = .cast subject' type ∧ subject.Like L subject'
  | .calc left op right, c => ∃ left' right', c = .calc left' op right' ∧ left.Like L left' ∧ right.Like L right'
  | .aliased subject name, c => ∃ subject', c = .aliased subject' name ∧ subject.Like L subject'
  | .table ref, c => c = .table ref
  | .join kind target condition, c => ∃ target' condition', c = .join kind target' condition'
    ∧ target.Like L target' ∧ condition.Like L condition'
  | .order subject direction, c => ∃ subject', c = .order subject' direction ∧ subject.Like L subject'
  | .assign target value, c => ∃ target' value', c = .assign target' value'
    ∧ target.Like L target' ∧ value.Like L value'
  | .subQuery query, c => ∃ query', c = .subQuery query' ∧ query.Like L query'

def Clause.LikeAll (L : Likeness) : List Clause → List Clause → Prop
  | [], cs => cs = []
  | c :: rest, cs => ∃ c' rest', cs = c' :: rest' ∧ c.Like L c' ∧ Clause.LikeAll L rest rest'

def Clause.LikeOption (L : Likeness) : Option Clause → Option Clause → Prop
  | none, o => o = none
  | some c, o => ∃ c', o = some c' ∧ c.Like L c'

/-- selects that differ in literals and parameters only -/
def Select.Like (L : Likeness) : Select → Select → Prop
  | .mk distinct limit fields sources filter groupBy having orderBy, s =>
    ∃ fields' sources' filter' groupBy' having' orderBy',
      s = .mk distinct limit fields' sources' filter' groupBy' having' orderBy'
        ∧ Clause.LikeAll L fields fields' ∧ Clause.LikeAll L sources sources' ∧ Clause.LikeOption L filter filter'
        ∧ Clause.LikeAll L groupBy groupBy' ∧ Clause.LikeOption L having having' ∧ Clause.LikeAll L orderBy orderBy'

end

/-- results of a call that are received alike, or not at all -/
def Likeness.receiver (L : Likeness) : Option Parameter → Option Parameter → Prop
  | none, o => o = none
  | some p, o => ∃ p', o = some p' ∧ L.param p p'

/-- sources of rows that are alike, or absent both -/
def Select.LikeOption (L : Likeness) : Option Select → Option Select → Prop
  | none, o => o = none
  | some s, o => ∃ s', o = some s' ∧ s.Like L s'

/-- statements that differ in literals and parameters only -/
def Statement.Like (L : Likeness) : Statement → Statement → Prop
  | .select s, q => ∃ s', q = .select s' ∧ s.Like L s'
  | .insert i, q => ∃ columns' values' source', q = .insert ⟨i.table, columns', values', source'⟩
    ∧ Clause.LikeAll L i.columns columns' ∧ Clause.LikeAll L i.values values' ∧ Select.LikeOption L i.source source'
  | .update u, q => ∃ assignments' filter', q = .update ⟨u.table, assignments', filter'⟩
    ∧ Clause.LikeAll L u.assignments assignments' ∧ Clause.LikeOption L u.filter filter'
  | .delete s, q => ∃ filter', q = .delete ⟨s.table, filter'⟩ ∧ Clause.LikeOption L s.filter filter'
  | .exec e, q => ∃ args' returns', q = .exec ⟨e.routine, args', returns'⟩
    ∧ Clause.LikeAll L e.args args' ∧ L.receiver e.returns returns'
  | .createTable t, q => q = .createTable t
  | .dropTable t, q => q = .dropTable t

/-- queries that differ in literals and parameters only -/
def Query.Like (L : Likeness) : Query → Query → Prop
  | .single s, q => ∃ s', q = .single s' ∧ s.Like L s'
  | .script members, q => ∃ members', q = .script members' ∧ List.Forall₂ (Statement.Like L) members members'

/-! ## Lists and options -/

namespace Clause

variable {L : Likeness}

theorem likeAll_iff {cs cs' : List Clause} : LikeAll L cs cs' ↔ List.Forall₂ (Like L) cs cs' := by
  induction cs generalizing cs' with
  | nil => rw [LikeAll, List.forall₂_nil_left_iff]
  | cons c cs ih =>
    rw [LikeAll, List.forall₂_cons_left_iff]
    constructor
    · rintro ⟨c', rest', rfl, hc, hrest⟩
      exact ⟨c', rest', hc, ih.1 hrest, rfl⟩
    · rintro ⟨c', rest', hc, hrest, rfl⟩
      exact ⟨c', rest', rfl, hc, ih.2 hrest⟩

theorem likeOption_iff {o o' : Option Clause} : LikeOption L o o' ↔ Option.Rel (Like L) o o' := by
  cases o with
  | none =>
    rw [LikeOption]
    constructor
    · rintro rfl
      exact .none
    · rintro ⟨⟩
      rfl
  | some c =>
    rw [LikeOption]
    constructor
    · rintro ⟨c', rfl, hc⟩
      exact .some hc
    · rintro ⟨hc⟩
      exact ⟨_, rfl, hc⟩

theorem LikeAll.isEmpty_eq {cs cs' : List Clause} (h : LikeAll L cs cs') : cs.isEmpty = cs'.isEmpty := by
  rcases likeAll_iff.1 h with _ | _
  · rfl
  · rfl

end Clause

/-! ## One node at a time -/

/-- Clauses that are alike at their roots: of one sort, with the same data and with leaves that are alike. What is right
below them is related by `R` and `Q`. -/
inductive Clause.NodeLike (L : Likeness) (R : Clause → Clause → Prop) (Q : Select → Select → Prop) :
    Clause → Clause → Prop
  | field (of : Option String) (name : String) : NodeLike L R Q (.field of name) (.field of name)
  | allFields (of : Option String) : NodeLike L R Q (.allFields of) (.allFields of)
  | constant {v v' : Value} (h : L.value v v') : NodeLike L R Q (.constant v) (.constant v')
  | param {p p' : Parameter} (h : L.param p p') : NodeLike L R Q (.param p) (.param p')
  | compare {l l' r r' : Clause} (op : Comparison) (hl : R l l') (hr : R r r') :
    NodeLike L R Q (.compare l op r) (.compare l' op r')
  | isNull {c c' : Clause} (negated : Bool) (h : R c c') : NodeLike L R Q (.isNull c negated) (.isNull c' negated)
  | inList {c c' : Clause} {cs cs' : List Clause} (negated : Bool) (h : R c c') (hs : List.Forall₂ R cs cs') :
    NodeLike L R Q (.inList c cs negated) (.inList c' cs' negated)
  | between {c c' l l' r r' : Clause} (h : R c c') (hl : R l l') (hr : R r r') :
    NodeLike L R Q (.between c l r) (.between c' l' r')
  | anyRow {s s' : Select} (h : Q s s') : NodeLike L R Q (.anyRow s) (.anyRow s')
  | logic {l l' r r' : Clause} (op : Connective) (hl : R l l') (hr : R r r') :
    NodeLike L R Q (.logic l op r) (.logic l' op r')
  | not {c c' : Clause} (h : R c c') : NodeLike L R Q (.not c) (.not c')
  | aggregate {o o' : Option Clause} (fn : Aggregate) (distinct : Bool) (h : Option.Rel R o o') :
    NodeLike L R Q (.aggregate fn o distinct) (.aggregate fn o' distinct)
  | function {cs cs' : List Clause} (name : String) (hs : List.Forall₂ R cs cs') :
    NodeLike L R Q (.function name cs) (.function name cs')
  | builtin (fn : Builtin) : NodeLike L R Q (.builtin fn) (.builtin fn)
  | concat {cs cs' : List Clause} (hs : List.Forall₂ R cs cs') : NodeLike L R Q (.concat cs) (.concat cs')
  | cast {c c' : Clause} (type : DataType) (h : R c c') : NodeLike L R Q (.cast c type) (.cast c' type)
  | «calc» {l l' r r' : Clause} (op : Arithmetic) (hl : R l l') (hr : R r r') :
    NodeLike L R Q (.calc l op r) (.calc l' op r')
  | aliased {c c' : Clause} (name : String) (h : R c c') : NodeLike L R Q (.aliased c name) (.aliased c' name)
  | table (ref : TableRef) : NodeLike L R Q (.table ref) (.table ref)
  | join {t t' c c' : Clause} (kind : JoinKind) (ht : R t t') (hc : R c c') :
    NodeLike L R Q (.join kind t c) (.join kind t' c')
  | order {c c' : Clause} (direction : SortOrder) (h : R c c') :
    NodeLike L R Q (.order c direction) (.order c' direction)
  | assign {t t' v v' : Clause} (ht : R t t') (hv : R v v') : NodeLike L R Q (.assign t v) (.assign t' v')
  | subQuery {s s' : Select} (h : Q s s') : NodeLike L R Q (.subQuery s) (.subQuery s')

/-- Selects with the same row limit, whose clauses are related by `R` section by section. -/
inductive Select.NodeLike (R : Clause → Clause → Prop) : Select → Select → Prop
  | mk (distinct : Bool) (limit : Option RowLimit) {fields fields' sources sources' groupBy groupBy' orderBy orderBy' :
      List Clause} {filter filter' having having' : Option Clause} (hF : List.Forall₂ R fields fields')
    (hS : List.Forall₂ R sources sources') (hW : Option.Rel R filter filter') (hG : List.Forall₂ R groupBy groupBy')
    (hH : Option.Rel R having having') (hO : List.Forall₂ R orderBy orderBy') :
    NodeLike R (.mk distinct limit fields sources filter groupBy having orderBy)
      (.mk distinct limit fields' sources' filter' groupBy' having' orderBy')

/-- Related members of an option stay related by what they inherit. -/
theorem optionRel_imp {α β : Type} {R R' : α → β → Prop} {o : Option α} {o' : Option β} (h : Option.Rel R o o')
    (hR : ∀ x ∈ o, ∀ x', R x x' → R' x x') : Option.Rel R' o o' := by
  cases h with
  | none => exact .none
  | some h => exact .some (hR _ rfl _ h)

theorem forall₂_toList {α β : Type} {R : α → β → Prop} {o : Option α} {o' : Option β} (h : Option.Rel R o o') :
    List.Forall₂ R o.toList o'.toList := by
  cases h with
  | none => exact .nil
  | some h => exact .cons h .nil

theorem flatMap_eq_of_forall₂ {α β γ : Type} {f : α → List γ} {g : β → List γ} {xs : List α} {ys : List β}
    (h : List.Forall₂ (fun x y => f x = g y) xs ys) : xs.flatMap f = ys.flatMap g := by
  induction h with
  | nil => rfl
  | cons hx _ ih => rw [List.flatMap_cons, List.flatMap_cons, hx, ih]

theorem forall₂_imp {α β : Type} {R R' : α → β → Prop} {xs : List α} {ys : List β} (h : List.Forall₂ R xs ys)
    (hR : ∀ x ∈ xs, ∀ x', R x x' → R' x x') : List.Forall₂ R' xs ys :=
  (List.forall₂_and_left xs ys |>.2 ⟨hR, h⟩).imp fun _ _ ⟨inherits, h⟩ => inherits _ h

namespace Clause

variable {L : Likeness} {R R' : Clause → Clause → Prop} {Q Q' : Select → Select → Prop} {c c' : Clause} {s s' : Select}

theorem NodeLike.imp (h : NodeLike L R Q c c') (hR : ∀ x ∈ c.operands, ∀ x', R x x' → R' x x')
    (hQ : ∀ s ∈ c.query?, ∀ s', Q s s' → Q' s s') : NodeLike L R' Q' c c' := by
  cases h with
  | field of name => exact .field of name
  | allFields of => exact .allFields of
  | builtin fn => exact .builtin fn
  | table ref => exact .table ref
  | constant h => exact .constant h
  | param h => exact .param h
  | compare _ hl hr | logic _ hl hr | «calc» _ hl hr | join _ hl hr | assign hl hr =>
    constructor
    · exact hR _ (by simp [operands]) _ hl
    · exact hR _ (by simp [operands]) _ hr
  | between h hl hr =>
    exact .between (hR _ (by simp [operands]) _ h) (hR _ (by simp [operands]) _ hl) (hR _ (by simp [operands]) _ hr)
  | isNull _ h | not h | cast _ h | aliased _ h | order _ h =>
    constructor
    exact hR _ (by simp [operands]) _ h
  | inList _ h hs =>
    exact .inList _ (hR _ List.mem_cons_self _ h) (forall₂_imp hs fun x hx => hR x (List.mem_cons_of_mem _ hx))
  | function _ hs | concat hs =>
    constructor
    exact forall₂_imp hs hR
  | aggregate _ _ h => exact .aggregate _ _ (optionRel_imp h fun x hx => hR x (Option.mem_toList.2 hx))
  | anyRow h | subQuery h =>
    constructor
    exact hQ _ rfl _ h

theorem NodeLike.operands (h : NodeLike L R Q c c') : List.Forall₂ R c.operands c'.operands := by
  cases h with
  | field | allFields | builtin | table | constant | param | anyRow | subQuery => exact .nil
  | compare _ hl hr | logic _ hl hr | «calc» _ hl hr | join _ hl hr | assign hl hr => exact .cons hl (.cons hr .nil)
  | between h hl hr => exact .cons h (.cons hl (.cons hr .nil))
  | isNull _ h | not h | cast _ h | aliased _ h | order _ h => exact .cons h .nil
  | inList _ h hs => exact .cons h hs
  | function _ hs | concat hs => exact hs
  | aggregate _ _ h =>
    cases h with
    | none => exact .nil
    | some h => exact .cons h .nil

theorem NodeLike.query? (h : NodeLike L R Q c c') : Option.Rel Q c.query? c'.query? := by
  cases h with
  | anyRow h | subQuery h => exact .some h
  | _ => exact .none

theorem Like.node (h : c.Like L c') : NodeLike L (Like L) (Select.Like L) c c' := by
  cases c with
  | field | allFields | builtin | table =>
    rw [Like] at h
    subst h
    constructor
  | constant | param | isNull | not | cast | aliased | order | anyRow | subQuery =>
    rw [Like] at h
    obtain ⟨_, rfl, h⟩ := h
    constructor
    exact h
  | compare | logic | «calc» | join | assign =>
    rw [Like] at h
    obtain ⟨_, _, rfl, hl, hr⟩ := h
    constructor
    · exact hl
    · exact hr
  | between =>
    rw [Like] at h
    obtain ⟨_, _, _, rfl, h, hl, hr⟩ := h
    exact .between h hl hr
  | inList =>
    rw [Like] at h
    obtain ⟨_, _, rfl, h, hs⟩ := h
    exact .inList _ h (likeAll_iff.1 hs)
  | function | concat =>
    rw [Like] at h
    obtain ⟨_, rfl, hs⟩ := h
    constructor
    exact likeAll_iff.1 hs
  | aggregate =>
    rw [Like] at h
    obtain ⟨_, rfl, h⟩ := h
    exact .aggregate _ _ (likeOption_iff.1 h)

theorem NodeLike.like (h : NodeLike L (Like L) (Select.Like L) c c') : c.Like L c' := by
  cases h with
  | field | allFields | builtin | table => rw [Like]
  | constant h | param h | isNull _ h | not h | cast _ h | aliased _ h | order _ h | anyRow h | subQuery h =>
    rw [Like]
    exact ⟨_, rfl, h⟩
  | compare _ hl hr | logic _ hl hr | «calc» _ hl hr | join _ hl hr | assign hl hr =>
    rw [Like]
    exact ⟨_, _, rfl, hl, hr⟩
  | between h hl hr =>
    rw [Like]
    exact ⟨_, _, _, rfl, h, hl, hr⟩
  | inList _ h hs =>
    rw [Like]
    exact ⟨_, _, rfl, h, likeAll_iff.2 hs⟩
  | function _ hs | concat hs =>
    rw [Like]
    exact ⟨_, rfl, likeAll_iff.2 hs⟩
  | aggregate _ _ h =>
    rw [Like]
    exact ⟨_, rfl, likeOption_iff.2 h⟩

end Clause

namespace Select

variable {L : Likeness} {R R' : Clause → Clause → Prop} {s s' : Select}

theorem NodeLike.imp (h : s.NodeLike R s') (hR : ∀ x ∈ s.clauses, ∀ x', R x x' → R' x x') : s.NodeLike R' s' := by
  obtain ⟨distinct, limit, hF, hS, hW, hG, hH, hO⟩ := h
  simp only [clauses, List.forall_mem_append, Option.mem_toList] at hR
  obtain ⟨⟨⟨⟨⟨f, s⟩, w⟩, g⟩, h⟩, o⟩ := hR
  exact .mk distinct limit (forall₂_imp hF f) (forall₂_imp hS s) (optionRel_imp hW w) (forall₂_imp hG g)
    (optionRel_imp hH h) (forall₂_imp hO o)

theorem NodeLike.clauses (h : s.NodeLike R s') : List.Forall₂ R s.clauses s'.clauses := by
  obtain ⟨distinct, limit, hF, hS, hW, hG, hH, hO⟩ := h
  refine List.rel_append (List.rel_append (List.rel_append ?_ hG) (forall₂_toList hH)) hO
  exact List.rel_append (List.rel_append hF hS) (forall₂_toList hW)

theorem like_iff : s.Like L s' ↔ s.NodeLike (Clause.Like L) s' := by
  constructor
  · intro h
    cases s
    rw [Like] at h
    obtain ⟨_, _, _, _, _, _, rfl, hF, hS, hW, hG, hH, hO⟩ := h
    simp only [Clause.likeAll_iff, Clause.likeOption_iff] at hF hS hW hG hH hO
    exact .mk _ _ hF hS hW hG hH hO
  · rintro ⟨distinct, limit, hF, hS, hW, hG, hH, hO⟩
    rw [Like]
    simp only [Clause.likeAll_iff, Clause.likeOption_iff]
    exact ⟨_, _, _, _, _, _, rfl, hF, hS, hW, hG, hH, hO⟩

end Select

namespace Clause

variable {L : Likeness} {P : Clause → Clause → Prop} {Q : Select → Select → Prop}

/-- What clauses and selects that are alike have in common, if nodes that are alike have it from what is right below
them. -/
theorem likeInduction
    (clause : ∀ c c', NodeLike L (fun x x' => x.Like L x' ∧ P x x') (fun s s' => s.Like L s' ∧ Q s s') c c' → P c c')
    (select : ∀ s s', s.Like L s' → s.NodeLike (fun x x' => x.Like L x' ∧ P x x') s' → Q s s') :
    (∀ c c', Clause.Like L c c' → P c c') ∧ ∀ s s', Select.Like L s s' → Q s s' := by
  refine operandInduction (fun c operands query c' h => ?_) fun s clauses s' h => ?_
  · refine clause c c' (h.node.imp (fun x hx x' hx' => ?_) fun s hs s' hs' => ?_)
    · exact ⟨hx', operands x hx x' hx'⟩
    · exact ⟨hs', query s hs s' hs'⟩
  · exact select s s' h ((Select.like_iff.1 h).imp fun x hx x' hx' => ⟨hx', clauses x hx x' hx'⟩)

/-- What is related is alike, if it is so at the roots and related right below. -/
theorem like_of_related (clause : ∀ c c', P c c' → NodeLike L P Q c c') (select : ∀ s s', Q s s' → s.NodeLike P s') :
    (∀ c c', P c c' → Clause.Like L c c') ∧ ∀ s s', Q s s' → Select.Like L s s' := by
  refine operandInduction (fun c operands query c' h => ?_) fun s clauses s' h => ?_
  · exact ((clause c c' h).imp operands query).like
  · exact Select.like_iff.2 ((select s s' h).imp clauses)

/-! ## Sorts -/

variable {c c' : Clause}

theorem NodeLike.kind_eq (h : NodeLike L P Q c c') : c.kind = c'.kind := by
  cases h <;> rfl

theorem Like.kind_eq (h : c.Like L c') : c.kind = c'.kind := h.node.kind_eq

theorem Like.isPredicate_eq (h : c.Like L c') : c.isPredicate = c'.isPredicate := by
  rw [isPredicate, isPredicate, h.kind_eq]

theorem Like.isTableLike_eq (h : c.Like L c') : c.isTableLike = c'.isTableLike := by
  cases h.node <;> rfl

theorem Like.operands (h : c.Like L c') : List.Forall₂ (Like L) c.operands c'.operands := h.node.operands

/-! ## Names -/

theorem paramNamesAll_eq (cs : List Clause) : paramNamesAll cs = cs.flatMap paramNames := by
  induction cs with
  | nil => rfl
  | cons c cs ih => rw [paramNamesAll, ih, List.flatMap_cons]

theorem paramNamesOption_eq (o : Option Clause) : paramNamesOption o = o.toList.flatMap paramNames := by
  cases o with
  | none => rfl
  | some c => rw [paramNamesOption, Option.toList_some, List.flatMap_singleton]

/-- The explicit names of a clause that is no parameter are those of what is right below it. -/
theorem paramNames_below (c : Clause) (hc : c.kind ≠ .param) :
    c.paramNames = c.operands.flatMap paramNames ++ c.query?.toList.flatMap Select.paramNames := by
  cases c with
  | param => exact absurd rfl hc
  | aggregate fn arg distinct => cases arg <;> simp [paramNames, Clause.operands, query?]
  | _ => simp [paramNames, Clause.operands, query?, paramNamesAll_eq]

end Clause

theorem Select.paramNames_clauses (s : Select) : s.paramNames = s.clauses.flatMap Clause.paramNames := by
  cases s
  simp [paramNames, clauses, Clause.paramNamesAll_eq, Clause.paramNamesOption_eq]

variable {L : Likeness}

/-- what trees that are alike have in common if their parameters have their names in common -/
theorem Like.paramNames_all (hL : ∀ p p', L.param p p' → p.name = p'.name) :
    (∀ c c', Clause.Like L c c' → c.paramNames = c'.paramNames) ∧
      ∀ s s', Select.Like L s s' → s.paramNames = s'.paramNames := by
  refine Clause.likeInduction (fun c c' h => ?_) fun s s' _ h => ?_
  · by_cases hc : c.kind = .param
    · cases h <;> simp only [Clause.kind, reduceCtorEq] at hc
      rename_i p p' hp
      rw [Clause.paramNames, Clause.paramNames, hL p p' hp]
    · have operands := flatMap_eq_of_forall₂ (h.operands.imp fun _ _ h => h.2)
      have queries := flatMap_eq_of_forall₂ (forall₂_toList h.query? |>.imp fun _ _ h => h.2)
      rw [c.paramNames_below hc, c'.paramNames_below (h.kind_eq ▸ hc), operands, queries]
  · have clauses := flatMap_eq_of_forall₂ (h.clauses.imp fun _ _ h => h.2)
    rw [s.paramNames_clauses, s'.paramNames_clauses, clauses]

namespace Like

variable (hL : ∀ p p', L.param p p' → p.name = p'.name)

include hL

theorem clauses_paramNames {cs cs' : List Clause} (h : Clause.LikeAll L cs cs') :
    Clause.paramNamesAll cs = Clause.paramNamesAll cs' := by
  rw [Clause.paramNamesAll_eq, Clause.paramNamesAll_eq]
  exact flatMap_eq_of_forall₂ ((Clause.likeAll_iff.1 h).imp (paramNames_all hL).1)

theorem filter_paramNames {o o' : Option Clause} (h : Clause.LikeOption L o o') :
    Clause.paramNamesOption o = Clause.paramNamesOption o' := by
  rw [Clause.paramNamesOption_eq, Clause.paramNamesOption_eq]
  exact flatMap_eq_of_forall₂ (forall₂_toList (Clause.likeOption_iff.1 h) |>.imp (paramNames_all hL).1)

theorem statement_paramNames {s s' : Statement} (h : s.Like L s') : s.paramNames = s'.paramNames := by
  cases s with
  | select s =>
    obtain ⟨_, rfl, h⟩ := h
    exact (paramNames_all hL).2 _ _ h
  | insert i =>
    obtain ⟨columns', values', source', rfl, hc, hv, hs⟩ := h
    have source : i.source.map Select.paramNames = source'.map Select.paramNames := by
      cases hi : i.source with
      | none => rw [hi] at hs; rw [show source' = none from hs]
      | some s =>
        rw [hi] at hs
        obtain ⟨s', rfl, hs⟩ := hs
        rw [Option.map_some, Option.map_some, (paramNames_all hL).2 s s' hs]
    rw [Statement.paramNames, Statement.paramNames, clauses_paramNames hL hc, clauses_paramNames hL hv, source]
  | update u =>
    obtain ⟨_, _, rfl, ha, hf⟩ := h
    rw [Statement.paramNames, Statement.paramNames, clauses_paramNames hL ha, filter_paramNames hL hf]
  | delete s =>
    obtain ⟨_, rfl, hf⟩ := h
    exact filter_paramNames hL hf
  | exec e =>
    obtain ⟨args', returns', rfl, ha, hr⟩ := h
    have returns : e.returns.bind (·.name) = returns'.bind (·.name) := by
      cases he : e.returns with
      | none => rw [he] at hr; rw [show returns' = none from hr]
      | some p =>
        rw [he] at hr
        obtain ⟨p', rfl, hp⟩ := hr
        exact hL p p' hp
    rw [Statement.paramNames, Statement.paramNames, returns, clauses_paramNames hL ha]
  | createTable t => rw [show s' = .createTable t from h]
  | dropTable t => rw [show s' = .dropTable t from h]

/-- **Trees that are alike name the same parameters**, if parameters that are related have one name. -/
theorem query_paramNames {q q' : Query} (h : q.Like L q') : q.paramNames = q'.paramNames := by
  cases q with
  | single s =>
    obtain ⟨s', rfl, h⟩ := h
    simp only [Query.paramNames, Query.statements, List.flatMap_cons, statement_paramNames hL h]
  | script members =>
    obtain ⟨members', rfl, h⟩ := h
    simp only [Query.paramNames, Query.statements]
    induction h with
    | nil => rfl
    | cons h _ ih => rw [List.flatMap_cons, List.flatMap_cons, statement_paramNames hL h, ih]

end Like

end SqlTree
