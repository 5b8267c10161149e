/-
The pieces of trees of one shape.

Pieces match if they differ in occurrences of parameters only. The pieces of trees that are alike do, if the relation
of the leaves shows everything that the text shows of them (`Likeness.Visible`) and the hooks around selects look at
nothing else (`SelectHooks.Respects`).

- `Like.pieces_all`: the pieces of clauses and selects that are alike match, node by node.
- `Piece.Match.query`: so do the pieces of queries that are alike, place by place.
-/
import SqlTree.Proofs.Clause.Likeness
import SqlTree.Proofs.Rendering.Play

namespace SqlTree

/-! ## Hooks, nodes and occurrences -/

/-- hooks that do the same around selects that are alike -/
structure SelectHooks.Respects (h : SelectHooks) (L : Likeness) : Prop where
  opening : ∀ s s', Select.Like L s s' → h.opening s = h.opening s'
  heading : ∀ s s', Select.Like L s s' → h.heading s = h.heading s'
  trailing : ∀ s s', Select.Like L s s' → h.trailing s = h.trailing s'
  closing : ∀ s s', Select.Like L s s' → h.closing s = h.closing s'

/-- what is related has in common what the text of a statement shows of it -/
structure Likeness.Visible (L : Likeness) : Prop where
  null : ∀ v v', L.value v v' → v.isNull = v'.isNull
  name : ∀ p p', L.param p p' → p.name = p'.name
  direction : ∀ p p', L.param p p' → p.direction = p'.direction

/-- occurrences of related literals and of related parameters, placed alike -/
def Likeness.occurrence (L : Likeness) : Occurrence → Occurrence → Prop
  | .constant v, o => ∃ v', o = .constant v' ∧ L.value v v'
  | .param p direction placed, o => ∃ p', o = .param p' direction placed ∧ L.param p p'

namespace Clause

variable {L : Likeness} {c c' : Clause}

theorem Like.isCalc_eq (h : c.Like L c') : Writing.isCalc c = Writing.isCalc c' := by
  cases h.node <;> rfl

theorem Like.sourceGap_eq (first : Bool) (h : c.Like L c') :
    Writing.sourceGap first c = Writing.sourceGap first c' := by
  cases h.node <;> rfl

theorem Like.mixes_eq (op : Connective) (h : c.Like L c') : Writing.mixes op c = Writing.mixes op c' := by
  cases h.node <;> rfl

theorem Like.bindsLooser_eq (op : Arithmetic) (h : c.Like L c') :
    Writing.bindsLooser op c = Writing.bindsLooser op c' := by
  cases h.node <;> rfl

theorem Like.isOutputArg_eq (hL : L.Visible) (h : c.Like L c') : Writing.isOutputArg c = Writing.isOutputArg c' := by
  cases h.node with
  | param hp => rw [Writing.isOutputArg, Writing.isOutputArg, hL.direction _ _ hp]
  | _ => rfl

end Clause

namespace Statement.Like

variable {L : Likeness} {s s' : Statement}

theorem kind_eq (h : s.Like L s') : s.kind = s'.kind := by
  cases s with
  | select s => obtain ⟨_, rfl, -⟩ := h; rfl
  | insert i => obtain ⟨_, _, _, rfl, -⟩ := h; rfl
  | update u => obtain ⟨_, _, rfl, -⟩ := h; rfl
  | delete s => obtain ⟨_, rfl, -⟩ := h; rfl
  | exec e => obtain ⟨_, _, rfl, -⟩ := h; rfl
  | createTable t => rw [show s' = .createTable t from h]
  | dropTable t => rw [show s' = .dropTable t from h]

theorem givesRows_eq (h : s.Like L s') : s.givesRows = s'.givesRows := by
  have node : ∀ s : Statement, s.givesRows = (s.kind == .select) := fun s => by cases s <;> rfl
  rw [node, node, h.kind_eq]

theorem isDefinition_eq (h : s.Like L s') : s.isDefinition = s'.isDefinition := by
  have node : ∀ s : Statement, s.isDefinition = (s.kind == .createTable || s.kind == .dropTable) := fun s => by
    cases s <;> rfl
  rw [node, node, h.kind_eq]

/-- A statement that defines a table has no literal and no parameter. -/
theorem eq_of_isDefinition (h : s.Like L s') (hs : s'.isDefinition) : s = s' := by
  rw [← h.isDefinition_eq] at hs
  cases s <;> first | exact Eq.symm h | cases hs

end Statement.Like

/-! ## Pieces -/

namespace Piece

def IsPlain : Piece → Prop
  | .value _ | .frame .. => False
  | _ => True

namespace Match

variable {O : Occurrence → Occurrence → Prop} {L : Likeness} {d : Dialect}

theorem append {xs xs' ys ys' : List Piece} (h : Match O xs xs') (h' : Match O ys ys') :
    Match O (xs ++ ys) (xs' ++ ys') := by
  induction h with
  | nil => exact h'
  | text t _ ih => exact .text t ih
  | ident name _ ih => exact .ident name ih
  | literal t _ ih => exact .literal t ih
  | value ho _ ih => exact .value ho ih
  | act a _ ih => exact .act a ih
  | stop e _ ih => exact .stop e ih
  | frame opening closing hbody _ _ ih => exact .frame opening closing hbody ih

theorem plain {xs : List Piece} (h : ∀ x ∈ xs, x.IsPlain) : Match O xs xs := by
  induction xs with
  | nil => exact .nil
  | cons x xs ih =>
    have rest := ih fun y hy => h y (List.mem_cons_of_mem x hy)
    have hx := h x List.mem_cons_self
    cases x with
    | text t => exact .text t rest
    | ident name => exact .ident name rest
    | literal t => exact .literal t rest
    | value o => exact hx.elim
    | act a => exact .act a rest
    | stop e => exact .stop e rest
    | frame opening body closing => exact hx.elim

theorem wrapped {wrap wrap' : Bool} (hw : wrap = wrap') {xs ys : List Piece} (h : Match O xs ys) :
    Match O (Piece.wrapped wrap xs) (Piece.wrapped wrap' ys) := by
  subst hw
  cases wrap with
  | false => exact h
  | true => exact .text "(" (h.append (.text ")" .nil))

theorem asValue {c c' : Clause} (hc : c.Like L c') {xs ys : List Piece} (h : Match O xs ys) :
    Match O (Piece.asValue d c xs) (Piece.asValue d c' ys) := by
  unfold Piece.asValue
  rw [hc.isPredicate_eq]
  split
  · exact .text _ (h.append (.text _ .nil))
  · exact h

theorem asOperand {c c' : Clause} (hc : c.Like L c') {xs ys : List Piece} (h : Match O xs ys) :
    Match O (Piece.asOperand d c xs) (Piece.asOperand d c' ys) :=
  wrapped (by rw [hc.isPredicate_eq]) (h.asValue hc)

theorem separated (separator : String) {ms ms' : List (List Piece)} (h : List.Forall₂ (Match O) ms ms') :
    Match O (Piece.separated separator ms) (Piece.separated separator ms') := by
  cases h with
  | nil => exact .nil
  | cons hx hrest =>
    refine hx.append ?_
    induction hrest with
    | nil => exact .nil
    | cons hy _ ih => exact (Match.text separator hy).append ih

theorem ofResult {α : Type} (r : Result α) {f g : α → List Piece} (h : ∀ a, Match O (f a) (g a)) :
    Match O (Piece.ofResult r f) (Piece.ofResult r g) := by
  cases r with
  | ok a => exact h a
  | error e => exact .stop e .nil

theorem qualifier (name : Option String) : Match O (Piece.qualifier name) (Piece.qualifier name) :=
  plain (by cases name <;> simp [Piece.qualifier, IsPlain])

theorem table (t : TableRef) : Match O (Piece.table t) (Piece.table t) :=
  (qualifier t.schema).append (.ident t.name .nil)

theorem sequenceCall (sequence : String) (spelling : SequenceSpelling) :
    Match O (Piece.sequenceCall sequence spelling) (Piece.sequenceCall sequence spelling) :=
  plain (by cases spelling <;> simp [Piece.sequenceCall, IsPlain])

theorem builtin (fn : Builtin) : Match O (Piece.builtin d fn) (Piece.builtin d fn) := by
  cases fn with
  | currentDate => exact .text _ .nil
  | currentTimestamp => exact .text _ .nil
  | lastId sequence =>
    simp only [Piece.builtin]
    split
    · exact .text _ .nil
    · exact sequenceCall _ _
    · exact .text _ .nil
    · exact .stop _ .nil
  | nextId sequence => exact ofResult _ fun _ => sequenceCall _ _

theorem limitFault (limit : Option RowLimit) : Match O (Piece.limitFault d limit) (Piece.limitFault d limit) := by
  cases limit with
  | none => exact .nil
  | some limit => exact ofResult _ fun _ => .nil

theorem acts (actions : List HookAction) : Match O (actions.map .act) (actions.map .act) :=
  plain (by simp [IsPlain])

end Match

/-- clauses with their pieces that are alike and match -/
def MatchMember (L : Likeness) (m m' : Clause × List Piece) : Prop := m.1.Like L m'.1 ∧ Match L.occurrence m.2 m'.2

namespace Match

variable {L : Likeness} {d : Dialect} {ms ms' : List (Clause × List Piece)}

theorem values (separator : String) (h : List.Forall₂ (MatchMember L) ms ms') :
    Match L.occurrence (Piece.values d separator ms) (Piece.values d separator ms') := by
  refine separated separator ?_
  rw [List.forall₂_map_left_iff, List.forall₂_map_right_iff]
  exact h.imp fun _ _ hm => hm.2.asValue hm.1

theorem operands (separator : String) (h : List.Forall₂ (MatchMember L) ms ms') :
    Match L.occurrence (Piece.separated separator (ms.map fun (c, body) => Piece.asOperand d c body))
      (Piece.separated separator (ms'.map fun (c, body) => Piece.asOperand d c body)) := by
  refine separated separator ?_
  rw [List.forall₂_map_left_iff, List.forall₂_map_right_iff]
  exact h.imp fun _ _ hm => hm.2.asOperand hm.1

theorem sources (first : Bool) (h : List.Forall₂ (MatchMember L) ms ms') :
    Match L.occurrence (Piece.sources d first ms) (Piece.sources d first ms') := by
  induction h generalizing first with
  | nil => exact .nil
  | cons hm _ ih =>
    simp only [Piece.sources, hm.1.sourceGap_eq first]
    exact .text _ ((hm.2.asValue hm.1).append (ih false))

theorem fromSection (h : List.Forall₂ (MatchMember L) ms ms') :
    Match L.occurrence (Piece.fromSection d ms) (Piece.fromSection d ms') := by
  have tables := sources (d := d) true h
  cases h with
  | nil => exact plain (by unfold Piece.fromSection; cases d.dual <;> simp [IsPlain])
  | cons _ _ => exact .text _ tables

theorem listed (keywords : String) (h : List.Forall₂ (MatchMember L) ms ms') :
    Match L.occurrence (Piece.listed d keywords ms) (Piece.listed d keywords ms') := by
  have members := values (d := d) ", " h
  cases h with
  | nil => exact .nil
  | cons _ _ => exact .text _ members

theorem optional (keywords : String) {o o' : Option Clause}
    (h : Option.Rel (fun c c' => c.Like L c' ∧ Match L.occurrence (c.pieces d) (c'.pieces d)) o o') :
    Match L.occurrence (Piece.optional keywords (Clause.piecesOption d o))
      (Piece.optional keywords (Clause.piecesOption d o')) := by
  cases h with
  | none => exact .nil
  | some h => exact .text _ h.2

/-- A column to assign to has no parameter, and other clauses are refused by their sort. -/
theorem columnName {c c' : Clause} (h : c.Like L c') :
    Match L.occurrence (Piece.columnName d c) (Piece.columnName d c') := by
  cases h.node with
  | field of name => exact .ident name .nil
  | _ => exact .stop _ .nil

end Match

variable {L : Likeness} {d : Dialect}

/-- clauses that are alike and whose pieces match -/
def Matching (L : Likeness) (d : Dialect) (c c' : Clause) : Prop :=
  c.Like L c' ∧ Match L.occurrence (c.pieces d) (c'.pieces d)

def MatchingSelect (L : Likeness) (d : Dialect) (s s' : Select) : Prop :=
  s.Like L s' ∧ Match L.occurrence (s.pieces d) (s'.pieces d)

theorem matchMembers {cs cs' : List Clause} (h : List.Forall₂ (Matching L d) cs cs') :
    List.Forall₂ (MatchMember L) (Clause.piecesAll d cs) (Clause.piecesAll d cs') := by
  induction h with
  | nil => exact .nil
  | cons h _ ih => exact .cons h ih

namespace Match

variable {c c' : Clause} {s s' : Select}

/-- Predicates match if what is right below them does. -/
theorem predicate (h : c.NodeLike L (Matching L d) (MatchingSelect L d) c') (hp : c.isPredicate) :
    Match L.occurrence (c.pieces d) (c'.pieces d) := by
  cases h with
  | compare op hl hr => exact (hl.2.asOperand hl.1).append (.text _ (hr.2.asOperand hr.1))
  | isNull negated h => exact (h.2.asOperand h.1).append (.text _ .nil)
  | inList negated h hs =>
    have items := values (d := d) ", " (matchMembers hs)
    cases hs with
    | nil => exact .text _ .nil
    | cons _ _ => exact ((h.2.asOperand h.1).append (.text _ items)).append (.text ")" .nil)
  | between h hl hr =>
    exact ((h.2.asOperand h.1).append (.text _ (hl.2.asOperand hl.1))).append (.text _ (hr.2.asOperand hr.1))
  | logic op hl hr => exact (hl.2.wrapped (hl.1.mixes_eq op)).append (.text _ (hr.2.wrapped (hr.1.mixes_eq op)))
  | anyRow h | not h => exact .text _ (h.2.append (.text ")" .nil))
  | _ => cases hp

theorem node (hL : L.Visible) (h : c.NodeLike L (Matching L d) (MatchingSelect L d) c') :
    Match L.occurrence (c.pieces d) (c'.pieces d) := by
  by_cases hp : c.isPredicate
  · exact predicate h hp
  cases h with
  | field of name => exact (qualifier of).append (.ident name .nil)
  | allFields of => exact (qualifier of).append (.text "*" .nil)
  | constant hv =>
    rw [Clause.pieces, Clause.pieces, hL.null _ _ hv]
    split
    · exact .text "NULL" .nil
    · exact .value ⟨_, rfl, hv⟩ .nil
  | param same =>
    rw [Clause.pieces, Clause.pieces, hL.direction _ _ same]
    exact .value ⟨_, rfl, same⟩ .nil
  | aggregate fn distinct h =>
    cases h with
    | none => exact .text _ (.text _ .nil)
    | some h => exact .text _ ((h.2.asValue h.1).append (.text ")" .nil))
  | function name hs => exact .text _ ((values ", " (matchMembers hs)).append (.text ")" .nil))
  | builtin fn => exact builtin fn
  | concat hs => exact .text _ ((operands _ (matchMembers hs)).append (.text _ .nil))
  | cast type h => exact ofResult _ fun name => .text _ ((h.2.asValue h.1).append (.text _ .nil))
  | «calc» op hl hr =>
    exact ((hl.2.asValue hl.1).wrapped (hl.1.bindsLooser_eq op)).append
      (.text _ ((hr.2.asValue hr.1).wrapped hr.1.isCalc_eq))
  | aliased name h =>
    rw [Clause.pieces, Clause.pieces, h.1.isTableLike_eq]
    exact (h.2.asValue h.1).append (.text _ (.ident name .nil))
  | table ref => exact table ref
  | join kind ht hc => exact (text _ (ht.2.asValue ht.1)).append (.text _ hc.2)
  | order direction h => exact (h.2.asValue h.1).append (.text _ .nil)
  | assign ht hv => exact (columnName ht.1).append (.text _ (hv.2.asValue hv.1))
  | subQuery h => exact .text _ (h.2.append (.text ")" .nil))
  | _ => exact absurd rfl hp

/-- Selects match if their clauses do, and the hooks around them do the same. -/
theorem select (hd : d.hooks.Respects L) (like : s.Like L s') (h : s.NodeLike (Matching L d) s') :
    Match L.occurrence (s.pieces d) (s'.pieces d) := by
  rw [s.pieces_eq, s'.pieces_eq, hd.opening _ _ like, hd.closing _ _ like, Select.inner, Select.inner,
    hd.heading _ _ like, hd.trailing _ _ like]
  obtain ⟨distinct, limit, hF, hS, hW, hG, hH, hO⟩ := h
  refine (limitFault limit).append (.frame _ _ ?_ .nil)
  refine append ?_ (acts _)
  refine append ?_ (listed _ (matchMembers hO))
  refine append ?_ (optional _ hH)
  refine append ?_ (listed _ (matchMembers hG))
  refine append ?_ (optional _ hW)
  refine append ?_ (fromSection (matchMembers hS))
  refine append (.text _ (.text _ (acts _))) ?_
  have columns := values (d := d) ", " (matchMembers hF)
  cases hF with
  | nil => exact .text _ .nil
  | cons _ _ => exact columns

end Match
end Piece

open Piece (Match)

variable {L : Likeness} {d : Dialect}

/-- the pieces of trees that are alike match, by induction on the two of them -/
theorem Like.pieces_all (hL : L.Visible) (hd : d.hooks.Respects L) :
    (∀ c c', Clause.Like L c c' → Match L.occurrence (c.pieces d) (c'.pieces d)) ∧
      ∀ s s', Select.Like L s s' → Match L.occurrence (s.pieces d) (s'.pieces d) :=
  Clause.likeInduction (fun _ _ => Match.node hL) fun _ _ => Match.select hd

namespace Piece.Match

theorem receiver (assignment : String) {o o' : Option Parameter} (h : L.receiver o o') :
    Match L.occurrence (Piece.receiver assignment o) (Piece.receiver assignment o') := by
  cases o with
  | none =>
    rw [show o' = none from h]
    exact .nil
  | some p =>
    obtain ⟨p', rfl, hp⟩ := h
    exact .value ⟨p', rfl, hp⟩ (.text _ .nil)

theorem columnDef (c : ColumnDef) : Match L.occurrence (Piece.columnDef d c) (Piece.columnDef d c) :=
  .ident _ (.text _ (ofResult _ fun _ => .text _ .nil))

theorem existence (asked : Bool) (context words : String) :
    Match L.occurrence (Piece.existence d asked context words) (Piece.existence d asked context words) := by
  cases asked with
  | false => exact .nil
  | true => exact ofResult _ fun _ => .text _ .nil

theorem createTable (t : CreateTable) : Match L.occurrence (Piece.createTable d t) (Piece.createTable d t) := by
  have columns : Match L.occurrence (Piece.separated ", " (t.columns.map (Piece.columnDef d)))
      (Piece.separated ", " (t.columns.map (Piece.columnDef d))) := by
    refine separated _ ?_
    rw [List.forall₂_map_left_iff, List.forall₂_map_right_iff, List.forall₂_same]
    exact fun c _ => columnDef c
  have keys : Match L.occurrence
      (Piece.separated ", " ((t.columns.filter (·.primaryKey)).map fun c => [.ident c.name]))
      (Piece.separated ", " ((t.columns.filter (·.primaryKey)).map fun c => [.ident c.name])) := by
    refine separated _ ?_
    rw [List.forall₂_map_left_iff, List.forall₂_map_right_iff, List.forall₂_same]
    exact fun c _ => .ident c.name .nil
  refine Match.append ?_ (.text _ .nil)
  refine Match.append ?_ ?_
  · exact (((Match.text _ (existence _ _ _)).append (table _)).append (.text _ columns))
  · split
    · exact .nil
    · exact (Match.text _ keys).append (.text _ .nil)

theorem dropTable (t : DropTable) : Match L.occurrence (Piece.dropTable d t) (Piece.dropTable d t) :=
  (Match.text _ (existence _ _ _)).append (table _)

variable (hL : L.Visible) (hd : d.hooks.Respects L)

include hL hd

theorem list (separator : String) {cs cs' : List Clause} (h : Clause.LikeAll L cs cs') :
    Match L.occurrence (Piece.list d separator cs) (Piece.list d separator cs') :=
  values separator (matchMembers ((Clause.likeAll_iff.1 h).imp fun c c' h => ⟨h, (Like.pieces_all hL hd).1 c c' h⟩))

theorem filter {o o' : Option Clause} (h : Clause.LikeOption L o o') :
    Match L.occurrence (Piece.filter d o) (Piece.filter d o') :=
  optional " WHERE " (optionRel_imp (Clause.likeOption_iff.1 h) fun c _ c' h => ⟨h, (Like.pieces_all hL hd).1 c c' h⟩)

theorem insert {i i' : Insert} (ht : i.table = i'.table) (hc : Clause.LikeAll L i.columns i'.columns)
    (hv : Clause.LikeAll L i.values i'.values) (hs : Select.LikeOption L i.source i'.source) :
    Match L.occurrence (Piece.insert d i) (Piece.insert d i') := by
  have columns : Match L.occurrence
      (if i.columns.isEmpty then [] else
        .text " (" :: Piece.separated ", " (i.columns.map (Piece.columnName d)) ++ [.text ")"])
      (if i'.columns.isEmpty then [] else
        .text " (" :: Piece.separated ", " (i'.columns.map (Piece.columnName d)) ++ [.text ")"]) := by
    rw [hc.isEmpty_eq]
    split
    · exact .nil
    · refine .text _ (Match.append (separated _ ?_) (.text _ .nil))
      rw [List.forall₂_map_left_iff, List.forall₂_map_right_iff]
      exact (Clause.likeAll_iff.1 hc).imp fun _ _ h => columnName h
  rw [Piece.insert, Piece.insert, ht]
  refine ((Match.text _ (table _)).append columns).append ?_
  cases hi : i.source with
  | none =>
    rw [hi] at hs
    rw [show i'.source = none from hs]
    exact .text _ ((list hL hd ", " hv).append (.text _ .nil))
  | some s =>
    rw [hi] at hs
    obtain ⟨s', hs', hs⟩ := hs
    rw [hs']
    exact .text _ ((Like.pieces_all hL hd).2 s s' hs)

theorem routineCall {e e' : Exec} (hr : e.routine = e'.routine) (ha : Clause.LikeAll L e.args e'.args) :
    Match L.occurrence (Piece.routineCall d e) (Piece.routineCall d e') := by
  rw [Piece.routineCall, Piece.routineCall, hr]
  exact ((table _).append (.text _ (list hL hd ", " ha))).append (.text _ .nil)

theorem exec (inside : Bool) {e e' : Exec} (hr : e.routine = e'.routine) (ha : Clause.LikeAll L e.args e'.args)
    (hp : L.receiver e.returns e'.returns) : Match L.occurrence (Piece.exec d inside e) (Piece.exec d inside e') := by
  have call := routineCall hL hd hr ha
  cases hc : d.calls with
  | call =>
    simp only [Piece.exec, hc]
    cases he : e.returns with
    | none =>
      rw [he] at hp
      rw [show e'.returns = none from hp]
      exact (Match.text _ call).append .nil
    | some p =>
      rw [he] at hp
      obtain ⟨p', he', hp⟩ := hp
      rw [he']
      exact (Match.text _ call).append (.value ⟨p', rfl, hp⟩ .nil)
  | exec =>
    have args : Match L.occurrence (Piece.separated ", " (e.args.map (Piece.bareArg d)))
        (Piece.separated ", " (e'.args.map (Piece.bareArg d))) := by
      refine separated _ ?_
      rw [List.forall₂_map_left_iff, List.forall₂_map_right_iff]
      refine (Clause.likeAll_iff.1 ha).imp fun c c' h => ?_
      rw [Piece.bareArg, Piece.bareArg, h.isOutputArg_eq hL]
      exact (((Like.pieces_all hL hd).1 c c' h).asValue h).append (.text _ .nil)
    simp only [Piece.exec, hc, hr, ha.isEmpty_eq]
    exact ((Match.text _ (receiver " = " hp)).append (table _)).append (.text _ args)
  | block =>
    simp only [Piece.exec, hc]
    exact ((Match.text _ (receiver " := " hp)).append call).append (.text _ .nil)

theorem statement (inside : Bool) {s s' : Statement} (h : s.Like L s') :
    Match L.occurrence (s.pieces d inside) (s'.pieces d inside) := by
  cases s with
  | select s =>
    obtain ⟨s', rfl, h⟩ := h
    exact (Like.pieces_all hL hd).2 s s' h
  | insert i =>
    obtain ⟨_, _, _, rfl, hc, hv, hs⟩ := h
    exact insert hL hd rfl hc hv hs
  | update u =>
    obtain ⟨_, _, rfl, ha, hf⟩ := h
    exact ((Match.text _ (table _)).append (.text _ (list hL hd ", " ha))).append (filter hL hd hf)
  | delete s =>
    obtain ⟨_, rfl, hf⟩ := h
    exact (Match.text _ (table _)).append (filter hL hd hf)
  | exec e =>
    obtain ⟨_, _, rfl, ha, hp⟩ := h
    exact exec hL hd inside rfl ha hp
  | createTable t =>
    rw [show s' = .createTable t from h]
    exact createTable t
  | dropTable t =>
    rw [show s' = .dropTable t from h]
    exact dropTable t

theorem sequence {ms ms' : List Statement} (h : List.Forall₂ (Statement.Like L) ms ms') :
    Match L.occurrence (Piece.sequence d ms) (Piece.sequence d ms') := by
  refine separated _ ?_
  rw [List.forall₂_map_left_iff, List.forall₂_map_right_iff]
  exact h.imp fun _ _ h => (statement hL hd true h).append (.text _ .nil)

theorem blockMembers (n : Nat) {ms ms' : List Statement} (h : List.Forall₂ (Statement.Like L) ms ms') :
    Match L.occurrence (Piece.blockMembers d n ms) (Piece.blockMembers d n ms') := by
  induction h generalizing n with
  | nil => exact .nil
  | cons h _ ih =>
    simp only [Piece.blockMembers, h.givesRows_eq, h.isDefinition_eq]
    split
    · exact (Match.text _ (statement hL hd true h)).append (.text _ (ih (n + 1)))
    · refine Match.append ?_ (ih n)
      split
      · rw [h.eq_of_isDefinition ‹_›]
        exact ofResult _ fun t => .text _ (.literal t (.text _ .nil))
      · exact (statement hL hd true h).append (.text _ .nil)

theorem query {q q' : Query} (h : q.Like L q') : Match L.occurrence (q.pieces d) (q'.pieces d) := by
  cases q with
  | single s =>
    obtain ⟨s', rfl, h⟩ := h
    exact statement hL hd false h
  | script ms =>
    obtain ⟨ms', rfl, h⟩ := h
    refine ofResult _ fun _ => ?_
    cases d.scripts with
    | sequence => exact sequence hL hd h
    | block =>
      have cursors : (ms.filter Statement.givesRows).length = (ms'.filter Statement.givesRows).length := by
        rw [← List.countP_eq_length_filter, ← List.countP_eq_length_filter]
        induction h with
        | nil => rfl
        | cons h _ ih => rw [List.countP_cons, List.countP_cons, h.givesRows_eq, ih]
      simp only [Piece.block, cursors]
      exact .text _ (.text _ ((blockMembers hL hd 0 h).append (.text _ .nil)))

end Piece.Match

end SqlTree
