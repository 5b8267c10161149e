/-
What a list of pieces holds, collected in the order of the text.

- `Gathers`: a relation between pieces and items that putting pieces together hands on. One lemma for each way of
  putting pieces together says what items the whole has if the parts have theirs.
- `faults_of_play`: pieces that were played to the end have no faults.
-/
import SqlTree.Proofs.Clause.Operands
import SqlTree.Proofs.Rendering.Play

namespace SqlTree

/-- the clauses right below a clause that are written: the subject of an empty list is not -/
def Clause.written : Clause → List Clause
  | .inList subject items _ => if items.isEmpty then [] else subject :: items
  | c => c.operands

namespace Piece

variable {α : Type}

mutual

/-- the items of a piece, those of a frame being those of the pieces inside it -/
def collect (f : Piece → List α) : Piece → List α
  | .frame _ body _ => collectAll f body
  | x => f x

def collectAll (f : Piece → List α) : List Piece → List α
  | [] => []
  | x :: xs => x.collect f ++ collectAll f xs

end

theorem collectAll_append (f : Piece → List α) (xs ys : List Piece) :
    collectAll f (xs ++ ys) = collectAll f xs ++ collectAll f ys := by
  induction xs with
  | nil => rfl
  | cons x xs ih => simp only [List.cons_append, collectAll, ih, List.append_assoc]

def fault : Piece → List Error
  | .stop e => [e]
  | _ => []

/-- the faults in a list of pieces; nothing behind the first is written -/
def faults (xs : List Piece) : List Error := collectAll fault xs

theorem faults_append (xs ys : List Piece) : faults (xs ++ ys) = faults xs ++ faults ys := collectAll_append fault xs ys

/-! ## Putting pieces together -/

/-- a relation between pieces and items that fixed text and names have no part in, and that pieces
behind pieces hand on -/
structure Gathers (C : List Piece → List α → Prop) : Prop where
  nil : C [] []
  text : ∀ t, C [.text t] []
  ident : ∀ name, C [.ident name] []
  literal : ∀ t, C [.literal t] []
  append : ∀ {xs ys as bs}, C xs as → C ys bs → C (xs ++ ys) (as ++ bs)

namespace Gathers

variable {C : List Piece → List α → Prop} (hC : Gathers C) {xs ys : List Piece} {as bs : List α}

include hC

theorem opened (t : String) (h : C xs as) : C (.text t :: xs) as := hC.append (hC.text t) h

theorem closed (t : String) (h : C xs as) : C (xs ++ [.text t]) as := by
  simpa only [List.append_nil] using hC.append h (hC.text t)

theorem ended (h : C xs as) (hy : C ys []) : C (xs ++ ys) as := by
  simpa only [List.append_nil] using hC.append h hy

theorem joined (t : String) (hx : C xs as) (hy : C ys bs) : C (xs ++ .text t :: ys) (as ++ bs) :=
  hC.append hx (hC.opened t hy)

theorem wrapped (wrap : Bool) (h : C xs as) : C (Piece.wrapped wrap xs) as := by
  cases wrap with
  | false => exact h
  | true => exact hC.opened "(" (hC.closed ")" h)

theorem asValue {d : Dialect} (c : Clause) (h : C xs as) : C (Piece.asValue d c xs) as := by
  unfold Piece.asValue
  split
  · exact hC.opened _ (hC.closed _ h)
  · exact h

theorem asOperand {d : Dialect} (c : Clause) (h : C xs as) : C (Piece.asOperand d c xs) as :=
  hC.wrapped _ (hC.asValue c h)

/-- Members between separators have the items that each of them has. -/
theorem separated {β : Type} {g : β → List Piece} {items : β → List α} (separator : String) {members : List β}
    (h : ∀ m ∈ members, C (g m) (items m)) :
    C (Piece.separated separator (members.map g)) (members.flatMap items) := by
  cases members with
  | nil => exact hC.nil
  | cons m rest =>
    refine hC.append (h m List.mem_cons_self) ?_
    have hrest := fun m' hm' => h m' (List.mem_cons_of_mem m hm')
    clear h
    induction rest with
    | nil => exact hC.nil
    | cons m' rest ih =>
      have hm' := hC.opened separator (hrest m' List.mem_cons_self)
      exact hC.append hm' (ih fun m'' h => hrest m'' (List.mem_cons_of_mem m' h))

theorem qualifier (name : Option String) : C (Piece.qualifier name) [] := by
  cases name with
  | none => exact hC.nil
  | some name => exact hC.closed "." (hC.ident name)

theorem table (t : TableRef) : C (Piece.table t) [] := hC.append (hC.qualifier t.schema) (hC.ident t.name)

theorem sequenceCall (sequence : String) (spelling : SequenceSpelling) :
    C (Piece.sequenceCall sequence spelling) [] := by
  cases spelling with
  | phrase words => exact hC.opened _ (hC.ident sequence)
  | literal fn => exact hC.opened _ (hC.closed ")" (hC.literal sequence))
  | member fn => exact hC.closed _ (hC.ident sequence)

variable {d : Dialect} {items : Clause → List α} {cs : List Clause}

theorem values (separator : String) (h : ∀ c ∈ cs, C (c.pieces d) (items c)) :
    C (Piece.values d separator (Clause.piecesAll d cs)) (cs.flatMap items) := by
  rw [Piece.values, Clause.piecesAll_eq_map, List.map_map]
  exact hC.separated separator fun c hc => hC.asValue c (h c hc)

theorem operands (separator : String) (h : ∀ c ∈ cs, C (c.pieces d) (items c)) :
    C (Piece.separated separator ((Clause.piecesAll d cs).map fun (c, body) => Piece.asOperand d c body))
      (cs.flatMap items) := by
  rw [Clause.piecesAll_eq_map, List.map_map]
  exact hC.separated separator fun c hc => hC.asOperand c (h c hc)

theorem sources (first : Bool) (h : ∀ c ∈ cs, C (c.pieces d) (items c)) :
    C (Piece.sources d first (Clause.piecesAll d cs)) (cs.flatMap items) := by
  induction cs generalizing first with
  | nil => exact hC.nil
  | cons c cs ih =>
    have hc := hC.opened (Writing.sourceGap first c) (hC.asValue (d := d) c (h c List.mem_cons_self))
    exact hC.append hc (ih false fun c' hc' => h c' (List.mem_cons_of_mem c hc'))

theorem fromSection (h : ∀ c ∈ cs, C (c.pieces d) (items c)) :
    C (Piece.fromSection d (Clause.piecesAll d cs)) (cs.flatMap items) := by
  have tables := hC.sources true h
  cases cs with
  | nil =>
    unfold Piece.fromSection
    cases d.dual with
    | none => exact hC.nil
    | some dual => exact hC.text _
  | cons c cs => exact hC.opened _ tables

theorem listed (keywords : String) (h : ∀ c ∈ cs, C (c.pieces d) (items c)) :
    C (Piece.listed d keywords (Clause.piecesAll d cs)) (cs.flatMap items) := by
  have members := hC.values ", " h
  cases cs with
  | nil => exact hC.nil
  | cons c cs => exact hC.opened _ members

theorem optional (keywords : String) {o : Option Clause} (h : ∀ c ∈ o, C (c.pieces d) (items c)) :
    C (Piece.optional keywords (Clause.piecesOption d o)) (o.toList.flatMap items) := by
  cases o with
  | none => exact hC.nil
  | some c =>
    rw [Option.toList_some, List.flatMap_singleton]
    exact hC.opened keywords (h c rfl)

/-! ### Trees -/

/-- A clause has the items of what is written right below it, but for those with items of their own. -/
theorem clause {queried : Select → List α} (c : Clause) (operands : ∀ x ∈ c.operands, C (x.pieces d) (items x))
    (query : ∀ s ∈ c.query?, C (s.pieces d) (queried s))
    (plain : c.kind ∉ [.constant, .param, .builtin, .cast, .assign]) :
    C (c.pieces d) (c.written.flatMap items ++ c.query?.toList.flatMap queried) := by
  cases c <;> simp only [Clause.kind, Clause.written, Clause.operands, Clause.query?, List.mem_cons, List.not_mem_nil,
    List.flatMap_cons, List.flatMap_nil, Option.toList_none, Option.toList_some, Option.mem_some_iff, List.append_nil,
    List.nil_append, reduceCtorEq, or_self, or_false, or_true, not_true_eq_false, forall_eq, forall_eq',
    forall_eq_or_imp] at operands query plain ⊢
  case field of name => exact hC.append (hC.qualifier of) (hC.ident name)
  case allFields of => exact hC.closed "*" (hC.qualifier of)
  case table ref => exact hC.table ref
  case compare l op r => exact hC.joined _ (hC.asOperand l operands.1) (hC.asOperand r operands.2)
  case logic l op r => exact hC.joined _ (hC.wrapped _ operands.1) (hC.wrapped _ operands.2)
  case «calc» l op r =>
    exact hC.joined _ (hC.wrapped _ (hC.asValue l operands.1)) (hC.wrapped _ (hC.asValue r operands.2))
  case join kind t c => exact hC.joined _ (hC.opened _ (hC.asValue t operands.1)) operands.2
  case between c l h =>
    obtain ⟨subject, low, high⟩ := operands
    rw [← List.append_assoc]
    exact hC.joined _ (hC.joined _ (hC.asOperand c subject) (hC.asOperand l low)) (hC.asOperand h high)
  case isNull c negated => exact hC.closed _ (hC.asOperand c operands)
  case not c => exact hC.opened _ (hC.closed ")" operands)
  case aliased c name => exact hC.ended (hC.asValue c operands) (hC.opened _ (hC.ident name))
  case order c direction => exact hC.closed _ (hC.asValue c operands)
  case anyRow s | subQuery s => exact hC.opened _ (hC.closed ")" query)
  case inList c cs negated =>
    rw [Clause.pieces]
    split
    · exact hC.text _
    · exact hC.closed ")" (hC.joined _ (hC.asOperand c operands.1) (hC.values ", " operands.2))
  case function name cs => exact hC.opened _ (hC.closed ")" (hC.values ", " operands))
  case concat cs => exact hC.opened _ (hC.closed _ (hC.operands _ operands))
  case aggregate fn arg distinct =>
    cases arg with
    | none => exact hC.opened _ (hC.text "*)")
    | some arg =>
      rw [Option.toList_some, List.flatMap_singleton]
      exact hC.opened _ (hC.closed ")" (hC.asValue arg (operands arg (Option.mem_toList.2 rfl))))

/-- What is in the frame of a select has the items of its clauses, in the order of writing. -/
theorem inner {s : Select} (heading : C ((d.hooks.heading s).map .act) [])
    (trailing : C ((d.hooks.trailing s).map .act) [])
    (h : ∀ c ∈ s.clauses, C (c.pieces d) (items c)) : C (s.inner d) (s.clauses.flatMap items) := by
  obtain ⟨distinct, limit, fields, sources, filter, groupBy, having, orderBy⟩ := s
  simp only [Select.clauses, List.forall_mem_append, Option.mem_toList] at h
  obtain ⟨⟨⟨⟨⟨hF, hS⟩, hW⟩, hG⟩, hH⟩, hO⟩ := h
  have columns : C (if fields.isEmpty then [.text "*"] else Piece.values d ", " (Clause.piecesAll d fields))
      (fields.flatMap items) := by
    cases fields with
    | nil => exact hC.text _
    | cons c cs => exact hC.values ", " hF
  simp only [Select.inner, Select.clauses, List.flatMap_append]
  refine hC.ended ?_ trailing
  refine hC.append ?_ (hC.listed " ORDER BY " hO)
  refine hC.append ?_ (hC.optional " HAVING " hH)
  refine hC.append ?_ (hC.listed " GROUP BY " hG)
  refine hC.append ?_ (hC.optional " WHERE " hW)
  refine hC.append ?_ (hC.fromSection hS)
  exact hC.append (hC.opened _ (hC.opened _ heading)) columns

/-- A select has the items of its row limit and those of its clauses. -/
theorem select {s : Select} {limited : List α} (hL : C (Piece.limitFault d s.limit) limited)
    (heading : C ((d.hooks.heading s).map .act) []) (trailing : C ((d.hooks.trailing s).map .act) [])
    (frame : ∀ xs as, C xs as → C [.frame (d.hooks.opening s) xs (d.hooks.closing s)] as)
    (h : ∀ c ∈ s.clauses, C (c.pieces d) (items c)) : C (s.pieces d) (limited ++ s.clauses.flatMap items) := by
  rw [s.pieces_eq]
  exact hC.append hL (frame _ _ (hC.inner heading trailing h))

/-! ### Statements -/

theorem list (separator : String) (h : ∀ c ∈ cs, C (c.pieces d) (items c)) :
    C (Piece.list d separator cs) (cs.flatMap items) :=
  hC.values separator h

theorem filter {o : Option Clause} (h : ∀ c ∈ o, C (c.pieces d) (items c)) :
    C (Piece.filter d o) (o.toList.flatMap items) :=
  hC.optional " WHERE " h

theorem insert {i : Insert} (columns : C (Piece.separated ", " (i.columns.map (Piece.columnName d))) as)
    (rows : C (match i.source with
      | some query => query.pieces d
      | none => Piece.list d ", " i.values) bs) : C (Piece.insert d i) (as ++ bs) := by
  have named : C (if i.columns.isEmpty then [] else
      .text " (" :: Piece.separated ", " (i.columns.map (Piece.columnName d)) ++ [.text ")"]) as := by
    rcases hc : i.columns with _ | ⟨c, cs⟩
    · rw [hc] at columns
      exact columns
    · rw [hc] at columns
      exact hC.opened _ (hC.closed ")" columns)
  refine hC.append (hC.append (hC.opened _ (hC.table i.table)) named) ?_
  rcases hs : i.source with _ | query
  · rw [hs] at rows
    exact hC.opened _ (hC.closed ")" rows)
  · rw [hs] at rows
    exact hC.opened _ rows

theorem update {u : Update} (hA : ∀ c ∈ u.assignments, C (c.pieces d) (items c))
    (hW : ∀ c ∈ u.filter, C (c.pieces d) (items c)) :
    C (Piece.update d u) (u.assignments.flatMap items ++ u.filter.toList.flatMap items) :=
  hC.append (hC.joined " SET " (hC.opened _ (hC.table u.table)) (hC.list ", " hA)) (hC.filter hW)

theorem delete {s : Delete} (hW : ∀ c ∈ s.filter, C (c.pieces d) (items c)) :
    C (Piece.delete d s) (s.filter.toList.flatMap items) :=
  hC.append (hC.opened _ (hC.table s.table)) (hC.filter hW)

theorem routineCall {e : Exec} (hA : ∀ c ∈ e.args, C (c.pieces d) (items c)) :
    C (Piece.routineCall d e) (e.args.flatMap items) :=
  hC.closed ")" (hC.joined "(" (hC.table _) (hC.list ", " hA))

/-- A call has the items of its arguments, and those of the parameter for the result in front of them, or behind them
where it has no place in the text. -/
theorem exec {e : Exec} (inside : Bool) {result : Bool → List α} (hA : ∀ c ∈ e.args, C (c.pieces d) (items c))
    (hR : ∀ placed, C (e.returns.toList.map fun p => .value (.param p .result placed)) (result placed)) :
    C (Piece.exec d inside e) (match d.calls with
      | .call => e.args.flatMap items ++ result false
      | .exec | .block => result true ++ e.args.flatMap items) := by
  have received : ∀ assignment, C (Piece.receiver assignment e.returns) (result true) := by
    intro assignment
    have placed := hR true
    rcases hr : e.returns with _ | p
    · rw [hr] at placed
      exact placed
    · rw [hr] at placed
      exact hC.closed assignment placed
  cases hc : d.calls with
  | call =>
    simp only [Piece.exec, hc]
    refine hC.append (hC.opened _ (hC.routineCall hA)) ?_
    have unplaced := hR false
    rcases hr : e.returns with _ | p
    · rw [hr] at unplaced
      exact unplaced
    · rw [hr] at unplaced
      exact unplaced
  | exec =>
    simp only [Piece.exec, hc]
    have args : C (Piece.separated ", " (e.args.map (Piece.bareArg d))) (e.args.flatMap items) :=
      hC.separated ", " fun c h => hC.closed _ (hC.asValue c (hA c h))
    exact hC.joined _ (hC.ended (hC.opened _ (received " = ")) (hC.table _)) args
  | block =>
    simp only [Piece.exec, hc]
    exact hC.closed _ (hC.append (hC.opened _ (received " := ")) (hC.routineCall hA))

theorem createTable {t : CreateTable} {column : ColumnDef → List α}
    (existence : C (Piece.existence d t.ifNotExists "create table if not exists" "IF NOT EXISTS ") as)
    (columns : ∀ c ∈ t.columns, C (Piece.columnDef d c) (column c)) :
    C (Piece.createTable d t) (as ++ t.columns.flatMap column) := by
  have keys : C (if (t.columns.filter (·.primaryKey)).isEmpty then [] else
      .text ", PRIMARY KEY (" :: Piece.separated ", " ((t.columns.filter (·.primaryKey)).map fun c => [.ident c.name])
        ++ [.text ")"]) [] := by
    split
    · exact hC.nil
    · have names : C (Piece.separated ", " ((t.columns.filter (·.primaryKey)).map fun c => [.ident c.name]))
          ((t.columns.filter (·.primaryKey)).flatMap fun _ => []) := hC.separated ", " fun c _ => hC.ident c.name
      rw [List.flatMap_eq_nil_iff.2 fun _ _ => rfl] at names
      exact hC.opened _ (hC.closed ")" names)
  have opening := hC.ended (hC.opened "CREATE TABLE " existence) (hC.table t.table)
  exact hC.closed ")" (hC.ended (hC.joined " (" opening (hC.separated ", " columns)) keys)

theorem dropTable {t : DropTable}
    (existence : C (Piece.existence d t.ifExists "drop table if exists" "IF EXISTS ") as) :
    C (Piece.dropTable d t) as :=
  hC.ended (hC.opened "DROP TABLE " existence) (hC.table t.table)

variable {statement : Statement → List α} {members : List Statement}

theorem sequence (h : ∀ s ∈ members, C (s.pieces d true) (statement s)) :
    C (Piece.sequence d members) (members.flatMap statement) :=
  hC.separated "\n" fun s hs => hC.closed ";" (h s hs)

/-- Members of a block have their items; one that defines a table is written by itself. -/
theorem blockMembers (n : Nat) (h : ∀ s ∈ members, C (s.pieces d true) (statement s))
    (definition : ∀ s ∈ members, s.isDefinition →
      C (Piece.ofResult (Writing.standaloneText d s) fun t => [.text "EXECUTE IMMEDIATE ", .literal t, .text ";\n"])
        (statement s)) : C (Piece.blockMembers d n members) (members.flatMap statement) := by
  induction members generalizing n with
  | nil => exact hC.nil
  | cons s rest ih =>
    have member := h s List.mem_cons_self
    have more := fun n => ih n (fun s' hs' => h s' (List.mem_cons_of_mem s hs'))
      fun s' hs' => definition s' (List.mem_cons_of_mem s hs')
    rw [List.flatMap_cons]
    cases hr : s.givesRows with
    | true =>
      simp only [Piece.blockMembers, hr, if_true]
      exact hC.joined _ (hC.opened _ member) (more (n + 1))
    | false =>
      simp only [Piece.blockMembers, hr, Bool.false_eq_true, if_false]
      refine hC.append ?_ (more n)
      cases hd : s.isDefinition with
      | false => exact hC.closed _ member
      | true => exact definition s List.mem_cons_self hd

theorem block (h : ∀ s ∈ members, C (s.pieces d true) (statement s))
    (definition : ∀ s ∈ members, s.isDefinition →
      C (Piece.ofResult (Writing.standaloneText d s) fun t => [.text "EXECUTE IMMEDIATE ", .literal t, .text ";\n"])
        (statement s)) : C (Piece.block d members) (members.flatMap statement) :=
  hC.opened _ (hC.opened _ (hC.closed _ (hC.blockMembers 0 h definition)))

end Gathers

/-! ## Pieces that were played to the end -/

theorem faults_of_play {d : Dialect} {xs : List Piece} {s t : Pass} (h : (playAll d xs).run s = (.ok (), t)) :
    faults xs = [] := by
  induction xs using Piece.listInduction generalizing s t with
  | nil => rfl
  | stop e xs _ =>
    rw [playAll_cons] at h
    cases h
  | frame opening body closing xs ihBody ih =>
    rw [playAll_cons, play_frame] at h
    obtain ⟨_, u, hframe, hrest⟩ := Writing.run_bind_ok h
    obtain ⟨v, hv, -, -⟩ := Writing.run_inFrame_ok hframe
    obtain ⟨_, w, -, hw⟩ := Writing.run_bind_ok hv
    obtain ⟨_, y, hbody, -⟩ := Writing.run_bind_ok hw
    exact List.append_eq_nil_iff.2 ⟨ihBody hbody, ih hrest⟩
  | text _ xs ih | ident _ xs ih | literal _ xs ih | value _ xs ih | act _ xs ih =>
    rw [playAll_cons] at h
    obtain ⟨_, u, -, hrest⟩ := Writing.run_bind_ok h
    exact ih hrest

end Piece
end SqlTree
