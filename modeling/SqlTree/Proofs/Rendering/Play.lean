/-
Writing is playing pieces.

- `node_eq_play`, `select_eq_play`: a clause and a select write what their pieces play, whatever the state.
- `statement_eq_play`: so does a statement; whether it stands in a script is read off the state.
- `query_eq_play`: outside any script, a query writes what its pieces play.
- `render_eq_played`: so a rendering is the end of playing the pieces of its query.
-/
import SqlTree.Proofs.Clause.Induction
import SqlTree.Proofs.Rendering.Agreement

namespace SqlTree

/-! ## Laws of writing -/

namespace Writing

@[simp] theorem emit_empty : emit "" = pure () := by
  funext p
  show (Except.ok (), _) = (Except.ok (), _)
  simp

theorem emit_append (a b : String) : emit (a ++ b) = (do emit a; emit b) := by
  funext p
  show (Except.ok (), _) = (Except.ok (), _)
  simp [String.append_assoc]

@[simp] theorem ofResult_ok {α : Type} (a : α) : ofResult (.ok a) = (pure a : Writing α) := rfl

@[simp] theorem ofResult_error {α : Type} (e : Error) : ofResult (.error e) = (throw e : Writing α) := rfl

@[simp] theorem throw_bind {α β : Type} (e : Error) (f : α → Writing β) :
    (throw e >>= f) = (throw e : Writing β) := rfl

end Writing

/-! ## Playing lists of pieces -/

namespace Piece

open Writing (emit node)

variable (d : Dialect)

theorem play_acts (actions : List HookAction) : playAll d (actions.map .act) = Writing.actAll d actions := by
  induction actions with
  | nil => rfl
  | cons a actions ih => simp [ih, Writing.actAll]

theorem play_ofResult {α : Type} (r : Result α) (pieces : α → List Piece) :
    playAll d (ofResult r pieces) = (do let a ← Writing.ofResult r; playAll d (pieces a)) := by
  cases r with
  | ok a => simp [ofResult]
  | error e => simp [ofResult]

theorem play_wrapped (wrap : Bool) (body : List Piece) :
    playAll d (wrapped wrap body) = Writing.wrapped wrap (playAll d body) := by
  cases wrap with
  | true => simp [wrapped, Writing.wrapped]
  | false => simp [wrapped, Writing.wrapped]

theorem play_asValue (c : Clause) (body : List Piece) :
    playAll d (asValue d c body) = Writing.asValue d c (playAll d body) := by
  unfold asValue Writing.asValue
  split
  · simp
  · rfl

theorem play_asOperand (c : Clause) (body : List Piece) :
    playAll d (asOperand d c body) = Writing.asOperand d c (playAll d body) := by
  rw [asOperand, play_wrapped, play_asValue, Writing.asOperand]

theorem play_separated (separator : String) (members : List (List Piece)) :
    playAll d (separated separator members) = Writing.separated separator (members.map (playAll d)) := by
  cases members with
  | nil => rfl
  | cons xs rest =>
    simp only [separated, playAll_append, List.map_cons, Writing.separated]
    congr 1
    funext _
    induction rest with
    | nil => rfl
    | cons ys rest ih => simp [ih]

theorem play_qualifier (name : Option String) : playAll d (qualifier name) = Writing.qualifier d name := by
  cases name with
  | none => rfl
  | some name => simp [qualifier, Writing.qualifier]

theorem play_table (t : TableRef) : playAll d (table t) = Writing.table d t := by
  simp [table, Writing.table, play_qualifier]

theorem play_columnName (c : Clause) : playAll d (columnName d c) = Writing.columnName d c := by
  cases c with
  | field of name => simp [columnName, Writing.columnName]
  | _ => rfl

theorem play_limitFault (limit : Option RowLimit) :
    playAll d (limitFault d limit) = Writing.requireLimit d limit := by
  cases limit with
  | none => rfl
  | some limit => simp [limitFault, Writing.requireLimit, play_ofResult]

variable {d} in
/-- A row limit that the dialect can express is not refused. -/
theorem limitFault_of_supports {limit : Option RowLimit} (h : ∀ l ∈ limit, d.supports l.capability = true) :
    limitFault d limit = [] := by
  cases limit with
  | none => rfl
  | some l =>
    rw [limitFault, Dialect.require, if_pos (h l rfl)]
    rfl

theorem play_sequenceCall (sequence : String) (spelling : SequenceSpelling) :
    playAll d (sequenceCall sequence spelling) = emit (d.sequenceCall sequence spelling) := by
  cases spelling with
  | phrase words => simp [sequenceCall, Dialect.sequenceCall, Writing.ident, Writing.emit_append]
  | literal fn => simp [sequenceCall, Dialect.sequenceCall, Writing.emit_append]
  | member fn => simp [sequenceCall, Dialect.sequenceCall, Writing.ident, Writing.emit_append]

theorem play_builtin (fn : Builtin) :
    playAll d (builtin d fn) = (do let call ← Writing.ofResult (d.builtinCall fn); emit call) := by
  cases fn with
  | currentDate => simp [builtin, Dialect.builtinCall]
  | currentTimestamp => simp [builtin, Dialect.builtinCall]
  | lastId sequence =>
    cases hb : d.builtins.lastId with
    | constant call => simp [builtin, Dialect.builtinCall, hb]
    | ofSequence without spelling =>
      cases sequence with
      | some name => simp [builtin, Dialect.builtinCall, hb, play_sequenceCall]
      | none => cases without <;> simp [builtin, Dialect.builtinCall, hb]
  | nextId sequence =>
    simp only [builtin, Dialect.builtinCall, play_ofResult, play_sequenceCall]
    cases d.require .sequences "next-id" with
    | ok _ => rfl
    | error _ => rfl

end Piece

/-! ## Clauses and selects -/

theorem Clause.piecesAll_eq_map (d : Dialect) (cs : List Clause) :
    Clause.piecesAll d cs = cs.map fun c => (c, c.pieces d) := by
  induction cs with
  | nil => rfl
  | cons c cs ih => rw [Clause.piecesAll, ih, List.map_cons]

namespace Piece

variable (d : Dialect)

theorem zipWith_nodes {α : Type} (f : Clause → Writing Unit → α) (cs : List Clause) :
    List.zipWith f cs (Writing.nodes d cs) = cs.map fun c => f c (Writing.node d c) := by
  rw [Writing.nodes_eq_map, List.zipWith_map_right, List.zipWith_self]

theorem play_values (separator : String) {cs : List Clause}
    (h : ∀ c ∈ cs, Writing.node d c = playAll d (c.pieces d)) :
    playAll d (values d separator (Clause.piecesAll d cs)) = Writing.values d separator cs (Writing.nodes d cs) := by
  rw [values, play_separated, Clause.piecesAll_eq_map, Writing.values, zipWith_nodes, List.map_map, List.map_map]
  congr 1
  exact List.map_congr_left fun c hc => by rw [h c hc]; exact play_asValue d c _

theorem play_operands (separator : String) {cs : List Clause}
    (h : ∀ c ∈ cs, Writing.node d c = playAll d (c.pieces d)) :
    playAll d (separated separator ((Clause.piecesAll d cs).map fun (c, body) => asOperand d c body))
      = Writing.separated separator (List.zipWith (Writing.asOperand d) cs (Writing.nodes d cs)) := by
  rw [play_separated, Clause.piecesAll_eq_map, zipWith_nodes, List.map_map, List.map_map]
  congr 1
  exact List.map_congr_left fun c hc => by rw [h c hc]; exact play_asOperand d c _

theorem play_sources (first : Bool) {cs : List Clause}
    (h : ∀ c ∈ cs, Writing.node d c = playAll d (c.pieces d)) :
    playAll d (sources d first (Clause.piecesAll d cs)) = Writing.sources d first cs (Writing.nodes d cs) := by
  induction cs generalizing first with
  | nil => rfl
  | cons c cs ih =>
    have hc := h c List.mem_cons_self
    have hcs := ih false fun c' hc' => h c' (List.mem_cons_of_mem c hc')
    simp [Clause.piecesAll, sources, Writing.nodes, Writing.sources, play_asValue, hcs, hc]

theorem play_fromSection {cs : List Clause} (h : ∀ c ∈ cs, Writing.node d c = playAll d (c.pieces d)) :
    playAll d (fromSection d (Clause.piecesAll d cs)) = Writing.fromSection d cs (Writing.nodes d cs) := by
  cases cs with
  | nil =>
    cases hd : d.dual <;> simp [Clause.piecesAll, fromSection, Writing.fromSection, hd]
  | cons c cs =>
    have hs := play_sources d true h
    simp only [Clause.piecesAll, Writing.nodes] at hs
    simp [Clause.piecesAll, fromSection, Writing.fromSection, Writing.nodes, hs]

theorem play_listed (keywords : String) {cs : List Clause}
    (h : ∀ c ∈ cs, Writing.node d c = playAll d (c.pieces d)) :
    playAll d (listed d keywords (Clause.piecesAll d cs)) = Writing.listed d keywords cs (Writing.nodes d cs) := by
  cases cs with
  | nil => rfl
  | cons c cs =>
    have hv := play_values d ", " h
    simp only [Clause.piecesAll, Writing.nodes] at hv
    simp [Clause.piecesAll, listed, Writing.listed, Writing.nodes, hv]

theorem play_optional (keywords : String) {o : Option Clause}
    (h : ∀ c ∈ o, Writing.node d c = playAll d (c.pieces d)) :
    playAll d (optional keywords (Clause.piecesOption d o))
      = Writing.optional keywords (Writing.nodeOption d o) := by
  cases o with
  | none => rfl
  | some c => simp [Clause.piecesOption, optional, Writing.nodeOption, Writing.optional, h c rfl]

end Piece

open Piece (playAll play_wrapped play_asValue play_asOperand)

/-- Writing a clause is playing its pieces, if it is so right below it. -/
theorem Clause.writing_eq_play {d : Dialect} (c : Clause)
    (operands : ∀ x ∈ c.operands, Writing.node d x = playAll d (x.pieces d))
    (query : ∀ s ∈ c.query?, Writing.select d s = playAll d (s.pieces d)) :
    Writing.node d c = playAll d (c.pieces d) := by
  cases c <;> simp only [Clause.operands, Clause.query?, List.mem_cons, List.not_mem_nil, Option.mem_some_iff,
    or_false, forall_eq, forall_eq', forall_eq_or_imp] at operands query
  case field | allFields => simp [Writing.node, pieces, Piece.play_qualifier]
  case constant v => cases h : v.isNull <;> simp [Writing.node, pieces, h, Writing.literal, Occurrence.play]
  case param => simp [Writing.node, pieces, Occurrence.play, Writing.bind]
  case builtin => simp only [Writing.node, pieces, Piece.play_builtin]
  case table => simp only [Writing.node, pieces, Piece.play_table]
  case compare | isNull | between => simp [Writing.node, pieces, play_asOperand, operands]
  case logic => simp [Writing.node, pieces, play_wrapped, operands]
  case «calc» => simp [Writing.node, pieces, play_wrapped, play_asValue, operands]
  case not => simp [Writing.node, pieces, operands]
  case cast | aliased | join | order => simp [Writing.node, pieces, Piece.play_ofResult, play_asValue, operands]
  case assign => simp [Writing.node, pieces, play_asValue, Piece.play_columnName, operands]
  case anyRow | subQuery => simp [Writing.node, pieces, query]
  case function => simp [Writing.node, pieces, Piece.play_values d ", " operands]
  case concat => simp [Writing.node, pieces, Piece.play_operands d _ operands]
  case inList c cs negated =>
    have items := Piece.play_values d ", " operands.2
    cases h : cs.isEmpty <;> simp [Writing.node, pieces, play_asOperand, operands, items, h]
  case aggregate fn arg distinct =>
    cases arg with
    | none => simp [Writing.node, pieces]
    | some arg => simp [Writing.node, pieces, play_asValue, operands arg (Option.mem_toList.2 rfl)]

/-- writing clauses and selects is playing their pieces, by induction on the tree -/
theorem writing_eq_play (d : Dialect) :
    (∀ c, Writing.node d c = playAll d (c.pieces d)) ∧ ∀ s, Writing.select d s = playAll d (s.pieces d) := by
  refine Clause.operandInduction Clause.writing_eq_play fun s clauses => ?_
  obtain ⟨distinct, limit, fields, sources, filter, groupBy, having, orderBy⟩ := s
  simp only [Select.clauses, List.forall_mem_append, Option.mem_toList] at clauses
  obtain ⟨⟨⟨⟨⟨hf, hs⟩, hw⟩, hg⟩, hh⟩, ho⟩ := clauses
  cases fields with
  | nil =>
    simp [Writing.select, Select.pieces, Piece.play_limitFault, Piece.play_acts, Piece.play_fromSection d hs,
      Piece.play_optional d _ hw, Piece.play_listed d _ hg, Piece.play_optional d _ hh, Piece.play_listed d _ ho]
  | cons f fs =>
    simp [Writing.select, Select.pieces, Piece.play_limitFault, Piece.play_acts, Piece.play_values d _ hf,
      Piece.play_fromSection d hs, Piece.play_optional d _ hw, Piece.play_listed d _ hg, Piece.play_optional d _ hh,
      Piece.play_listed d _ ho]

theorem node_eq_play (d : Dialect) (c : Clause) : Writing.node d c = playAll d (c.pieces d) :=
  (writing_eq_play d).1 c

theorem select_eq_play (d : Dialect) (s : Select) : Writing.select d s = playAll d (s.pieces d) :=
  (writing_eq_play d).2 s

/-! ## Statements -/

namespace Piece

variable (d : Dialect)

theorem play_list (separator : String) (cs : List Clause) :
    playAll d (list d separator cs) = Writing.list d separator cs :=
  play_values d separator fun c _ => node_eq_play d c

theorem play_filter (predicate : Option Clause) : playAll d (filter d predicate) = Writing.filter d predicate :=
  play_optional d _ fun c _ => node_eq_play d c

theorem play_members {α : Type} {f : α → List Piece} {w : α → Writing Unit} (h : ∀ a, playAll d (f a) = w a)
    (separator : String) (members : List α) :
    playAll d (separated separator (members.map f)) = Writing.separated separator (members.map w) := by
  rw [play_separated, List.map_map]
  exact congrArg _ (List.map_congr_left fun a _ => h a)

theorem play_insert (i : Insert) : playAll d (insert d i) = Writing.insert d i := by
  have hcolumns := play_members d (play_columnName d) ", " i.columns
  cases he : i.columns.isEmpty with
  | true =>
    cases hs : i.source with
    | none => simp [insert, Writing.insert, he, hs, play_table, play_list]
    | some query => simp [insert, Writing.insert, he, hs, play_table, select_eq_play]
  | false =>
    cases hs : i.source with
    | none => simp [insert, Writing.insert, he, hs, hcolumns, play_table, play_list]
    | some query => simp [insert, Writing.insert, he, hs, hcolumns, play_table, select_eq_play]

theorem play_update (u : Update) : playAll d (update d u) = Writing.update d u := by
  simp [update, Writing.update, play_table, play_list, play_filter]

theorem play_delete (s : Delete) : playAll d (delete d s) = Writing.delete d s := by
  simp [delete, Writing.delete, play_table, play_filter]

theorem play_columnDef (c : ColumnDef) : playAll d (columnDef d c) = Writing.columnDef d c := by
  simp [columnDef, Writing.columnDef, play_ofResult]

theorem play_createTable (t : CreateTable) : playAll d (createTable d t) = Writing.createTable d t := by
  have hcolumns := play_members d (play_columnDef d) ", " t.columns
  have hkeys := play_members d (f := fun c => [.ident c.name]) (w := fun c => Writing.ident d c.name) (fun c => by simp)
    ", " (t.columns.filter (·.primaryKey))
  cases ha : t.ifNotExists <;> cases hk : (t.columns.filter (·.primaryKey)).isEmpty <;>
    simp [createTable, Writing.createTable, existence, ha, hk, hcolumns, hkeys, play_table, play_ofResult]

theorem play_dropTable (t : DropTable) : playAll d (dropTable d t) = Writing.dropTable d t := by
  cases ha : t.ifExists <;> simp [dropTable, Writing.dropTable, existence, ha, play_table, play_ofResult]

theorem play_receiver (assignment : String) (o : Option Parameter) :
    playAll d (receiver assignment o) = Writing.receiver d assignment o := by
  cases o with
  | none => rfl
  | some p => simp [receiver, Writing.receiver, Occurrence.play]

theorem play_bareArg (c : Clause) : playAll d (bareArg d c) = Writing.bareArg d c := by
  simp [bareArg, Writing.bareArg, play_asValue, Writing.clause, node_eq_play]

theorem play_routineCall (e : Exec) : playAll d (routineCall d e) = Writing.routineCall d e := by
  simp [routineCall, Writing.routineCall, Writing.routine, play_table, play_list]

/-- A call looks at the number of scripts around it, which its pieces are told beforehand. -/
theorem play_exec (e : Exec) (s : Pass) :
    (Writing.exec d e).run s = (playAll d (exec d (s.scriptDepth != 0) e)).run s := by
  cases hd : d.calls with
  | call =>
    cases hr : e.returns with
    | none => simp [exec, Writing.exec, hd, hr, play_routineCall]
    | some p => simp [exec, Writing.exec, hd, hr, play_routineCall, Occurrence.play]
  | exec =>
    have hargs := play_members d (play_bareArg d) ", " e.args
    simp [exec, Writing.exec, hd, hargs, play_receiver, play_table, Writing.routine]
  | block =>
    simp only [exec, Writing.exec, hd]
    rw [Writing.run_bind, Writing.run_get]
    by_cases h : s.scriptDepth = 0
    · simp [h, play_receiver, play_routineCall]
    · simp [h, play_receiver, play_routineCall]

end Piece

/-- **Writing a statement is playing its pieces.** -/
theorem statement_eq_play (d : Dialect) (q : Statement) (s : Pass) :
    (Writing.statement d q).run s = (playAll d (q.pieces d (s.scriptDepth != 0))).run s := by
  cases q with
  | select q => rw [Writing.statement, select_eq_play, Statement.pieces]
  | insert i => rw [Writing.statement, ← Piece.play_insert, Statement.pieces]
  | update u => rw [Writing.statement, ← Piece.play_update, Statement.pieces]
  | delete q => rw [Writing.statement, ← Piece.play_delete, Statement.pieces]
  | exec e => rw [Writing.statement, Piece.play_exec, Statement.pieces]
  | createTable t => rw [Writing.statement, ← Piece.play_createTable, Statement.pieces]
  | dropTable t => rw [Writing.statement, ← Piece.play_dropTable, Statement.pieces]

/-! ## Scripts -/

namespace Writing

/-- inside a script, the first way of writing does what the second does, which keeps the number of scripts -/
def PlaysInside (d : Dialect) (w : Writing Unit) (xs : List Piece) : Prop :=
  ∀ s : Pass, s.scriptDepth ≠ 0 → w.run s = (playAll d xs).run s

namespace PlaysInside

variable {d : Dialect}

theorem of_eq {w : Writing Unit} {xs : List Piece} (h : w = playAll d xs) : PlaysInside d w xs := fun s _ => by rw [h]

theorem text (t : String) : PlaysInside d (emit t) [.text t] := of_eq rfl

theorem statement (q : Statement) : PlaysInside d (Writing.statement d q) (q.pieces d true) := by
  intro s hs
  rw [statement_eq_play, bne_iff_ne.2 hs]

theorem seq {w v : Writing Unit} {xs ys : List Piece} (hw : PlaysInside d w xs) (hv : PlaysInside d v ys) :
    PlaysInside d (do w; v) (xs ++ ys) := by
  intro s hs
  have depth := Piece.playAll_depth d xs s
  rw [Piece.playAll_append, run_bind, run_bind, hw s hs]
  generalize (playAll d xs).run s = o at depth ⊢
  obtain ⟨_ | _, t⟩ := o
  · rfl
  · exact hv t fun h => hs (depth.symm.trans h)

theorem separated {α : Type} {f : α → List Piece} {w : α → Writing Unit} (h : ∀ a, PlaysInside d (w a) (f a))
    (separator : String) (members : List α) :
    PlaysInside d (Writing.separated separator (members.map w)) (Piece.separated separator (members.map f)) := by
  cases members with
  | nil => exact of_eq rfl
  | cons a rest =>
    refine (h a).seq ?_
    induction rest with
    | nil => exact of_eq rfl
    | cons b rest ih => exact ((text separator).seq (h b)).seq ih

theorem sequence (members : List Statement) :
    PlaysInside d (Writing.sequence d members) (Piece.sequence d members) :=
  separated (fun q => (statement q).seq (text ";")) "\n" members

theorem blockMembers (n : Nat) (members : List Statement) :
    PlaysInside d (Writing.blockMembers d n members) (Piece.blockMembers d n members) := by
  induction members generalizing n with
  | nil => exact of_eq rfl
  | cons q rest ih =>
    cases hr : q.givesRows with
    | true =>
      simp only [Writing.blockMembers, Piece.blockMembers, hr, if_true]
      exact (text _).seq ((statement q).seq ((text _).seq (ih (n + 1))))
    | false =>
      cases hd : q.isDefinition with
      | true =>
        simp only [Writing.blockMembers, Piece.blockMembers, hr, hd, Bool.false_eq_true, if_false, if_true]
        cases standaloneText d q with
        | ok t =>
          have given : PlaysInside d (emit ("EXECUTE IMMEDIATE " ++ Dialect.literal t ++ ";\n"))
              [.text "EXECUTE IMMEDIATE ", .literal t, .text ";\n"] := of_eq (by simp [emit_append])
          exact given.seq (ih n)
        | error e => exact of_eq (by simp [Piece.ofResult])
      | false =>
        simp only [Writing.blockMembers, Piece.blockMembers, hr, hd, Bool.false_eq_true, if_false, List.append_assoc]
        exact (statement q).seq ((text _).seq (ih n))

/-- Entering a script and leaving it again changes nothing but what is played inside. -/
theorem inScript {w : Writing Unit} {xs : List Piece} (h : PlaysInside d w xs) (s : Pass) :
    (Writing.inScript w).run s = (playAll d xs).run s := by
  have inside : (s.atDepth (s.scriptDepth + 1)).scriptDepth ≠ 0 := Nat.succ_ne_zero _
  have depth := Piece.playAll_depth d xs s
  rw [run_inScript, h _ inside, Piece.playAll_atDepth]
  show (_, Pass.atDepth s.scriptDepth _) = _
  rw [← depth]
  rfl

theorem block (members : List Statement) :
    PlaysInside d (Writing.block d members) (Piece.block d members) :=
  (text _).seq ((text _).seq ((blockMembers 0 members).seq (text _)))

end PlaysInside
end Writing

/-- **Writing a query is playing its pieces**, outside of any script. -/
theorem query_eq_play (d : Dialect) (q : Query) (s : Pass) (h : s.scriptDepth = 0) :
    (Writing.query d q).run s = (playAll d (q.pieces d)).run s := by
  cases q with
  | single q =>
    rw [Writing.query, statement_eq_play, h]
    rfl
  | script members =>
    rw [Writing.query, Query.pieces, Piece.play_ofResult]
    cases d.require .scripts "script" with
    | error e => rfl
    | ok _ =>
      simp only [Writing.ofResult_ok, pure_bind]
      cases d.scripts with
      | sequence => exact (Writing.PlaysInside.sequence members).inScript s
      | block => exact (Writing.PlaysInside.block members).inScript s

/-- the outcome of playing the pieces of a query, and the pass it leaves -/
def Query.played (d : Dialect) (q : Query) (supply : Supply) : Except Error Unit × Pass :=
  (playAll d (q.pieces d)).run ((Pass.start supply).reserve d q.paramNames)

/-- **What is rendered is what is played.** -/
theorem render_eq_played (d : Dialect) (q : Query) (supply : Supply) :
    render d q supply
      = ⟨(q.played d supply).1.map fun _ => (q.played d supply).2.finish, (q.played d supply).2.produced⟩ := by
  rw [render, query_eq_play d q _ rfl]
  rfl

/-- What is rendered is what a query that was played to the end leaves. -/
theorem Query.played_of_render {d : Dialect} {q : Query} {supply : Supply} {r : Rendered}
    (h : (render d q supply).result = .ok r) : (q.played d supply).1 = .ok () ∧ (q.played d supply).2.finish = r := by
  rw [render_eq_played] at h
  rcases hp : (q.played d supply).1 with e | _
  · rw [hp] at h
    cases h
  · rw [hp] at h
    exact ⟨rfl, Except.ok.inj h⟩

end SqlTree
