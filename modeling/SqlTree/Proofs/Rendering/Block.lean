/-
A script in a block.

In a block each statement of a script has a segment of its own. A select is opened as a cursor, which is returned; what
defines a table is a string literal that is carried out; and a call loses the block that it has by itself. `Segment` is
the text of a segment in its parts, and `Member` says what the parts are in the state in which the statement is written.

- `blockMember_segment`: what one statement adds to a block, and `blockMembers_segments`: what all of them add.
- `render_block`: the text of a script in a block.
-/
import SqlTree.Proofs.Rendering.Staging
import SqlTree.Proofs.Scanning.Scan
import SqlTree.Proofs.Statement.Given

namespace SqlTree

open Writing (Added Splices)

/-! ## Segments -/

/-- the cursors of a block with so many of them, in the order in which they are declared -/
def cursorNames (count : Nat) : List String := (List.range' 1 count).map fun n => "c" ++ Decimal.ofNat n

def declarations (cursors : List String) : String :=
  if cursors.isEmpty then "" else "DECLARE\n" ++ String.join (cursors.map (· ++ " SYS_REFCURSOR;\n"))

/-- the part of a block that stands for one statement -/
inductive Segment where
  /-- a cursor is opened for a query and returned -/
  | rows (cursor query : String)
  /-- the content of a string literal is carried out -/
  | dynamic (content : String)
  /-- a statement of the block -/
  | plain (text : String)

namespace Segment

def text : Segment → String
  | .rows cursor query =>
    "OPEN " ++ cursor ++ " FOR " ++ query ++ ";\nDBMS_SQL.RETURN_RESULT(" ++ cursor ++ ");\n"
  | .dynamic content => "EXECUTE IMMEDIATE '" ++ content ++ "';\n"
  | .plain text => text ++ ";\n"

@[simp] theorem text_rows (cursor query : String) : (rows cursor query).text
    = "OPEN " ++ cursor ++ " FOR " ++ query ++ ";\nDBMS_SQL.RETURN_RESULT(" ++ cursor ++ ");\n" := rfl

@[simp] theorem text_dynamic (content : String) :
    (dynamic content).text = "EXECUTE IMMEDIATE '" ++ content ++ "';\n" := rfl

@[simp] theorem text_plain (t : String) : (plain t).text = t ++ ";\n" := rfl

/-- the cursor that a segment opens and returns -/
def cursor? : Segment → Option String
  | .rows cursor _ => some cursor
  | .dynamic _ | .plain _ => none

end Segment

def Pass.withText (t : Pass) (text : String) : Pass := { t with text := text }

/-- What stands for a statement in a block that is written from one pass to another. The query of a cursor is what the
select adds behind the opening of the cursor. The content of a literal, its single quotes undoubled, is the statement
rendered by itself. A call is what it is outside of a script, without the block around it. -/
inductive Member (d : Dialect) (p : Pass) : Statement → Segment → Pass → Prop
  | rows {s : Select} {cursor query : String} {t : Pass}
    (written : (Writing.select d s).Added (p.withText (p.text ++ ("OPEN " ++ cursor ++ " FOR "))) t query) :
    Member d p (.select s) (.rows cursor query) (t.withText (p.text ++ (Segment.rows cursor query).text))
  | dynamic {s : Statement} {content : String} (defines : s.isDefinition = true)
    (alone : ∀ supply, ∃ r, (render d (.single s) supply).result = .ok r ∧ ∀ rest : List Char, rest.head? ≠ some '\'' →
      region '\'' (content.toList ++ '\'' :: rest) = some (r.sql.toList, rest)) :
    Member d p s (.dynamic content) (p.withText (p.text ++ (Segment.dynamic content).text))
  | call {e : Exec} {text : String} {t : Pass} (inside : (Writing.exec d e).Added p t text)
    (outside : ∃ u, (Writing.exec d e).Added (p.atDepth 0) u ("BEGIN " ++ text ++ "; END;")) :
    Member d p (.exec e) (.plain text) (t.withText (p.text ++ (Segment.plain text).text))
  | plain {s : Statement} {text : String} {t : Pass} (rows : s.givesRows = false) (defines : s.isDefinition = false)
    (call : s.kind ≠ .exec) (written : (Writing.statement d s).Added p t text) :
    Member d p s (.plain text) (t.withText (p.text ++ (Segment.plain text).text))

/-- statements and their segments in a block, each written from the pass that the one before has left -/
inductive Members (d : Dialect) : Pass → List Statement → List Segment → Pass → Prop
  | nil (p : Pass) : Members d p [] [] p
  | cons {p q t : Pass} {s : Statement} {rest : List Statement} {segment : Segment} {segments : List Segment}
    (first : Member d p s segment q) (behind : Members d q rest segments t) :
    Members d p (s :: rest) (segment :: segments) t

theorem Member.text_eq {d : Dialect} {p q : Pass} {s : Statement} {segment : Segment} (h : Member d p s segment q) :
    q.text = p.text ++ segment.text := by
  cases h <;> rfl

theorem Members.text_eq {d : Dialect} {p t : Pass} {members : List Statement} {segments : List Segment}
    (h : Members d p members segments t) : t.text = p.text ++ String.join (segments.map Segment.text) := by
  induction h with
  | nil p => exact String.append_empty.symm
  | cons first _ ih => rw [ih, first.text_eq, List.map_cons, String.join_cons, String.append_assoc]

/-! ## Cursors -/

theorem cursorNames_nodup (count : Nat) : (cursorNames count).Nodup := by
  refine List.Nodup.map (fun m n same => ?_) (List.nodup_range' 1 Nat.one_pos)
  exact Decimal.ofNat_injective ((String.append_right_inj "c").1 same)

theorem cursorDeclarations_eq (count : Nat) : Writing.cursorDeclarations count = declarations (cursorNames count) := by
  cases count with
  | zero => rfl
  | succ n =>
    simp only [Writing.cursorDeclarations, declarations, cursorNames, List.range'_eq_map_range, List.map_map]
    simp [Function.comp_def, Nat.add_comm 1]

/-! ## Statements -/

/-- a dialect that writes the statements of a script in a block, and calls routines in blocks -/
structure Dialect.Blocked (d : Dialect) : Prop where
  capable : d.supports .scripts = true
  scripts : d.scripts = .block
  calls : d.calls = .block
  hooks : d.hooks.Orderly

theorem statement_depth (d : Dialect) (s : Statement) (p : Pass) :
    ((Writing.statement d s).run p).2.scriptDepth = p.scriptDepth := by
  rw [statement_eq_play]
  exact Piece.playAll_depth d _ p

theorem statement_adds {d : Dialect} (hooks : d.hooks.Orderly) {s : Statement}
    (regular : ∀ i, s = .insert i → i.Regular) {p t : Pass} (ran : (Writing.statement d s).run p = (.ok (), t)) :
    ∃ text, (Writing.statement d s).Added p t text := by
  have meets := (Piece.Meets.refuses d).statement (Piece.Meets.ignoresHooks hooks) (p.scriptDepth != 0) regular
  have played := ran
  rw [statement_eq_play] at played
  obtain ⟨text, added⟩ := meets.orderly.adds p t played
  exact ⟨text, ran, added.text, added.frames⟩

/-- A definition of a table ends alike in every pass that has just begun. -/
theorem definition_alone {d : Dialect} {s : Statement} (defines : s.isDefinition = true) {text : String}
    (h : Writing.standaloneText d s = .ok text) (supply : Supply) :
    ∃ r, (render d (.single s) supply).result = .ok r ∧ r.sql = text := by
  have spliced : Splices (Piece.playAll d (s.pieces d false)) := (Piece.Spliced.refuses d).tableDefinition defines false
  have written : ∀ p : Pass, p.scriptDepth = 0 →
      (Writing.statement d s).run p = (Piece.playAll d (s.pieces d false)).run p := fun p outside => by
    rw [statement_eq_play, outside]
    rfl
  have unnamed : (Query.single s).paramNames = [] := by cases s <;> first | rfl | cases defines
  rw [Writing.standaloneText, written _ rfl] at h
  rcases ran : (Piece.playAll d (s.pieces d false)).run (Pass.start fun _ _ => .null) with ⟨e | _, t⟩
  · rw [ran] at h
    cases h
  · rw [ran] at h
    obtain rfl : t.text = text := Except.ok.inj h
    obtain ⟨x, alike⟩ := spliced.adds_alike ran
    obtain ⟨t', first⟩ := alike (Pass.start fun _ _ => .null) rfl
    obtain ⟨u, added⟩ := alike (Pass.start supply) rfl
    obtain rfl : t = t' := (Prod.mk.inj (ran.symm.trans first.ran)).2
    refine ⟨u.finish, ?_, added.text.trans first.text.symm⟩
    have same : (Writing.query d (.single s)).run ((Pass.start supply).reserve d (Query.single s).paramNames)
        = (.ok (), u) := by
      rw [unnamed, ← added.ran]
      exact written _ rfl
    rw [render, same]
    rfl

/-- What a call writes between the words of its block. -/
def Writing.calling (d : Dialect) (e : Exec) : Writing Unit := do
  Writing.receiver d " := " e.returns
  Writing.routineCall d e

theorem Writing.calling_splices (d : Dialect) (e : Exec) : Splices (Writing.calling d e) := by
  have hC := Piece.Spliced.refuses d
  have received : Splices (Writing.receiver d " := " e.returns) := by
    rw [← Piece.play_receiver]
    cases e.returns with
    | none => exact .pure ()
    | some p => exact (Splices.occurrence d (.param p .result true)).seq ((Splices.emit " := ").seq (.pure ()))
  have call : Splices (Writing.routineCall d e) := by
    rw [← Piece.play_routineCall]
    exact hC.routineCall fun c _ => c.spliced d
  exact received.seq call

namespace Dialect.Blocked

variable {d : Dialect} (hd : d.Blocked)

include hd

theorem exec_inside (e : Exec) {p : Pass} (inside : p.scriptDepth ≠ 0) :
    (Writing.exec d e).run p = (Writing.calling d e).run p := by
  simp only [Writing.exec, hd.calls]
  rw [Writing.run_bind, Writing.run_get]
  simp [inside, Writing.calling]

theorem exec_outside (e : Exec) {p : Pass} (outside : p.scriptDepth = 0) :
    (Writing.exec d e).run p
      = (do Writing.emit "BEGIN "; Writing.calling d e; Writing.emit "; END;" : Writing Unit).run p := by
  simp only [Writing.exec, hd.calls]
  rw [Writing.run_bind, Writing.run_get]
  simp [outside, Writing.calling]

/-- A call adds in a script what it adds outside of it between the words of its block. -/
theorem exec_unwrapped {e : Exec} {p t : Pass} (inside : p.scriptDepth ≠ 0)
    (ran : (Writing.exec d e).run p = (.ok (), t)) : ∃ text, (Writing.exec d e).Added p t text
      ∧ ∃ u, (Writing.exec d e).Added (p.atDepth 0) u ("BEGIN " ++ text ++ "; END;") := by
  have own := ran
  rw [hd.exec_inside e inside] at own
  obtain ⟨text, alike⟩ := (Writing.calling_splices d e).adds_alike own
  obtain ⟨t', here⟩ := alike p rfl
  obtain rfl : t = t' := (Prod.mk.inj (own.symm.trans here.ran)).2
  obtain ⟨u, there⟩ := alike ((p.atDepth 0).withText (p.text ++ "BEGIN ")) rfl
  refine ⟨text, ⟨ran, here.text, here.frames⟩, u.withText (u.text ++ "; END;"), ?_, ?_, there.frames⟩
  · rw [hd.exec_outside e rfl, Writing.run_bind]
    show (do Writing.calling d e; Writing.emit "; END;" : Writing Unit).run
      ((p.atDepth 0).withText (p.text ++ "BEGIN ")) = _
    rw [Writing.run_bind, there.ran]
    rfl
  · show u.text ++ "; END;" = p.text ++ ("BEGIN " ++ text ++ "; END;")
    rw [there.text]
    show p.text ++ "BEGIN " ++ text ++ "; END;" = _
    simp only [String.append_assoc]

end Dialect.Blocked

/-! ## Blocks -/

/-- What a statement adds to a block that has `n` cursors before it. -/
def Writing.blockMember (d : Dialect) (n : Nat) (s : Statement) : Writing Unit :=
  if s.givesRows then do
    emit ("OPEN " ++ ("c" ++ Decimal.ofNat (n + 1)) ++ " FOR ")
    statement d s
    emit (";\nDBMS_SQL.RETURN_RESULT(" ++ ("c" ++ Decimal.ofNat (n + 1)) ++ ");\n")
  else if s.isDefinition then do
    let text ← ofResult (standaloneText d s)
    emit ("EXECUTE IMMEDIATE " ++ Dialect.literal text ++ ";\n")
  else do
    statement d s
    emit ";\n"

theorem Writing.blockMembers_cons (d : Dialect) (n : Nat) (s : Statement) (rest : List Statement) :
    Writing.blockMembers d n (s :: rest)
      = (do Writing.blockMember d n s; Writing.blockMembers d (if s.givesRows then n + 1 else n) rest) := by
  rw [Writing.blockMembers, Writing.blockMember]
  split
  · simp only [bind_assoc]
  · split <;> simp only [bind_assoc]

/-- the pass in which the first of some statements is written in a block -/
def Pass.enterBlock (p : Pass) (members : List Statement) : Pass :=
  (p.atDepth (p.scriptDepth + 1)).withText
    (p.text ++ (declarations (cursorNames (members.filter Statement.givesRows).length) ++ "BEGIN\n"))

/-- The literal of a text is read back as the text, up to its closing quote. -/
theorem dynamic_text (text : String) :
    ∃ content, "EXECUTE IMMEDIATE " ++ Dialect.literal text ++ ";\n" = (Segment.dynamic content).text
      ∧ ∀ rest : List Char, rest.head? ≠ some '\'' →
        region '\'' (content.toList ++ '\'' :: rest) = some (text.toList, rest) := by
  have quoted : Dialect.literal text = String.ofList ['\''] ++ String.ofList (Dialect.quotedChars '\'' text.toList)
      ++ String.ofList ['\''] := by
    rw [← String.ofList_append, ← String.ofList_append]
    rfl
  have opening : "EXECUTE IMMEDIATE '" = "EXECUTE IMMEDIATE " ++ String.ofList ['\''] := by decide
  have closing : "';\n" = String.ofList ['\''] ++ ";\n" := by decide
  refine ⟨String.ofList (Dialect.quotedChars '\'' text.toList), ?_, fun rest h => ?_⟩
  · rw [Segment.text_dynamic, quoted, opening, closing]
    simp only [String.append_assoc]
  · rw [String.toList_ofList]
    exact region_quotedChars '\'' text.toList h

/-- A select is opened as a cursor and returned. -/
theorem rows_segment {d : Dialect} (hooks : d.hooks.Orderly) {cursor : String} {s : Statement}
    (rows : s.givesRows = true) {p t : Pass} (ran : (do
      Writing.emit ("OPEN " ++ cursor ++ " FOR ")
      Writing.statement d s
      Writing.emit (";\nDBMS_SQL.RETURN_RESULT(" ++ cursor ++ ");\n") : Writing Unit).run p = (.ok (), t)) :
    ∃ segment, Member d p s segment t ∧ t.scriptDepth = p.scriptDepth ∧ segment.cursor? = some cursor := by
  cases s with
  | select s =>
    obtain ⟨_, q, opened, written⟩ := Writing.run_bind_ok ran
    obtain ⟨_, u, own, closed⟩ := Writing.run_bind_ok written
    cases opened
    cases closed
    obtain ⟨query, added⟩ := statement_adds hooks (s := .select s) nofun own
    have depth : u.scriptDepth = p.scriptDepth := by
      have kept := statement_depth d (.select s) (p.withText (p.text ++ ("OPEN " ++ cursor ++ " FOR ")))
      exact (congrArg (fun r => r.2.scriptDepth) added.ran).symm.trans kept
    have text : u.text = p.text ++ ("OPEN " ++ cursor ++ " FOR ") ++ query := added.text
    have spelled : u.text ++ (";\nDBMS_SQL.RETURN_RESULT(" ++ cursor ++ ");\n")
        = p.text ++ (Segment.rows cursor query).text := by
      rw [text, Segment.text_rows]
      simp only [String.append_assoc]
    refine ⟨.rows cursor query, ?_, depth, rfl⟩
    show Member d p (.select s) (.rows cursor query)
      (u.withText (u.text ++ (";\nDBMS_SQL.RETURN_RESULT(" ++ cursor ++ ");\n")))
    rw [spelled]
    exact .rows added
  | _ => cases rows

section
variable {d : Dialect} (hd : d.Blocked)

include hd

/-- **What one statement adds to a block**: the segment that stands for it, with the next cursor if it gives rows. -/
theorem blockMember_segment {n : Nat} {s : Statement} (regular : ∀ i, s = .insert i → i.Regular) {p t : Pass}
    (inside : p.scriptDepth ≠ 0) (ran : (Writing.blockMember d n s).run p = (.ok (), t)) :
    ∃ segment, Member d p s segment t ∧ t.scriptDepth = p.scriptDepth
      ∧ segment.cursor? = if s.givesRows then some ("c" ++ Decimal.ofNat (n + 1)) else none := by
  rw [Writing.blockMember] at ran
  by_cases rows : s.givesRows
  · rw [if_pos rows] at ran ⊢
    exact rows_segment hd.hooks rows ran
  · rw [if_neg rows] at ran ⊢
    by_cases defines : s.isDefinition
    · rw [if_pos defines] at ran
      obtain ⟨text, q, given, written⟩ := Writing.run_bind_ok ran
      rcases alone : Writing.standaloneText d s with e | own
      · rw [alone] at given
        cases given
      · rw [alone] at given
        cases given
        cases written
        obtain ⟨content, spelled, reads⟩ := dynamic_text text
        refine ⟨.dynamic content, ?_, rfl, rfl⟩
        show Member d p s (.dynamic content)
          (p.withText (p.text ++ ("EXECUTE IMMEDIATE " ++ Dialect.literal text ++ ";\n")))
        rw [spelled]
        refine .dynamic defines fun supply => ?_
        obtain ⟨r, rendered, rfl⟩ := definition_alone defines alone supply
        exact ⟨r, rendered, reads⟩
    · rw [if_neg defines] at ran
      obtain ⟨_, q, own, closed⟩ := Writing.run_bind_ok ran
      cases closed
      have depth : q.scriptDepth = p.scriptDepth := by
        have kept := statement_depth d s p
        rwa [own] at kept
      obtain ⟨text, added⟩ := statement_adds hd.hooks regular own
      have spelled : q.text ++ ";\n" = p.text ++ (Segment.plain text).text := by
        rw [added.text, Segment.text_plain, String.append_assoc]
      refine ⟨.plain text, ?_, depth, rfl⟩
      show Member d p s (.plain text) (q.withText (q.text ++ ";\n"))
      rw [spelled]
      by_cases call : s.kind = .exec
      · cases s with
        | exec e =>
          obtain ⟨x, here, outside⟩ := hd.exec_unwrapped inside own
          obtain rfl : text = x := (String.append_right_inj p.text).1 (added.text.symm.trans here.text)
          exact .call here outside
        | _ => cases call
      · exact .plain (by simpa using rows) (by simpa using defines) call added

/-- **What statements add to a block**, by induction on them: their segments in order, with the cursors in order. -/
theorem blockMembers_segments {n : Nat} {members : List Statement}
    (regular : ∀ s ∈ members, ∀ i, s = .insert i → i.Regular) {p t : Pass} (inside : p.scriptDepth ≠ 0)
    (ran : (Writing.blockMembers d n members).run p = (.ok (), t)) :
    ∃ segments, Members d p members segments t
      ∧ segments.filterMap Segment.cursor?
        = (List.range' (n + 1) (members.filter Statement.givesRows).length).map fun i => "c" ++ Decimal.ofNat i := by
  induction members generalizing n p with
  | nil =>
    cases ran
    exact ⟨[], .nil _, rfl⟩
  | cons s rest ih =>
    rw [Writing.blockMembers_cons] at ran
    obtain ⟨_, q, first, behind⟩ := Writing.run_bind_ok ran
    obtain ⟨segment, member, depth, cursor⟩ := blockMember_segment hd (regular s List.mem_cons_self) inside first
    have regular' := fun s' hs' => regular s' (List.mem_cons_of_mem s hs')
    obtain ⟨segments, others, cursors⟩ := ih regular' (by rwa [depth]) behind
    refine ⟨segment :: segments, .cons member others, ?_⟩
    rw [List.filterMap_cons, cursor, cursors]
    cases rows : s.givesRows <;> simp [rows, List.range'_succ]

/-- A script is written between the declarations and the end of its block. -/
theorem script_segments {members : List Statement} (regular : ∀ s ∈ members, ∀ i, s = .insert i → i.Regular)
    {p t : Pass} (ran : (Writing.query d (.script members)).run p = (.ok (), t)) :
    ∃ segments u, Members d (p.enterBlock members) members segments u
      ∧ segments.filterMap Segment.cursor? = cursorNames (members.filter Statement.givesRows).length
      ∧ t.text = u.text ++ "END;" := by
  have capable : d.require .scripts "script" = .ok () := by rw [Dialect.require, if_pos hd.capable]
  have block : (Writing.inScript (Writing.block d members)).run p = (.ok (), t) := by
    rw [Writing.query, capable, hd.scripts] at ran
    exact ran
  rw [Writing.run_inScript, Prod.mk.injEq] at block
  obtain ⟨ended, rfl⟩ := block
  obtain ⟨v, written⟩ : ∃ v, (Writing.block d members).run (p.atDepth (p.scriptDepth + 1)) = (.ok (), v) :=
    ⟨_, Prod.ext ended rfl⟩
  rw [written]
  obtain ⟨_, q, declared, begun⟩ := Writing.run_bind_ok written
  obtain ⟨_, q', begin, inner⟩ := Writing.run_bind_ok begun
  obtain ⟨_, u, parts, closed⟩ := Writing.run_bind_ok inner
  cases declared
  cases begin
  cases closed
  have start : (Writing.blockMembers d 0 members).run (p.enterBlock members) = (.ok (), u) := by
    rw [Pass.enterBlock, ← String.append_assoc, ← cursorDeclarations_eq]
    exact parts
  obtain ⟨segments, written, cursors⟩ := blockMembers_segments hd regular (Nat.succ_ne_zero _) start
  exact ⟨segments, u, written, cursors, rfl⟩

end

theorem Dialect.oracle_blocked : Dialect.oracle.Blocked where
  capable := rfl
  scripts := rfl
  calls := rfl
  hooks := (Dialect.readable_of_mem (by simp [Dialect.all])).hooks.orderly

/-- **A script in a block.** What is rendered of a script on Oracle are the declarations of its cursors, if it has
any, and between BEGIN and END a segment for each statement, in order. There are as many cursors as selects, with
names that tell them apart, and in order each is opened and returned in one segment. What the segments are `Members`
says: a cursor is opened for what its select adds there, a definition of a table is the literal of its own rendering,
and a call is what it is outside of a script, without its block.

That no statement of a script is a script is so by the type `Statement` (`Statement.kind_ne_script`). What makes it so
of a script that is put into a script is `Query.ofList`, which takes it apart (`Query.ofList_script`). -/
theorem render_block {q : Query} (given : q.Given) (script : q.kind = .script) {supply : Supply} {r : Rendered}
    (h : (render .oracle q supply).result = .ok r) :
    (∀ s ∈ q.statements, s.kind ≠ .script)
      ∧ (cursorNames (q.statements.filter Statement.givesRows).length).Nodup
      ∧ ∃ segments t, Members .oracle (((Pass.start supply).reserve .oracle q.paramNames).enterBlock q.statements)
          q.statements segments t
        ∧ segments.filterMap Segment.cursor? = cursorNames (q.statements.filter Statement.givesRows).length
        ∧ r.sql = declarations (cursorNames (q.statements.filter Statement.givesRows).length) ++ "BEGIN\n"
          ++ String.join (segments.map Segment.text) ++ "END;" := by
  cases q with
  | single s => exact absurd script s.kind_ne_script
  | script members =>
    have regular : ∀ s ∈ members, ∀ i, s = .insert i → i.Regular := fun s hs i hi => given.regular i (hi ▸ hs)
    rw [render] at h
    rcases ran : (Writing.query .oracle (.script members)).run
      ((Pass.start supply).reserve .oracle (Query.script members).paramNames) with ⟨e | _, u⟩
    · rw [ran] at h
      cases h
    · rw [ran] at h
      obtain rfl : u.finish = r := Except.ok.inj h
      obtain ⟨segments, t, written, cursors, text⟩ := script_segments Dialect.oracle_blocked regular ran
      refine ⟨fun s _ => s.kind_ne_script, cursorNames_nodup _, segments, t, written, cursors, ?_⟩
      show u.text = _
      rw [text, written.text_eq]
      exact congrArg (· ++ _ ++ "END;") (String.empty_append ..)

def countOrders : Select := .mk false none [.aggregate .count none false] [.ofTable "orders"] none [] none []

def ownersTable : CreateTable := ⟨⟨none, "owner's"⟩, [⟨"id", .int, false, true⟩], false⟩

def roundAmount : Exec := ⟨"billing.round", [.param (.fixed 0 (.int 7))], some (.output 1 .int)⟩

/-- a script in a script: orders are counted, a table is created, a routine called, and orders are counted again -/
def recount : Query :=
  .ofList [.ofList [.single (.select countOrders), .single (.createTable ownersTable)], .single (.exec roundAmount),
    .single (.select countOrders)]

theorem render_block_recount :
    recount.Given ∧ recount.kind = .script
      ∧ ∃ r segments t, (render .oracle recount fun _ _ => .null).result = .ok r
        ∧ Members .oracle
          (((Pass.start fun _ _ => .null).reserve .oracle recount.paramNames).enterBlock recount.statements)
          recount.statements segments t
        ∧ segments.filterMap Segment.cursor? = ["c1", "c2"]
        ∧ r.sql = "DECLARE\nc1 SYS_REFCURSOR;\nc2 SYS_REFCURSOR;\n" ++ "BEGIN\n"
          ++ String.join (segments.map Segment.text) ++ "END;"
        ∧ r.sql = "DECLARE\nc1 SYS_REFCURSOR;\nc2 SYS_REFCURSOR;\nBEGIN\n"
          ++ "OPEN c1 FOR SELECT COUNT(*) FROM \"orders\";\nDBMS_SQL.RETURN_RESULT(c1);\n"
          ++ "EXECUTE IMMEDIATE 'CREATE TABLE \"owner''s\" (\"id\" NUMBER(10) NOT NULL, PRIMARY KEY (\"id\"))';\n"
          ++ ":p1 := \"billing\".\"round\"(:p2);\n"
          ++ "OPEN c2 FOR SELECT COUNT(*) FROM \"orders\";\nDBMS_SQL.RETURN_RESULT(c2);\nEND;" := by
  have counting : SelectDraft.build [.aggregate .count none, .source "orders"] = .ok countOrders := rfl
  have created : [CreateTableStep.column ⟨"id", .int, false, true⟩].foldl CreateTable.apply
    ⟨⟨none, "owner's"⟩, [], false⟩ = ownersTable := rfl
  have called : [ExecStep.arg (.param (.fixed 0 (.int 7))), .returns (.output 1 .int)].foldlM Exec.apply
    ⟨"billing.round", [], none⟩ = .ok roundAmount := rfl
  have given : recount.Given := by
    refine .script ?_
    simp only [List.forall_mem_cons]
    refine ⟨.script ?_, .exec called, .select counting, List.forall_mem_nil _⟩
    simp only [List.forall_mem_cons]
    exact ⟨.select counting, .createTable created rfl, List.forall_mem_nil _⟩
  have shown : (render .oracle recount fun _ _ => .null).result.toOption.map Rendered.sql = some
      ("DECLARE\nc1 SYS_REFCURSOR;\nc2 SYS_REFCURSOR;\nBEGIN\n"
        ++ "OPEN c1 FOR SELECT COUNT(*) FROM \"orders\";\nDBMS_SQL.RETURN_RESULT(c1);\n"
        ++ "EXECUTE IMMEDIATE 'CREATE TABLE \"owner''s\" (\"id\" NUMBER(10) NOT NULL, PRIMARY KEY (\"id\"))';\n"
        ++ ":p1 := \"billing\".\"round\"(:p2);\n"
        ++ "OPEN c2 FOR SELECT COUNT(*) FROM \"orders\";\nDBMS_SQL.RETURN_RESULT(c2);\nEND;") := by decide +kernel
  have names : cursorNames (recount.statements.filter Statement.givesRows).length = ["c1", "c2"] := by decide
  have declared : declarations ["c1", "c2"] = "DECLARE\nc1 SYS_REFCURSOR;\nc2 SYS_REFCURSOR;\n" := by decide
  rcases hr : (render .oracle recount fun _ _ => .null).result with e | r
  · rw [hr] at shown
    cases shown
  · rw [hr] at shown
    obtain ⟨-, -, segments, t, members, cursors, sql⟩ := render_block given rfl hr
    rw [names] at cursors sql
    rw [declared] at sql
    exact ⟨given, rfl, r, segments, t, rfl, members, cursors, sql, Option.some.inj shown⟩

end SqlTree
