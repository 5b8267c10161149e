/-
Reading rendered statements back.

- `scan_render`: a scan of a rendered text never ends inside quotes, finds in quotes exactly the names that
  the statement emits, whatever characters they have, and outside of quotes the placeholders of its
  parameters, all in order.

Premises: the names of functions and the explicit names of parameters, which are written as they are, are words; and
no statement of a block defines a table, for those are given as string literals.
-/
import SqlTree.Proofs.Rendering.Naming
import SqlTree.Proofs.Scanning.Clause

namespace SqlTree

namespace Reads

variable {d : Dialect} (hd : d.Readable) {xs ys : List Piece} {as bs : List Region}

include hd

/-! ## Statements -/

theorem clause (c : Clause) (hw : ∀ f ∈ c.functionNames, IsWord f) : Reads d false (c.pieces d) (c.emitted d) :=
  (reads_pieces hd).1 c hw

theorem select (s : Select) (hw : ∀ f ∈ s.functionNames, IsWord f) : Reads d false (s.pieces d) (s.emitted d) :=
  (reads_pieces hd).2 s hw

theorem list {cs : List Clause} (hw : ∀ f ∈ Clause.functionNamesAll cs, IsWord f) :
    Reads d false (Piece.list d ", " cs) (Clause.emittedAll d cs) :=
  values hd fun c hc => clause hd c fun f hf => hw f (Clause.mem_functionNamesAll hc hf)

theorem filter {c : Option Clause} (hw : ∀ f ∈ Clause.functionNamesOption c, IsWord f) :
    Reads d true (Piece.filter d c) (Clause.emittedOption d c) :=
  optional hd " WHERE " (by decide) fun x hx => clause hd x fun f hf => hw f (Clause.mem_functionNamesOption hx hf)

theorem insert (i : Insert) (hw : ∀ f ∈ (Statement.insert i).functionNames, IsWord f) :
    Reads d false (Piece.insert d i) ((Statement.insert i).emitted d) := by
  rw [Statement.functionNames, List.forall_mem_append] at hw
  obtain ⟨wordsValues, wordsSource⟩ := hw
  have columns : Reads d true
      (if i.columns.isEmpty then [] else
        .text " (" :: Piece.separated ", " (i.columns.map (Piece.columnName d)) ++ [.text ")"])
      (i.columns.flatMap Clause.assigned) := by
    cases i.columns with
    | nil => exact nil
    | cons c cs =>
      have names := separated hd ", " (by decide) fun x (_ : x ∈ c :: cs) => columnName (d := d) x
      exact apart hd (by decide) (ended hd (by decide) names)
  refine ((plain hd (t := "INSERT INTO ") (by decide) (table hd i.table)).append columns).append ?_
  rcases hs : i.source with _ | query
  · exact apart hd (by decide) (ended hd (by decide) (list hd wordsValues))
  · rw [hs] at wordsSource
    exact apart hd (by decide) (select hd query wordsSource)

/-- A name that stands in front of a placeholder's assignment. -/
theorem received (assignment : String) (silent : Silent d assignment.toList) (begins : beginsApart assignment)
    (returns : Option Parameter) (h : Reads d false xs as) :
    Reads d false (Piece.receiver assignment returns ++ xs) as := by
  cases returns with
  | none => exact h
  | some p => exact (value hd.toLegible _).append (gap silent (hd.loose_of_beginsApart begins) h)

theorem routineCall (e : Exec) (hw : ∀ f ∈ Clause.functionNamesAll e.args, IsWord f) :
    Reads d false (Piece.routineCall d e) ((TableRef.ofName e.routine).emitted ++ Clause.emittedAll d e.args) :=
  ended hd (by decide) (between hd (by decide) (table hd (.ofName e.routine)) (list hd hw))

theorem bareArg (c : Clause) (hw : ∀ f ∈ c.functionNames, IsWord f) :
    Reads d false (Piece.bareArg d c) (c.emitted d) := by
  have output : isEnding (if Writing.isOutputArg c then " OUTPUT" else "") := by split <;> decide
  exact ended hd output (asValue hd c (clause hd c hw))

theorem exec (inside : Bool) (e : Exec) (hw : ∀ f ∈ Clause.functionNamesAll e.args, IsWord f) :
    Reads d false (Piece.exec d inside e) ((Statement.exec e).emitted d) := by
  rw [Statement.emitted]
  rcases hc : d.calls with _ | _ | _
  · have keyword : isPlainText (if e.returns.isSome then "SELECT " else "CALL ") := by split <;> decide
    rw [Piece.exec, hc, ← List.append_nil ((TableRef.ofName _).emitted ++ _)]
    refine (plain hd keyword (routineCall hd e hw)).append ?_
    cases e.returns with
    | none => exact nil
    | some p => exact unplaced p .result
  · have routine := received hd " = " (hd.silent (by decide)) (by decide) e.returns
      (table hd (.ofName e.routine))
    have args : Reads d true
        (.text (if e.args.isEmpty then "" else " ") :: Piece.separated ", " (e.args.map (Piece.bareArg d)))
        (Clause.emittedAll d e.args) := by
      have members : ∀ c ∈ e.args, Reads d false (Piece.bareArg d c) (c.emitted d) :=
        fun c hc => bareArg hd c fun f hf => hw f (Clause.mem_functionNamesAll hc hf)
      rw [Clause.emittedAll_eq]
      generalize e.args = args at members ⊢
      cases args with
      | nil => exact ended hd (t := "") (by decide) nil
      | cons c cs =>
        show Reads d true (.text " " :: _) _
        exact apart hd (by decide) (separated hd ", " (by decide) members)
    rw [Piece.exec, hc]
    exact (plain hd (by decide) routine).append args
  · have keyword : isPlainText (if inside then "" else "BEGIN ") := by split <;> decide
    have ending : isEnding (if inside then "" else "; END;") := by split <;> decide
    have call := received hd _ (hd.assignment hc) (by decide) e.returns (routineCall hd e hw)
    rw [Piece.exec, hc]
    exact ended hd ending (plain hd keyword call)

theorem existence (asked : Bool) (context words : String) (hw : isPlainText words)
    (h : Reads d false xs as) : Reads d false (Piece.existence d asked context words ++ xs) as := by
  cases asked with
  | false => exact h
  | true =>
    rw [Piece.existence, if_pos rfl]
    cases d.require .existenceCheck context with
    | ok _ => exact plain hd hw h
    | error e => exact stop e xs as

theorem columnDef (c : ColumnDef) : Reads d false (Piece.columnDef d c) [.ident c.name] := by
  have type : Reads d false
      (Piece.ofResult (d.nativeType c.type) fun name => [.text (name ++ (if c.nullable then "" else " NOT NULL"))])
      [] := by
    refine ofResult _ fun name hname => word hd ?_
    rw [isPlainText_append, hd.nativeType c.type name hname]
    cases c.nullable <;> decide
  exact (ident c.name).append (apart hd (by decide) type)

theorem createTable (t : CreateTable) :
    Reads d false (Piece.createTable d t) ((Statement.createTable t).emitted d) := by
  have columns := separated hd ", " (by decide) fun c (_ : c ∈ t.columns) => columnDef hd c
  have keys : Reads d true
      (if (t.columns.filter (·.primaryKey)).isEmpty then [] else .text ", PRIMARY KEY ("
        :: Piece.separated ", " ((t.columns.filter (·.primaryKey)).map fun c => [.ident c.name]) ++ [.text ")"])
      ((t.columns.filter (·.primaryKey)).flatMap fun c => [.ident c.name]) := by
    generalize t.columns.filter (·.primaryKey) = keys
    cases keys with
    | nil => exact nil
    | cons c cs =>
      have names := separated hd ", " (by decide) fun x (_ : x ∈ c :: cs) => ident (d := d) x.name
      exact apart hd (by decide) (ended hd (by decide) names)
  have named := existence hd t.ifNotExists "create table if not exists" "IF NOT EXISTS " (by decide)
    (table hd t.table)
  have front := (plain hd (t := "CREATE TABLE ") (by decide) named).append (apart hd (t := " (") (by decide) columns)
  rw [Statement.emitted, List.map_eq_flatMap, List.map_eq_flatMap]
  exact ended hd (by decide) (front.append keys)

theorem statement (inside : Bool) (s : Statement) (hw : ∀ f ∈ s.functionNames, IsWord f) :
    Reads d false (s.pieces d inside) (s.emitted d) := by
  cases s with
  | select s => exact select hd s hw
  | insert i => exact insert hd i hw
  | update u =>
    rw [Statement.functionNames, List.forall_mem_append] at hw
    have assignments := between hd (t := " SET ") (by decide) (table hd u.table) (list hd hw.1)
    exact plain hd (by decide) (assignments.append (filter hd hw.2))
  | delete s => exact plain hd (by decide) ((table hd s.table).append (filter hd hw))
  | exec e => exact exec hd inside e hw
  | createTable t => exact createTable hd t
  | dropTable t => exact plain hd (by decide) (existence hd t.ifExists _ _ (by decide) (table hd t.table))

/-! ## Scripts -/

theorem sequence (members : List Statement) (hw : ∀ f ∈ members.flatMap Statement.functionNames, IsWord f) :
    Reads d false (Piece.sequence d members) (members.flatMap (Statement.emitted d)) :=
  separated hd "\n" (by decide) fun s hs =>
    ended hd (by decide) (statement hd true s fun f hf => hw f (List.mem_flatMap.2 ⟨s, hs, hf⟩))

/-- The members of a block, with what stands behind them: no member begins with a gap. -/
theorem blockMembers (n : Nat) {members : List Statement} (hdef : ∀ s ∈ members, s.isDefinition = false)
    (hw : ∀ f ∈ members.flatMap Statement.functionNames, IsWord f) (h : Reads d false xs as) :
    Reads d false (Piece.blockMembers d n members ++ xs) (members.flatMap (Statement.emitted d) ++ as) := by
  induction members generalizing n with
  | nil => exact h
  | cons s rest ih =>
    rw [List.flatMap_cons, List.forall_mem_append] at hw
    rw [List.forall_mem_cons] at hdef
    have member := statement hd true s hw.1
    have behind := fun n => ih n hdef.2 hw.2
    rw [List.flatMap_cons, List.append_assoc]
    cases hr : s.givesRows with
    | true =>
      have cursor : isPlainText ("c" ++ Decimal.ofNat (n + 1)) := by
        rw [isPlainText_append, isPlainText_ofNat]
        decide
      have opening : isPlainText ("OPEN " ++ ("c" ++ Decimal.ofNat (n + 1)) ++ " FOR ") := by
        rw [isPlainText_append, isPlainText_append, cursor]
        decide
      have result : isApart ";\nDBMS_SQL.RETURN_RESULT(" := by decide
      have closing : isApart (";\nDBMS_SQL.RETURN_RESULT(" ++ ("c" ++ Decimal.ofNat (n + 1)) ++ ");\n") := by
        rw [String.append_assoc, isApart_append result, isPlainText_append, cursor]
        decide
      simp only [Piece.blockMembers, hr, if_true, List.append_assoc]
      exact (plain hd opening member).append (apart hd closing (behind (n + 1)))
    | false =>
      simp only [Piece.blockMembers, hr, hdef.1, Bool.false_eq_true, if_false, List.append_assoc]
      exact member.append (apart hd (by decide) (behind n))

end Reads

theorem isPlainText_cursorDeclarations (count : Nat) : isPlainText (Writing.cursorDeclarations count) := by
  have joined : ∀ words : List String, (∀ w ∈ words, isPlainText w) → isPlainText (String.join words) := by
    intro words hwords
    simp only [isPlainText, String.toList_join, List.all_flatMap, List.all_eq_true] at hwords ⊢
    exact hwords
  unfold Writing.cursorDeclarations
  split
  · decide
  · rw [isPlainText_append, joined]
    · decide
    · intro w hw
      obtain ⟨i, -, rfl⟩ := List.mem_map.1 hw
      rw [isPlainText_append, isPlainText_append, isPlainText_ofNat]
      decide

/-- whether tables are defined inside a block, where the text of a definition is a string literal -/
def Query.embedsDefinitions (d : Dialect) : Query → Bool
  | .single _ => false
  | .script members => d.scripts == .block && members.any Statement.isDefinition

/-- **What a query writes reads as the names that it emits.** -/
theorem Reads.query {d : Dialect} (hd : d.Readable) (q : Query) (hw : ∀ f ∈ q.functionNames, IsWord f)
    (hdef : q.embedsDefinitions d = false) : Reads d false (q.pieces d) (q.emitted d) := by
  cases q with
  | single s =>
    rw [Query.emitted, Query.statements, List.flatMap_singleton]
    exact .statement hd false s fun f hf => hw f (List.mem_flatMap.2 ⟨s, List.mem_singleton_self s, hf⟩)
  | script members =>
    refine .ofResult _ fun _ _ => ?_
    cases hs : d.scripts with
    | sequence => exact .sequence hd members hw
    | block =>
      have statements : ∀ s ∈ members, s.isDefinition = false := by
        simpa [Query.embedsDefinitions, hs] using hdef
      have inside := Reads.blockMembers hd 0 statements hw (.word hd (t := "END;") (by decide))
      rw [List.append_nil] at inside
      exact .plain hd (isPlainText_cursorDeclarations _) (.plain hd (by decide) inside)

/-! ## Names of parameters -/

theorem isWord_generatedName (n : Nat) : IsWord (generatedName n) := by
  have text : (generatedName n).toList = 'p' :: Decimal.digits n := by
    rw [generatedName, String.toList_append, Decimal.toList_ofNat]
    rfl
  rw [IsWord, text]
  refine ⟨List.cons_ne_nil _ _, List.forall_mem_cons.2 ⟨by decide, fun c hc => ?_⟩⟩
  have digit := Decimal.isDigit_of_mem_digits hc
  simp [isWordChar, Char.isAlphanum, digit]

/-- A word does not begin with the mark of a dialect, so binding it adds the mark or leaves it as it is. -/
theorem Dialect.spells_boundName {d : Dialect} (hd : d.Legible) {name : String} (hn : IsWord name) :
    d.Spells (d.boundName name) ∧ d.canonicalName name = name := by
  obtain ⟨hne, hword⟩ := hn
  rcases hp : d.params with _ | _ | ⟨mark, keepMark⟩
  · simp [Dialect.Spells, Dialect.canonicalName, hp]
  · simp [Dialect.Spells, Dialect.canonicalName, hp]
  · have unmarked : name.toList.head? ≠ some mark := by
      intro h
      have plain := isPlain_of_isWordChar (hword mark (List.mem_of_mem_head? h))
      have mark_eq : d.params.mark = mark := by rw [hp]; rfl
      rw [← mark_eq, hd.plain_mark] at plain
      cases plain
    rcases hc : name.toList with _ | ⟨c, cs⟩
    · exact absurd hc hne
    · have hcm : c ≠ mark := fun h => unmarked (by rw [hc, h]; rfl)
      have canonical : d.canonicalName name = name := by
        simp only [Dialect.canonicalName, hp, Dialect.dropMark, hc, if_neg hcm]
      have behind : String.ofList [mark] ++ name = String.ofList (mark :: name.toList) := by
        rw [String.ofList_cons]
        simp
      refine ⟨?_, canonical⟩
      cases keepMark with
      | false =>
        have bound : d.boundName name = name := by
          simp only [Dialect.boundName, hp, hc]
          rw [List.dropWhile_cons_of_neg (by simpa using hcm), ← hc, String.ofList_toList]
        simp only [Dialect.Spells, hp, bound, Dialect.withMark, if_neg unmarked]
        exact ⟨name, ⟨hne, hword⟩, behind⟩
      | true =>
        have bound : d.boundName name = String.ofList (mark :: name.toList) := by
          simp only [Dialect.boundName, hp, Dialect.withMark, if_neg unmarked, behind]
        simp only [Dialect.Spells, hp, bound, Dialect.withMark, String.toList_ofList, List.head?_cons, if_true]
        exact ⟨name, ⟨hne, hword⟩, rfl⟩

/-! ## Rendered statements -/

/-- **Identifiers and placeholders keep to themselves.** A scan of a rendered text does not end inside quotes. What it
finds in quotes are the names that the statement emits, whatever characters they have, and outside of quotes it finds
the placeholders of the rendering, all in order. -/
theorem scan_render {d : Dialect} (hd : d ∈ Dialect.all) {q : Query} {supply : Supply} {r : Rendered}
    (h : (render d q supply).result = .ok r) (functions : ∀ f ∈ q.functionNames, IsWord f)
    (params : ∀ n ∈ q.paramNames, IsWord n) (definitions : q.embedsDefinitions d = false) :
    ∃ found, scan d r.sql.toList = some found ∧ found.filterMap Lexeme.region? = q.emitted d
      ∧ (∀ i ∈ r.slots, i < r.params.length)
      ∧ found.filterMap Lexeme.placeholder?
        = r.slots.map fun i => d.placeholder i ((r.params[i]?.map BoundParam.name).getD "") := by
  have readable := Dialect.readable_of_mem hd
  have spelled : ∀ b ∈ r.params, d.Spells b.name := by
    intro b hb
    rcases render_names h hb with ⟨n, hn⟩ | ⟨n, hmem, hn⟩
    · rw [hn]
      exact (Dialect.spells_boundName readable.toLegible (isWord_generatedName n)).1
    · have word := Dialect.spells_boundName readable.toLegible (params n hmem)
      rw [hn, word.2]
      exact word.1
  rw [render_eq_played] at h
  rcases hp : (q.played d supply).1 with e | _
  · rw [hp] at h
    cases h
  · rw [hp] at h
    cases h
    have played : (Piece.playAll d (q.pieces d)).run ((Pass.start supply).reserve d q.paramNames)
        = (.ok (), (q.played d supply).2) := Prod.ext hp rfl
    obtain ⟨-, w, found, wrote, names, -⟩ := Reads.query readable q functions definitions _ _ (.start supply d _) played
    obtain ⟨new, slots, bounds, placeholders⟩ := wrote.slots
    have whole : (q.played d supply).2.slots = new := slots
    have scanned := wrote.scans spelled [] nofun
    rw [List.append_nil, scan_nil] at scanned
    refine ⟨found, ?_, names, ?_, ?_⟩
    · have text : (q.played d supply).2.text.toList = "".toList ++ w := wrote.text
      show scan d (q.played d supply).2.text.toList = some found
      rw [text]
      simpa using scanned
    · intro i hi
      exact bounds i (whole ▸ hi)
    · show _ = (q.played d supply).2.slots.map _
      rw [whole, placeholders]
      rfl

/-- a select whose names hold quotes, dots and marks, and one that is empty -/
def awkwardNames : Query :=
  .single (.select (.mk false none [.aliased (.field (some "a].b") "x?'") "@p1"] [.table ⟨none, ""⟩]
    (some (.compare (.function "LOWER" [.field none "]"]) .eq (.param (.deferred 0 9)))) [] none []))

/-- The name of a placeholder in quotes is a name like any other. -/
theorem scan_render_awkwardNames :
    ∃ r found, (render .sqlServer awkwardNames fun _ _ => .int 5).result = .ok r
      ∧ scan .sqlServer r.sql.toList = some found
      ∧ found.filterMap Lexeme.region? = [.ident "a].b", .ident "x?'", .ident "@p1", .ident "", .ident "]"]
      ∧ found.filterMap Lexeme.placeholder? = ["@p1"] := by
  have placed : (render .sqlServer awkwardNames fun _ _ => .int 5).result.toOption.map (fun r =>
      r.slots.map fun i => Dialect.sqlServer.placeholder i ((r.params[i]?.map BoundParam.name).getD ""))
        = some ["@p1"] := by
    decide +kernel
  rcases hr : (render .sqlServer awkwardNames fun _ _ => .int 5).result with e | r
  · rw [hr] at placed
    cases placed
  · rw [hr] at placed
    have known : Dialect.sqlServer ∈ Dialect.all := by simp [Dialect.all]
    obtain ⟨found, scanned, regions, -, placeholders⟩ := scan_render known hr
      (List.forall_mem_singleton.2 ⟨by decide +kernel, List.all_eq_true.1 (by decide +kernel)⟩)
        (List.forall_mem_nil _) rfl
    exact ⟨r, found, rfl, scanned, regions, placeholders.trans (Option.some.inj placed)⟩

end SqlTree
