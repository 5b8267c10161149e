/-
Reading clauses and selects back.

- `reads_pieces`: what a clause or a select writes reads as the names that it puts in quotes, whatever characters they
  have, if the names of functions are words. By induction on the tree, with one lemma for each way in which pieces are
  put together.
-/
import SqlTree.Proofs.Scanning.Emitted
import SqlTree.Proofs.Scanning.Readable

namespace SqlTree

theorem Aggregate.isPlainText_sql (fn : Aggregate) (distinct : Bool) :
    isPlainText (fn.sql ++ "(" ++ (if distinct then "DISTINCT " else "")) := by
  cases fn <;> cases distinct <;> decide

theorem Arithmetic.isApart_sql (op : Arithmetic) : isApart (" " ++ op.sql ++ " ") := by cases op <;> decide

theorem Comparison.isApart_sql (op : Comparison) : isApart (" " ++ op.sql ++ " ") := by cases op <;> decide

theorem Connective.isApart_sql (op : Connective) : isApart (" " ++ op.sql ++ " ") := by cases op <;> decide

namespace Reads

variable {d : Dialect} (hd : d.Readable) {o : Bool} {xs ys : List Piece} {as bs : List Region} {t : String}

include hd

/-! ## Text without quotes and marks -/

theorem plain (ht : isPlainText t) (h : Reads d o xs as) : Reads d false (.text t :: xs) as := text (hd.silent ht) h

theorem apart (ht : isApart t) (h : Reads d o xs as) : Reads d true (.text t :: xs) as := by
  simp only [isApart, Bool.and_eq_true] at ht
  exact gap (hd.silent ht.1) (hd.loose_of_beginsApart ht.2) h

theorem ended (ht : isEnding t) (h : Reads d o xs as) : Reads d o (xs ++ [.text t]) as := by
  have opens := hd.opens_of_isEnding ht
  simp only [isEnding, Bool.and_eq_true] at ht
  exact closed (hd.silent ht.1) opens h

theorem word (ht : isPlainText t) : Reads d false [.text t] [] := plain hd ht nil

/-- Two parts with text between them that stands apart. -/
theorem between (ht : isApart t) (hx : Reads d o xs as) (hy : Reads d false ys bs) :
    Reads d o (xs ++ .text t :: ys) (as ++ bs) :=
  hx.append (apart hd ht hy)

theorem wrapped (wrap : Bool) (h : Reads d false xs as) : Reads d false (Piece.wrapped wrap xs) as := by
  cases wrap with
  | false => exact h
  | true => exact plain hd (by decide) (ended hd (by decide) h)

theorem asValue (c : Clause) (h : Reads d false xs as) : Reads d false (Piece.asValue d c xs) as := by
  unfold Piece.asValue
  split
  · exact plain hd (by decide) (ended hd (by decide) h)
  · exact h

theorem asOperand (c : Clause) (h : Reads d false xs as) : Reads d false (Piece.asOperand d c xs) as :=
  wrapped hd _ (asValue hd c h)

/-! ## Names -/

/-- A name and the dot behind it, if there is one, in front of what it qualifies. -/
theorem qualified (qualifier : Option String) (h : Reads d false xs as) :
    Reads d false (Piece.qualifier qualifier ++ xs) (qualifier.toList.map .ident ++ as) := by
  cases qualifier with
  | none => exact h
  | some name => exact (ident name).append (apart hd (by decide) h)

theorem table (t : TableRef) : Reads d false (Piece.table t) t.emitted := qualified hd t.schema (ident t.name)

omit hd in
theorem columnName (c : Clause) : Reads d false (Piece.columnName d c) c.assigned := by
  cases c with
  | field of name => exact ident name
  | _ => exact stop _ _ _

theorem sequenceCall (sequence : String) {spelling : SequenceSpelling} (h : spelling.isReadable) :
    Reads d false (Piece.sequenceCall sequence spelling) (spelling.emitted sequence) := by
  cases spelling with
  | phrase words => exact plain hd h (ident sequence)
  | literal fn => exact plain hd h (ended hd (by decide) (literal hd.toLegible sequence))
  | member fn => exact (ident sequence).append (apart hd h nil)

theorem builtin (fn : Builtin) : Reads d false (Piece.builtin d fn) (fn.emitted d) := by
  cases fn with
  | currentDate => exact word hd hd.currentDate
  | currentTimestamp => exact word hd hd.currentTimestamp
  | nextId sequence => exact ofResult _ fun _ _ => sequenceCall hd sequence hd.nextId
  | lastId sequence =>
    have spelled := hd.lastId
    rcases hl : d.builtins.lastId with call | ⟨without, spelling⟩
    · rw [hl] at spelled
      simp only [Piece.builtin, Builtin.emitted, hl]
      exact word hd spelled
    · simp only [hl, LastIdSpelling.isReadable, Bool.and_eq_true] at spelled
      obtain ⟨hwithout, hspelling⟩ := spelled
      cases sequence with
      | some name =>
        simp only [Piece.builtin, Builtin.emitted, hl]
        exact sequenceCall hd name hspelling
      | none =>
        rcases without with _ | call
        · simp only [Piece.builtin, hl]
          exact stop _ _ _
        · simp only [Piece.builtin, Builtin.emitted, hl]
          exact word hd hwithout

/-! ## Lists -/

theorem separated {β : Type} {g : β → List Piece} {names : β → List Region} (separator : String)
    (hs : isApart separator) {members : List β} (h : ∀ m ∈ members, Reads d false (g m) (names m)) :
    Reads d false (Piece.separated separator (members.map g)) (members.flatMap names) := by
  cases members with
  | nil => exact nil.weaken
  | cons m rest =>
    have hrest : Reads d true ((rest.map g).flatMap (.text separator :: ·)) (rest.flatMap names) := by
      have hr := fun m' hm' => h m' (List.mem_cons_of_mem m hm')
      clear h
      induction rest with
      | nil => exact nil
      | cons m' rest ih =>
        have hm' := apart hd hs (hr m' List.mem_cons_self)
        exact hm'.append (ih fun m'' h' => hr m'' (List.mem_cons_of_mem m' h'))
    exact (h m List.mem_cons_self).append hrest

variable {cs : List Clause}

theorem values (h : ∀ c ∈ cs, Reads d false (c.pieces d) (c.emitted d)) :
    Reads d false (Piece.values d ", " (Clause.piecesAll d cs)) (Clause.emittedAll d cs) := by
  rw [Piece.values, Clause.piecesAll_eq_map, List.map_map, Clause.emittedAll_eq]
  exact separated hd ", " (by decide) fun c hc => asValue hd c (h c hc)

theorem operands (h : ∀ c ∈ cs, Reads d false (c.pieces d) (c.emitted d)) :
    Reads d false
      (Piece.separated d.concat.between ((Clause.piecesAll d cs).map fun (c, body) => Piece.asOperand d c body))
      (Clause.emittedAll d cs) := by
  rw [Clause.piecesAll_eq_map, List.map_map, Clause.emittedAll_eq]
  exact separated hd _ hd.concat_between fun c hc => asOperand hd c (h c hc)

/-- The sources behind the first are set apart by a comma or by the words of a join. -/
theorem moreSources (h : ∀ c ∈ cs, Reads d false (c.pieces d) (c.emitted d)) :
    Reads d true (Piece.sources d false (Clause.piecesAll d cs)) (Clause.emittedAll d cs) := by
  induction cs with
  | nil => exact nil
  | cons c cs ih =>
    have separator : isApart (Writing.sourceGap false c) := by
      unfold Writing.sourceGap
      split <;> decide
    have hc := apart hd separator (asValue hd c (h c List.mem_cons_self))
    exact hc.append (ih fun c' hc' => h c' (List.mem_cons_of_mem c hc'))

theorem sources (h : ∀ c ∈ cs, Reads d false (c.pieces d) (c.emitted d)) :
    Reads d false (Piece.sources d true (Clause.piecesAll d cs)) (Clause.emittedAll d cs) := by
  cases cs with
  | nil => exact nil.weaken
  | cons c cs =>
    have first : isPlainText (Writing.sourceGap true c) := by
      unfold Writing.sourceGap
      split <;> decide
    have hc := plain hd first (asValue hd c (h c List.mem_cons_self))
    exact hc.append (moreSources hd fun c' hc' => h c' (List.mem_cons_of_mem c hc'))

/-! ## Sections -/

theorem fromSection (h : ∀ c ∈ cs, Reads d false (c.pieces d) (c.emitted d)) :
    Reads d true (Piece.fromSection d (Clause.piecesAll d cs)) (Clause.emittedAll d cs) := by
  have tables := sources hd h
  cases cs with
  | nil =>
    rcases hdual : d.dual with _ | dual
    · simp only [Piece.fromSection, Clause.piecesAll, hdual]
      exact nil
    · have keywords : isApart " FROM " := by decide
      have apartDual : isApart (" FROM " ++ dual) := by
        rw [isApart_append keywords]
        exact hd.dual dual hdual
      simp only [Piece.fromSection, Clause.piecesAll, hdual]
      exact apart hd apartDual nil
  | cons c cs => exact apart hd (by decide) tables

theorem listed (keywords : String) (hk : isApart keywords)
    (h : ∀ c ∈ cs, Reads d false (c.pieces d) (c.emitted d)) :
    Reads d true (Piece.listed d keywords (Clause.piecesAll d cs)) (Clause.emittedAll d cs) := by
  have members := values hd h
  cases cs with
  | nil => exact nil
  | cons c cs => exact apart hd hk members

theorem optional (keywords : String) (hk : isApart keywords) {c : Option Clause}
    (h : ∀ c' ∈ c, Reads d false (c'.pieces d) (c'.emitted d)) :
    Reads d true (Piece.optional keywords (Clause.piecesOption d c)) (Clause.emittedOption d c) := by
  cases c with
  | none => exact nil
  | some c => exact apart hd hk (h c rfl)

omit hd in
theorem limited (limit : Option RowLimit) (h : Reads d o xs as) : Reads d o (Piece.limitFault d limit ++ xs) as := by
  cases limit with
  | none => exact h
  | some limit =>
    rw [Piece.limitFault]
    cases d.require limit.capability (limit.describe ++ " on select") with
    | ok _ => exact h
    | error e => exact stop e xs as

/-! ## Hooks -/

/-- What a hook writes in front of a select's columns. -/
theorem heading {actions : List HookAction} (ha : ∀ a ∈ actions, a.Writes isPlainText) (h : Reads d false xs as) :
    Reads d false (actions.map .act ++ xs) as := by
  induction actions with
  | nil => exact h
  | cons a actions ih =>
    have rest := ih fun a' ha' => ha a' (List.mem_cons_of_mem a ha')
    have fit := ha a List.mem_cons_self
    cases a with
    | write t => exact plain hd fit rest
    | _ => exact fit.elim

/-- What a hook writes behind a select's last section. -/
theorem trailing {actions : List HookAction} (ha : ∀ a ∈ actions, a.Writes isApart) :
    Reads d true (actions.map .act) [] := by
  induction actions with
  | nil => exact nil
  | cons a actions ih =>
    have rest := ih fun a' ha' => ha a' (List.mem_cons_of_mem a ha')
    have fit := ha a List.mem_cons_self
    cases a with
    | write t => exact apart hd fit rest
    | _ => exact fit.elim

/-- A select reads as what is in its frame, whether or not its text is set aside. -/
theorem hooked (s : Select) (h : Reads d false xs as) :
    Reads d false [.frame (d.hooks.opening s) xs (d.hooks.closing s)] as := by
  rcases hd.hooks.frame s with ⟨opening, closing⟩ | ⟨opening, wrap, before, behind, closing, hwrap, hbefore, hbehind⟩
  · rw [opening, closing]
    exact h.frame
  · rw [opening, closing]
    have apartBehind := hbehind
    simp only [isApart, Bool.and_eq_true] at apartBehind
    exact h.staged hwrap (hd.silent hbefore) (hd.silent apartBehind.1) fun rest _ =>
      hd.loose_of_beginsApart apartBehind.2 rest

/-! ## Trees -/

variable {c : Clause}

theorem predicate (hp : c.isPredicate) (operands : ∀ x ∈ c.operands, Reads d false (x.pieces d) (x.emitted d))
    (query : ∀ s ∈ c.query?, Reads d false (s.pieces d) (s.emitted d)) : Reads d false (c.pieces d) (c.emitted d) := by
  cases c with
  | compare l op r =>
    have hl := operands l (by simp [Clause.operands])
    have hr := operands r (by simp [Clause.operands])
    exact between hd op.isApart_sql (asOperand hd l hl) (asOperand hd r hr)
  | logic l op r =>
    have hl := operands l (by simp [Clause.operands])
    have hr := operands r (by simp [Clause.operands])
    exact between hd op.isApart_sql (wrapped hd _ hl) (wrapped hd _ hr)
  | between c l h =>
    have hc := operands c (by simp [Clause.operands])
    have hl := operands l (by simp [Clause.operands])
    have hh := operands h (by simp [Clause.operands])
    have low := Reads.between hd (t := " BETWEEN ") (by decide) (asOperand hd c hc) (asOperand hd l hl)
    exact Reads.between hd (by decide) low (asOperand hd h hh)
  | isNull c negated =>
    have h := operands c (by simp [Clause.operands])
    exact ended hd (by cases negated <;> decide) (asOperand hd c h)
  | inList c cs negated =>
    have h := operands c (by simp [Clause.operands])
    have items := values hd fun x (hx : x ∈ cs) => operands x (by simp [Clause.operands, hx])
    rw [Clause.pieces, Clause.emitted]
    split
    · exact word hd (by cases negated <;> decide)
    · have opening : isApart (if negated then " NOT IN (" else " IN (") := by cases negated <;> decide
      exact ended hd (by decide) (Reads.between hd opening (asOperand hd c h) items)
  | anyRow s => exact plain hd (by decide) (ended hd (by decide) (query s rfl))
  | not c => exact plain hd (by decide) (ended hd (by decide) (operands c (by simp [Clause.operands])))
  | _ => cases hp

/-- A clause reads as what is right below it, if the function that it calls is a word. -/
theorem node (functions : ∀ f ∈ c.functionNames, IsWord f)
    (operands : ∀ x ∈ c.operands, Reads d false (x.pieces d) (x.emitted d))
    (query : ∀ s ∈ c.query?, Reads d false (s.pieces d) (s.emitted d)) : Reads d false (c.pieces d) (c.emitted d) := by
  by_cases hp : c.isPredicate
  · exact predicate hd hp operands query
  cases c with
  | field of name => exact qualified hd of (ident name)
  | allFields of =>
    have all := qualified hd of (word hd (t := "*") (by decide))
    rwa [List.append_nil] at all
  | constant v =>
    rw [Clause.pieces, Clause.emitted]
    split
    · exact word hd (by decide)
    · exact value hd.toLegible _
  | param p => exact value hd.toLegible _
  | builtin fn => exact builtin hd fn
  | table ref => exact table hd ref
  | aggregate fn arg distinct =>
    have opening := fn.isPlainText_sql distinct
    cases arg with
    | none => exact plain hd opening (word hd (by decide))
    | some arg => exact plain hd opening (ended hd (by decide) (asValue hd arg (operands arg List.mem_cons_self)))
  | function name cs =>
    rw [Clause.functionNames, List.forall_mem_cons] at functions
    have call : isPlainText (name ++ "(") := by
      rw [isPlainText_append, isPlainText_of_isWord functions.1]
      decide
    exact plain hd call (ended hd (by decide) (values hd operands))
  | concat cs => exact plain hd hd.concat_before (ended hd hd.concat_after (Reads.operands hd operands))
  | cast c type =>
    have subject := asValue hd c (operands c List.mem_cons_self)
    refine ofResult _ fun name hname => ?_
    have opening : isApart " AS " := by decide
    have closing : isApart (" AS " ++ name ++ ")") := by
      rw [String.append_assoc, isApart_append opening, isPlainText_append, hd.nativeType type name hname]
      decide
    exact plain hd (by decide) (ended hd (isEnding_of_isApart closing) subject)
  | «calc» l op r =>
    have hl := asValue hd l (operands l (by simp [Clause.operands]))
    have hr := asValue hd r (operands r (by simp [Clause.operands]))
    exact Reads.between hd op.isApart_sql (wrapped hd _ hl) (wrapped hd _ hr)
  | aliased c name =>
    have keyword : isApart (if c.isTableLike && !d.tableAliasAs then " " else " AS ") := by split <;> decide
    exact Reads.between hd keyword (asValue hd c (operands c List.mem_cons_self)) (ident name)
  | join kind t c =>
    have target := asValue hd t (operands t (by simp [Clause.operands]))
    have condition := operands c (by simp [Clause.operands])
    have keyword : isPlainText (kind.sql ++ " ") := by cases kind <;> decide
    exact Reads.between hd (by decide) (plain hd keyword target) condition
  | order c direction =>
    exact ended hd (by cases direction <;> decide) (asValue hd c (operands c List.mem_cons_self))
  | assign t v =>
    have hv := asValue hd v (operands v (by simp [Clause.operands]))
    exact Reads.between hd (by decide) (columnName t) hv
  | subQuery s => exact plain hd (by decide) (ended hd (by decide) (query s rfl))
  | _ => exact absurd rfl hp

/-- A select reads as its clauses, section by section. -/
theorem ofClauses (s : Select) (h : ∀ c ∈ s.clauses, Reads d false (c.pieces d) (c.emitted d)) :
    Reads d false (s.pieces d) (s.emitted d) := by
  rw [s.pieces_eq]
  refine limited s.limit (hooked hd s ?_)
  have written := hd.hooks.heading s
  have behind := trailing hd (hd.hooks.trailing s)
  rw [Select.inner]
  obtain ⟨distinct, limit, fields, sources, filter, groupBy, having, orderBy⟩ := s
  simp only [Select.clauses, List.forall_mem_append, Option.mem_toList] at h
  obtain ⟨⟨⟨⟨⟨hF, hS⟩, hW⟩, hG⟩, hH⟩, hO⟩ := h
  have columns : Reads d false
      (if fields.isEmpty then [.text "*"] else Piece.values d ", " (Clause.piecesAll d fields))
      (Clause.emittedAll d fields) := by
    cases fields with
    | nil => exact word hd (by decide)
    | cons c cs => exact values hd hF
  have words : isPlainText (if distinct then "DISTINCT " else "") := by cases distinct <;> decide
  have front := plain hd (t := "SELECT ") (by decide) (plain hd words (heading hd written columns))
  have tables := fromSection hd hS
  have rows := optional hd " WHERE " (by decide) hW
  have groups := listed hd " GROUP BY " (by decide) hG
  have groupRows := optional hd " HAVING " (by decide) hH
  have sorts := listed hd " ORDER BY " (by decide) hO
  have whole := (((((front.append tables).append rows).append groups).append groupRows).append sorts).append behind
  rwa [List.append_nil] at whole

end Reads

/-- **What clauses and selects write reads as the names that they put in quotes**, by induction on the tree. -/
theorem reads_pieces {d : Dialect} (hd : d.Readable) :
    (∀ c : Clause, (∀ f ∈ c.functionNames, IsWord f) → Reads d false (c.pieces d) (c.emitted d)) ∧
      ∀ s : Select, (∀ f ∈ s.functionNames, IsWord f) → Reads d false (s.pieces d) (s.emitted d) := by
  refine Clause.operandInduction (fun c operands query hw => ?_) fun s clauses hw => ?_
  · have below := fun f hf => hw f (c.functionNames_below hf)
    rw [List.forall_mem_append] at below
    refine Reads.node hd hw (fun x hx => operands x hx fun f hf => ?_) fun s hs => query s hs fun f hf => ?_
    · exact below.1 f (List.mem_flatMap_of_mem hx hf)
    · exact below.2 f (List.mem_flatMap_of_mem (Option.mem_toList.2 hs) hf)
  · rw [s.functionNames_clauses] at hw
    exact Reads.ofClauses hd s fun c hc => clauses c hc fun f hf => hw f (List.mem_flatMap_of_mem hc hf)

end SqlTree
