/-
What writing adds to the text.

On the dialects of the library writing only adds: what stood in the text before is still there, and the frames are as
they were. So each part of a statement has a text of its own in the whole.

- `Writing.Adds.separated`: members with a separator between them add their texts with the separator between them.
- `Writing.Splices.adds_alike`: what is spliced in adds the same text wherever parameters and names are the same.
- `Piece.OrderlyAll.adds`: pieces whose hooks belong together add text, whatever is set aside while they are written.
- `clause_written_iff`: a clause is written unless something that it asks for is refused.
- `select_adds_inOrder`: what a select adds is made of the texts of its sections, in the order of the grammar.
-/
import SqlTree.Proofs.Rendering.Refusal
import SqlTree.Proofs.Rendering.Splice

namespace SqlTree

namespace Writing

/-- writing that ran from one pass to another, added text to it and left the frames as they were -/
structure Added (w : Writing Unit) (s t : Pass) (text : String) : Prop where
  ran : w.run s = (.ok (), t)
  text : t.text = s.text ++ text
  frames : t.frames = s.frames

/-- writing that adds text wherever it runs to the end -/
def Adds (w : Writing Unit) : Prop := ∀ s t, w.run s = (.ok (), t) → ∃ text, w.Added s t text

/-- a text that writing adds somewhere -/
def Gives (w : Writing Unit) (text : String) : Prop := ∃ s t, w.Added s t text

theorem Added.gives {w : Writing Unit} {s t : Pass} {text : String} (h : w.Added s t text) : w.Gives text := ⟨s, t, h⟩

namespace Adds

variable {w v : Writing Unit}

theorem emit (text : String) : Adds (emit text) := by
  rintro s t h
  cases h
  exact ⟨text, rfl, rfl, rfl⟩

theorem nothing : Adds (pure ()) := by
  rintro s t h
  cases h
  exact ⟨"", rfl, String.append_empty.symm, rfl⟩

theorem seq (hw : w.Adds) (hv : v.Adds) : (do w; v : Writing Unit).Adds := by
  intro s u h
  obtain ⟨_, t, ht, hu⟩ := run_bind_ok h
  obtain ⟨x, first⟩ := hw s t ht
  obtain ⟨y, second⟩ := hv t u hu
  exact ⟨x ++ y, h, by rw [second.text, first.text, String.append_assoc], second.frames.trans first.frames⟩

end Adds

theorem separated_cons_cons (separator : String) (w v : Writing Unit) (ws : List (Writing Unit)) :
    separated separator (w :: v :: ws) = (do w; emit separator; separated separator (v :: ws)) := by
  show (do w; (do emit separator; v : Writing Unit); ws.forM fun w => do emit separator; w)
    = (do w; emit separator; v; ws.forM fun w => do emit separator; w)
  rw [bind_assoc]

theorem Adds.separated {separator : String} {ws : List (Writing Unit)} (h : ∀ w ∈ ws, w.Adds) {s t : Pass}
    (ran : (separated separator ws).run s = (.ok (), t)) :
    ∃ texts, List.Forall₂ Gives ws texts
      ∧ t.text = s.text ++ separator.intercalate texts ∧ t.frames = s.frames := by
  match ws with
  | [] =>
    cases ran
    exact ⟨[], .nil, String.append_empty.symm, rfl⟩
  | [w] =>
    obtain ⟨_, u, first, ended⟩ := run_bind_ok ran
    cases ended
    obtain ⟨x, added⟩ := h w List.mem_cons_self s t first
    exact ⟨[x], .cons added.gives .nil, by rw [String.intercalate_singleton, added.text], added.frames⟩
  | w :: v :: ws =>
    rw [separated_cons_cons] at ran
    obtain ⟨_, u, first, behind⟩ := run_bind_ok ran
    obtain ⟨x, added⟩ := h w List.mem_cons_self s u first
    obtain ⟨texts, given, text, frames⟩ := Adds.separated (fun w' hw' => h w' (List.mem_cons_of_mem w hw')) behind
    cases given with
    | @cons _ y _ texts givenY given =>
      refine ⟨x :: y :: texts, .cons added.gives (.cons givenY given), ?_, frames.trans added.frames⟩
      have ended : t.text = (u.text ++ separator) ++ separator.intercalate (y :: texts) := text
      rw [ended, added.text, String.intercalate_cons_cons]
      simp only [String.append_assoc]

/-! ### Alike in alike passes -/

/-- Writing that is spliced in fails in one way, or adds one text, wherever parameters and names are the same. -/
theorem Splices.fails_or_adds {w : Writing Unit} (hw : Splices w) (k : Tables) :
    (∃ e, ∀ p : Pass, p.tables = k → (w.run p).1 = .error e)
      ∨ ∃ text, ∀ p : Pass, p.tables = k → ∃ t, w.Added p t text := by
  have alone : ∀ p : Pass, p.tables = k → k.pass.tables = p.tables := fun p h => k.tables_pass.trans h.symm
  rcases ends : (w.run k.pass).1 with e | ⟨⟩
  · exact .inl ⟨e, fun p h => (hw (alone p h)).1.symm.trans ends⟩
  · refine .inr ⟨(w.run k.pass).2.text, fun p h => ⟨(w.run p).2, ?_⟩⟩
    obtain ⟨same, -, extended⟩ := hw (alone p h)
    have extension := extended () ends
    obtain ⟨x, own, text⟩ := extension.text
    have first : (w.run k.pass).2.text = x := own.trans (String.empty_append ..)
    exact ⟨Prod.ext (same.symm.trans ends) rfl, by rw [text, first], extension.frames'⟩

/-- Writing that is spliced in and was written once adds the same text wherever parameters and names are the same. -/
theorem Splices.adds_alike {w : Writing Unit} (hw : Splices w) {p t : Pass} (ran : w.run p = (.ok (), t)) :
    ∃ text, ∀ q : Pass, q.tables = p.tables → ∃ u, w.Added q u text := by
  rcases hw.fails_or_adds p.tables with ⟨e, failed⟩ | adds
  · have here := failed p rfl
    rw [ran] at here
    cases here
  · exact adds

end Writing

open Writing (Adds Added Gives)

theorem Occurrence.play_adds (d : Dialect) (o : Occurrence) : (o.play d).Adds := by
  intro s t ran
  have registers := Occurrence.play_registers ran
  obtain ⟨i, name, text, -⟩ := registers.written
  exact ⟨_, ran, text, registers.frames⟩

namespace Piece

/-- What is written between hooks that belong together is added to what stood in front of them. -/
theorem frame_adds {d : Dialect} {opening closing : List HookAction} {body : List Piece}
    (hooks : opening = [] ∧ closing = [] ∨ opening = [.beginStaging] ∧ ∃ wrap, closing = [.endStaging wrap])
    (hbody : (playAll d body).Adds) : ((Piece.frame opening body closing).play d).Adds := by
  intro s t h
  have ran := h
  rw [play_frame] at h
  obtain ⟨u, whole, -, rfl⟩ := Writing.run_inFrame_ok h
  obtain ⟨_, v, opened, rest⟩ := Writing.run_bind_ok whole
  obtain ⟨_, w, written, closed⟩ := Writing.run_bind_ok rest
  obtain ⟨x, inside⟩ := hbody v w written
  rcases hooks with ⟨rfl, rfl⟩ | ⟨rfl, wrap, rfl⟩
  · cases opened
    cases closed
    exact ⟨x, ran, inside.text, congrArg List.tail inside.frames⟩
  · rw [Writing.run_setAside d rfl] at opened
    cases opened
    rw [Writing.run_putBack d wrap inside.frames] at closed
    cases closed
    exact ⟨wrap w.text, ran, rfl, rfl⟩

/-- **Pieces whose hooks belong together add text**, by induction on the pieces. -/
theorem OrderlyAll.adds {d : Dialect} {xs : List Piece} (orderly : OrderlyAll xs) : (playAll d xs).Adds := by
  induction xs using Piece.listInduction with
  | nil => exact .nothing
  | stop e xs _ =>
    rintro s t h
    cases h
  | text t xs ih | literal t xs ih | ident t xs ih => exact (Adds.emit _).seq (ih orderly.2)
  | act a xs ih =>
    obtain ⟨⟨t, rfl⟩, orderly⟩ := orderly
    exact (Adds.emit t).seq (ih orderly)
  | value o xs ih => exact (o.play_adds d).seq (ih orderly.2)
  | frame opening body closing xs ihBody ih =>
    exact (frame_adds orderly.1.1 (ihBody orderly.1.2)).seq (ih orderly.2)

end Piece

/-! ## Clauses -/

section
variable {d : Dialect} (hooks : d.hooks.Orderly)

include hooks

/-- What is asked of a dialect does not matter to what a clause adds. -/
theorem pieces_meet (c : Clause) : Piece.Meets d (c.pieces d) c.demands :=
  ((Piece.Meets.refuses d).tree (Piece.Meets.ignoresHooks hooks)).1 c

theorem clause_adds (c : Clause) : (Writing.clause d c).Adds := by
  rw [Writing.clause, node_eq_play, ← Piece.play_asValue]
  exact ((Piece.Meets.refuses d).asValue c (pieces_meet hooks c)).orderly.adds

/-- A clause is written unless something that it asks for is refused, if its explicit names are reserved. -/
theorem clause_written_iff {c : Clause} {s : Pass} (keyed : s.Keyed)
    (reserved : ∀ n ∈ explicitNames c.occurrences, d.canonicalName n ∈ s.reserved) :
    (∃ t, (Writing.clause d c).run s = (.ok (), t)) ↔ ∀ x ∈ c.demands, x.refusal? d = none := by
  have meets : Piece.Meets d (Piece.asValue d c (c.pieces d)) c.demands :=
    (Piece.Meets.refuses d).asValue c (pieces_meet hooks c)
  have carried : Piece.Carries (Piece.asValue d c (c.pieces d)) c.occurrences :=
    Piece.Carries.gathers.asValue c (Piece.Carries.clause c)
  have known : Piece.Known d (Piece.asValue d c (c.pieces d)) s.reserved := fun o ho n hn =>
    reserved n (List.mem_filterMap.2 ⟨o, carried.some.subset ho, hn⟩)
  have ends := Piece.playAll_ends meets.orderly keyed known
  rw [meets.first, Piece.play_asValue, ← node_eq_play] at ends
  rw [← List.findSome?_eq_none_iff]
  rcases hf : c.demands.findSome? (Demand.refusal? d) with _ | e
  · rw [hf] at ends
    obtain ⟨t, ran, -⟩ := ends
    exact iff_of_true ⟨t, ran⟩ rfl
  · rw [hf] at ends
    refine iff_of_false ?_ nofun
    rintro ⟨t, ran⟩
    have failed : ((Writing.clause d c).run s).1 = .error e := ends
    rw [ran] at failed
    cases failed

/-- A clause is written if and only if each of some others is, which ask for the same together. -/
theorem clause_written_iff_all {c : Clause} {cs : List Clause} (demands : c.demands = cs.flatMap Clause.demands)
    (occurrences : c.occurrences = cs.flatMap Clause.occurrences) {s : Pass} (keyed : s.Keyed)
    (reserved : ∀ n ∈ explicitNames c.occurrences, d.canonicalName n ∈ s.reserved) :
    (∃ t, (Writing.clause d c).run s = (.ok (), t)) ↔ ∀ x ∈ cs, ∃ t, (Writing.clause d x).run s = (.ok (), t) := by
  have each : ∀ x ∈ cs, (∃ t, (Writing.clause d x).run s = (.ok (), t)) ↔ ∀ y ∈ x.demands, y.refusal? d = none := by
    intro x hx
    refine clause_written_iff hooks keyed fun n hn => reserved n ?_
    obtain ⟨o, ho, name⟩ := List.mem_filterMap.1 hn
    exact List.mem_filterMap.2 ⟨o, occurrences ▸ List.mem_flatMap.2 ⟨x, hx, ho⟩, name⟩
  rw [clause_written_iff hooks keyed reserved, demands, List.forall_mem_flatMap]
  exact forall₂_congr fun x hx => (each x hx).symm

theorem values_add (separator : String) (cs : List Clause) :
    (Writing.values d separator cs (Writing.nodes d cs)).Adds := by
  rw [← Piece.play_values d separator fun c _ => node_eq_play d c]
  exact ((Piece.Meets.refuses d).values separator fun c _ => pieces_meet hooks c).orderly.adds

theorem fromSection_adds (cs : List Clause) : (Writing.fromSection d cs (Writing.nodes d cs)).Adds := by
  rw [← Piece.play_fromSection d fun c _ => node_eq_play d c]
  exact ((Piece.Meets.refuses d).fromSection fun c _ => pieces_meet hooks c).orderly.adds

theorem listed_adds (keywords : String) (cs : List Clause) :
    (Writing.listed d keywords cs (Writing.nodes d cs)).Adds := by
  rw [← Piece.play_listed d keywords fun c _ => node_eq_play d c]
  exact ((Piece.Meets.refuses d).listed keywords fun c _ => pieces_meet hooks c).orderly.adds

theorem optional_adds (keywords : String) (o : Option Clause) :
    (Writing.optional keywords (Writing.nodeOption d o)).Adds := by
  rw [← Piece.play_optional d keywords fun c _ => node_eq_play d c]
  exact ((Piece.Meets.refuses d).optional keywords fun c _ => pieces_meet hooks c).orderly.adds

end

theorem actAll_adds (d : Dialect) {actions : List HookAction} (h : ∀ a ∈ actions, ∃ t, a = .write t) :
    (Writing.actAll d actions).Adds := by
  rw [← Piece.play_acts]
  exact (Piece.Meets.acts (d := d) h).orderly.adds

/-! ## Selects -/

/-- Parts that add text in turn add their texts in this order. -/
theorem Writing.Adds.inTurn {ws : List (Writing Unit)} (h : ∀ w ∈ ws, w.Adds) {s t : Pass}
    (ran : (ws.forM id).run s = (.ok (), t)) :
    ∃ texts, List.Forall₂ Gives ws texts ∧ t.text = s.text ++ String.join texts ∧ t.frames = s.frames := by
  induction ws generalizing s with
  | nil =>
    cases ran
    exact ⟨[], .nil, String.append_empty.symm, rfl⟩
  | cons w ws ih =>
    obtain ⟨_, u, first, rest⟩ := run_bind_ok ran
    obtain ⟨x, added⟩ := h w List.mem_cons_self s u first
    obtain ⟨texts, given, text, frames⟩ := ih (fun w' hw' => h w' (List.mem_cons_of_mem w hw')) rest
    refine ⟨x :: texts, .cons added.gives given, ?_, frames.trans added.frames⟩
    rw [text, added.text, String.join_cons, String.append_assoc]

/-- what is written for a select list -/
def Writing.fields (d : Dialect) (cs : List Clause) : Writing Unit :=
  if cs.isEmpty then emit "*" else values d ", " cs (nodes d cs)

/-- the parts of a select in the order of the grammar, with what the hooks of the dialect put behind the first word and
behind the last section -/
def Select.inOrder (d : Dialect) (s : Select) : List (Writing Unit) :=
  [.emit "SELECT ", .emit (if s.distinct then "DISTINCT " else ""), .actAll d (d.hooks.heading s), .fields d s.fields,
    .fromSection d s.sources (Writing.nodes d s.sources), .optional " WHERE " (Writing.nodeOption d s.filter),
    .listed d " GROUP BY " s.groupBy (Writing.nodes d s.groupBy), .optional " HAVING " (Writing.nodeOption d s.having),
    .listed d " ORDER BY " s.orderBy (Writing.nodes d s.orderBy), .actAll d (d.hooks.trailing s)]

theorem Writing.select_eq (d : Dialect) (s : Select) :
    Writing.select d s = (do
      requireLimit d s.limit
      inFrame d do
        actAll d (d.hooks.opening s)
        (s.inOrder d).forM id
        actAll d (d.hooks.closing s)) := by
  obtain ⟨distinct, limit, fields, sources, filter, groupBy, having, orderBy⟩ := s
  cases fields <;> simp [Writing.select, Select.inOrder, Writing.fields, Select.distinct, Select.limit, Select.fields,
    Select.sources, Select.filter, Select.groupBy, Select.having, Select.orderBy] <;> rfl

theorem Select.inOrder_add {d : Dialect} (hooks : d.hooks.Orderly) (s : Select) : ∀ w ∈ s.inOrder d, w.Adds := by
  have fields : (Writing.fields d s.fields).Adds := by
    unfold Writing.fields
    split
    · exact .emit "*"
    · exact values_add hooks ", " s.fields
  simp only [Select.inOrder, List.forall_mem_cons]
  exact ⟨.emit _, .emit _, actAll_adds d (hooks.heading s), fields, fromSection_adds hooks _, optional_adds hooks _ _,
    listed_adds hooks _ _, optional_adds hooks _ _, listed_adds hooks _ _, actAll_adds d (hooks.trailing s), nofun⟩

/-- **A select adds the texts of its parts in the order of the grammar**, inside what the dialect puts around it. -/
theorem select_adds_inOrder {d : Dialect} (hooks : d.hooks.Orderly) {s : Select} {p t : Pass}
    (h : (Writing.select d s).run p = (.ok (), t)) :
    ∃ texts wrap, List.Forall₂ Gives (s.inOrder d) texts ∧ (wrap = id ∨ d.hooks.closing s = [.endStaging wrap])
      ∧ t.text = p.text ++ wrap (String.join texts) := by
  rw [Writing.select_eq] at h
  obtain ⟨_, p', asked, framed⟩ := Writing.run_bind_ok h
  obtain rfl : p' = p := by
    unfold Writing.requireLimit at asked
    split at asked <;> exact (congrArg Prod.snd asked).symm
  obtain ⟨u, whole, -, rfl⟩ := Writing.run_inFrame_ok framed
  obtain ⟨_, v, opened, rest⟩ := Writing.run_bind_ok whole
  obtain ⟨_, w, written, closed⟩ := Writing.run_bind_ok rest
  obtain ⟨texts, given, text, frames⟩ := Writing.Adds.inTurn (Select.inOrder_add hooks s) written
  rcases hooks.frame s with ⟨opening, closing⟩ | ⟨opening, wrap, closing⟩
  · rw [opening] at opened
    rw [closing] at closed
    cases opened
    cases closed
    exact ⟨texts, id, given, .inl rfl, text⟩
  · rw [opening, Writing.run_setAside d rfl] at opened
    cases opened
    rw [closing, Writing.run_putBack d wrap frames] at closed
    cases closed
    refine ⟨texts, wrap, given, .inr closing, ?_⟩
    rw [text, String.empty_append]

end SqlTree
