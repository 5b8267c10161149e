/-
What a select that fails leaves of the text.

A select whose text is set aside keeps the text in front of it in its frame. If it fails the frame is closed, and what
it kept is gone; anywhere else the text stays, with what was written of the select behind it.

- `Piece.stopsAsideAll`: whether pieces stop in a select that is set aside.
- `Piece.OrderlyAll.breaks`: if they do, the text in front of them is lost, and else it stays, whatever it is.
- `select_failure_text`: so it is with selects. On the dialects of the library they stop aside on Oracle alone, and
  only in a select with a row limit.
- `earlier_text_lost`: there a select that fails takes with it what was written before.
-/
import SqlTree.Proofs.Rendering.Added
import SqlTree.Proofs.Statement.Parts

namespace SqlTree

/-! ## Where pieces stop -/

namespace Piece

mutual

/-- whether a piece that stops is a select that is set aside, or stops inside of one -/
def stopsAside (d : Dialect) : Piece → Tables → Bool
  | .frame opening body _, k => !opening.isEmpty || stopsAsideAll d body k
  | _, _ => false

def stopsAsideAll (d : Dialect) : List Piece → Tables → Bool
  | [], _ => false
  | x :: xs, k =>
    match (x.play d).run k.pass with
    | (.ok _, u) => stopsAsideAll d xs u.tables
    | (.error _, _) => x.stopsAside d k

end

end Piece

/-- whether a select that is written with these parameters and names known fails where text is set aside, be it its own
text or that of a select in it -/
def Select.failsAside (d : Dialect) (s : Select) (k : Tables) : Bool := Piece.stopsAsideAll d (s.pieces d) k

/-! ## Writing that may fail -/

namespace Writing

/-- writing that, where it fails with these parameters and names known, has lost the text it found or has left it, and
has another text behind that -/
def Leaves (w : Writing Unit) (k : Tables) (lost : Bool) (left : String) : Prop :=
  ∀ s e t, s.tables = k → w.run s = (.error e, t) → t.text = (if lost then "" else s.text) ++ left

/-- What is written in a pass that has written nothing is written everywhere. -/
theorem Splices.ran_alike {w : Writing Unit} (hw : Splices w) {k : Tables} {u : Pass} (ran : w.run k.pass = (.ok (), u))
    {s : Pass} (known : s.tables = k) :
    ∃ t, w.run s = (.ok (), t) ∧ t.tables = u.tables ∧ t.text = s.text ++ u.text := by
  obtain ⟨same, -, extended⟩ := hw (known.trans k.tables_pass.symm)
  rw [ran] at same extended
  obtain ⟨tables, -, -, x, text, alone⟩ := extended () same
  have whole : u.text = x := alone.trans (String.empty_append ..)
  exact ⟨(w.run s).2, Prod.ext same rfl, tables, whole ▸ text⟩

theorem Splices.failed_alike {w : Writing Unit} (hw : Splices w) {k : Tables} {e : Error} {u : Pass}
    (failed : w.run k.pass = (.error e, u)) {s : Pass} (known : s.tables = k) : ∃ t, w.run s = (.error e, t) := by
  obtain ⟨same, -⟩ := hw (known.trans k.tables_pass.symm)
  rw [failed] at same
  exact ⟨(w.run s).2, Prod.ext same rfl⟩

theorem Leaves.still {w : Writing Unit} (h : ∀ s e t, w.run s = (.error e, t) → t.text = s.text) (k : Tables) :
    w.Leaves k false "" := fun s e t _ failed =>
  (h s e t failed).trans String.append_empty.symm

end Writing

open Writing (Leaves Splices)

namespace Piece

variable {d : Dialect}

/-- pieces that put their text behind what was there, and that lose that if they stop aside, and else leave it -/
structure Breaks (d : Dialect) (xs : List Piece) : Prop where
  splices : Splices (playAll d xs)
  leaves : ∀ k, ∃ left, (playAll d xs).Leaves k (stopsAsideAll d xs k) left

namespace Breaks

variable {x : Piece} {xs : List Piece}

theorem nil : Breaks d [] := ⟨.pure (), fun k => ⟨"", Leaves.still (fun s e t failed => by cases failed) k⟩⟩

/-- Pieces stop in the first one, or behind its text. -/
theorem cons (splices : Splices (x.play d)) (leaves : ∀ k, ∃ left, (x.play d).Leaves k (x.stopsAside d k) left)
    (hxs : Breaks d xs) : Breaks d (x :: xs) := by
  refine ⟨splices.seq hxs.splices, fun k => ?_⟩
  rw [stopsAsideAll, playAll_cons]
  rcases ran : (x.play d).run k.pass with ⟨e₀ | _, u⟩
  · obtain ⟨left, first⟩ := leaves k
    refine ⟨left, fun s e t known failed => ?_⟩
    obtain ⟨t', stopped⟩ := splices.failed_alike ran known
    rw [Writing.run_bind, stopped] at failed
    cases failed
    exact first s _ _ known stopped
  · obtain ⟨left, rest⟩ := hxs.leaves u.tables
    refine ⟨(if stopsAsideAll d xs u.tables then "" else u.text) ++ left, fun s e t known failed => ?_⟩
    obtain ⟨t', first, tables, text⟩ := splices.ran_alike ran known
    rw [Writing.run_bind, first] at failed
    rw [rest t' e t tables failed, text]
    by_cases aside : stopsAsideAll d xs u.tables = true
    · simp only [if_pos aside, String.empty_append]
    · simp only [if_neg aside, String.append_assoc]

theorem still (splices : Splices (x.play d)) (inPlace : ∀ k, x.stopsAside d k = false)
    (h : ∀ s e t, (x.play d).run s = (.error e, t) → t.text = s.text) (hxs : Breaks d xs) : Breaks d (x :: xs) :=
  cons splices (fun k => ⟨"", inPlace k ▸ Leaves.still h k⟩) hxs

end Breaks

section
variable {opening closing : List HookAction} {body : List Piece}

/-- A select without hooks around it leaves what is left inside it. -/
theorem frame_leaves (hbody : Breaks d body) (k : Tables) :
    ∃ left, ((Piece.frame [] body []).play d).Leaves k ((Piece.frame [] body []).stopsAside d k) left := by
  obtain ⟨left, leaves⟩ := hbody.leaves k
  refine ⟨left, fun s e t known failed => ?_⟩
  have bare : (do Writing.actAll d []; playAll d body; Writing.actAll d []) = playAll d body := by
    show (do pure (); playAll d body; pure ()) = _
    exact bind_pure_unit
  rw [play_frame, bare, Writing.run_inFrame] at failed
  rcases hr : (playAll d body).run { s with frames := none :: s.frames } with ⟨e' | _, u⟩
  · rw [hr] at failed
    cases failed
    exact leaves { s with frames := none :: s.frames } e u known hr
  · have frames : u.frames = none :: s.frames := by
      have same := (hbody.splices (s := { s with frames := none :: s.frames }) rfl).2.1
      rwa [hr] at same
    rw [hr] at failed
    simp only [frames] at failed
    exact absurd (congrArg Prod.fst failed) nofun

/-- A select that is set aside loses the text in front of it: what is left inside it has nothing before it. -/
theorem frame_aside_leaves (wrap : String → String) (hbody : Breaks d body) (k : Tables) :
    ∃ left, ((Piece.frame [.beginStaging] body [.endStaging wrap]).play d).Leaves k true left := by
  obtain ⟨left, leaves⟩ := hbody.leaves k
  refine ⟨left, fun s e t known failed => ?_⟩
  rw [play_frame, Writing.run_inFrame, Writing.run_bind, Writing.run_setAside d rfl] at failed
  dsimp only at failed
  rw [Writing.run_bind] at failed
  rcases hr : (playAll d body).run { s with text := "", frames := some s.text :: s.frames } with ⟨e' | _, u⟩
  · rw [hr] at failed
    cases failed
    have text := leaves { s with text := "", frames := some s.text :: s.frames } e u known hr
    rwa [ite_self] at text
  · have frames : u.frames = some s.text :: s.frames := by
      have same := (hbody.splices (s := { s with text := "", frames := some s.text :: s.frames }) rfl).2.1
      rwa [hr] at same
    rw [hr] at failed
    simp only [Writing.run_putBack d wrap frames] at failed
    exact absurd (congrArg Prod.fst failed) nofun

end

/-- **Pieces whose hooks belong together break so**, by induction on the pieces. -/
theorem OrderlyAll.breaks {xs : List Piece} (orderly : OrderlyAll xs) : Breaks d xs := by
  induction xs using Piece.listInduction with
  | nil => exact .nil
  | text t xs ih | literal t xs ih | ident t xs ih =>
    exact .still (.emit _) (fun _ => rfl) (fun s e t failed => by cases failed) (ih orderly.2)
  | act a xs ih =>
    obtain ⟨⟨t, rfl⟩, orderly⟩ := orderly
    exact .still (.emit t) (fun _ => rfl) (fun s e t failed => by cases failed) (ih orderly)
  | value o xs ih =>
    exact .still (.occurrence d o) (fun _ => rfl)
      (fun _ _ _ failed => congrArg Pass.text (Occurrence.eq_of_play_error failed)) (ih orderly.2)
  | stop e xs ih =>
    exact .still (.throw e) (fun _ => rfl) (fun s e t failed => by cases failed; rfl) (ih orderly.2)
  | frame opening body closing xs ihBody ih =>
    obtain ⟨⟨hooks, inside⟩, behind⟩ := orderly
    have hbody := ihBody inside
    have splices : Splices ((Piece.frame opening body closing).play d) :=
      .inFrame d ((Writing.Local.actAll d _).seq (hbody.splices.local.seq (Writing.Local.actAll d _)))
    refine .cons splices (fun k => ?_) (ih behind)
    rcases hooks with ⟨rfl, rfl⟩ | ⟨rfl, wrap, rfl⟩
    · exact frame_leaves hbody k
    · exact frame_aside_leaves wrap hbody k

/-! ## Selects in place -/

/-- pieces that stop nowhere aside, whatever they ask for -/
def InPlace (d : Dialect) (xs : List Piece) (_ : List Demand) : Prop := ∀ k, stopsAsideAll d xs k = false

theorem inPlace_cons {x : Piece} {xs : List Piece} (hx : ∀ k, x.stopsAside d k = false) (hxs : InPlace d xs []) :
    InPlace d (x :: xs) [] := by
  intro k
  rw [stopsAsideAll]
  split
  · exact hxs _
  · exact hx k

/-- Pieces in place stay so in front of others that are. -/
theorem stopsAsideAll_append {xs ys : List Piece} {k : Tables} (hx : stopsAsideAll d xs k = false)
    (hy : InPlace d ys []) : stopsAsideAll d (xs ++ ys) k = false := by
  induction xs generalizing k with
  | nil => exact hy k
  | cons x xs ih =>
    rw [stopsAsideAll] at hx
    rw [List.cons_append, stopsAsideAll]
    split <;> rename_i ran <;> rw [ran] at hx
    · exact ih hx
    · exact hx

theorem InPlace.refuses (d : Dialect) : Refuses d (InPlace d) where
  nil _ := rfl
  text _ := inPlace_cons (fun _ => rfl) fun _ => rfl
  ident _ := inPlace_cons (fun _ => rfl) fun _ => rfl
  literal _ := inPlace_cons (fun _ => rfl) fun _ => rfl
  append hx hy k := stopsAsideAll_append (hx k) hy
  value _ := inPlace_cons (fun _ => rfl) fun _ => rfl
  stop _ := inPlace_cons (fun _ => rfl) fun _ => rfl
  given _ h := h

theorem InPlace.acts (actions : List HookAction) : InPlace d (actions.map .act) [] := by
  induction actions with
  | nil => exact fun _ => rfl
  | cons a actions ih => exact inPlace_cons (fun _ => rfl) ih

end Piece

/-- **Clauses and selects stop nowhere aside** if no select in them is set aside, by induction on the tree. -/
theorem tree_inPlace (d : Dialect) :
    (∀ c : Clause, (∀ s, .statement (.select s) ∈ c.parts → d.hooks.opening s = []) →
        Piece.InPlace d (c.pieces d) c.demands)
      ∧ ∀ s : Select, (∀ s', .statement (.select s') ∈ s.parts → d.hooks.opening s' = []) →
        Piece.InPlace d (s.pieces d) s.demands := by
  have hC := Piece.InPlace.refuses d
  refine Clause.operandInduction (fun c operands query plain => ?_) fun s clauses plain => ?_
  · rw [c.parts_eq] at plain
    refine hC.clause_of_operands c (fun x hx => operands x hx fun s hs => plain s ?_) fun q hq =>
      query q hq fun s hs => plain s ?_
    · exact List.mem_append_left _ (List.mem_cons_of_mem _ (List.mem_flatMap_of_mem hx hs))
    · exact List.mem_append_right _ (List.mem_flatMap_of_mem (Option.mem_toList.2 hq) hs)
  · rw [s.parts_eq] at plain
    have body : Piece.InPlace d (s.inner d) (s.clauses.flatMap Clause.demands) :=
      hC.inner (.acts _) (.acts _) fun c hc => clauses c hc fun s' hs' =>
        plain s' (List.mem_cons_of_mem _ (List.mem_flatMap_of_mem hc hs'))
    have framed : Piece.InPlace d [.frame (d.hooks.opening s) (s.inner d) (d.hooks.closing s)] [] := by
      refine Piece.inPlace_cons (fun k => ?_) fun _ => rfl
      rw [Piece.stopsAside, plain s List.mem_cons_self]
      exact body k
    rw [s.pieces_eq]
    exact fun k => Piece.stopsAsideAll_append (hC.limitFault s.limit k) framed

/-! ## The dialects of the library -/

/-- Only Oracle sets a select aside, and only one with a row limit. -/
theorem opening_of_mem {d : Dialect} (hd : d ∈ Dialect.all) (s : Select) :
    d.hooks.opening s = [] ∨ d = .oracle ∧ s.limit ≠ none :=
  Dialect.of_mem_all (P := fun d => d.hooks.opening s = [] ∨ d = .oracle ∧ s.limit ≠ none)
    ⟨.inl rfl, .inl rfl, .inl rfl, .inl rfl, .inl rfl, by
      cases hl : s.limit with
      | none => exact .inl (by simp [Dialect.oracle, SelectHooks.rowNumbers, hl])
      | some l => exact .inr ⟨rfl, Option.some_ne_none l⟩⟩ hd

theorem Select.failsAside_of_limit {s : Select} (limit : s.limit ≠ none) {k : Tables} {e : Error} {u : Pass}
    (failed : (Writing.select .oracle s).run k.pass = (.error e, u)) : s.failsAside .oracle k = true := by
  obtain ⟨l, hl⟩ := Option.ne_none_iff_exists'.1 limit
  have opening : Dialect.oracle.hooks.opening s = [.beginStaging] := by
    simp [Dialect.oracle, SelectHooks.rowNumbers, hl]
  have supported : ∀ l ∈ s.limit, Dialect.oracle.supports l.capability = true := fun l _ => by cases l <;> rfl
  rw [select_eq_play, s.pieces_eq, Piece.limitFault_of_supports supported, List.nil_append, Piece.playAll_cons,
    Piece.playAll_nil, bind_pure_unit] at failed
  rw [Select.failsAside, s.pieces_eq, Piece.limitFault_of_supports supported, List.nil_append, Piece.stopsAsideAll,
    failed]
  simp only [Piece.stopsAside, opening, List.isEmpty_cons, Bool.not_false, Bool.true_or]

/-- **What a select that fails leaves of the text.** The text written before is lost if the select fails where text is
set aside, and else it stays; behind that stands what was written of the select, whatever was written before. Selects
fail aside on Oracle alone, and there only if one of them has a row limit; a select that has one fails aside wherever
it fails. In any case the selects around are in the frames that they were in. -/
theorem select_failure_text {d : Dialect} (hd : d ∈ Dialect.all) (s : Select) (k : Tables) :
    ∃ left, ∀ p e t, p.tables = k → (Writing.select d s).run p = (.error e, t) →
      t.frames = p.frames ∧ t.text = (if s.failsAside d k then "" else p.text) ++ left
        ∧ (s.failsAside d k = true → d = .oracle ∧ ∃ s', .statement (.select s') ∈ s.parts ∧ s'.limit ≠ none)
        ∧ (d = .oracle → s.limit ≠ none → s.failsAside d k = true) := by
  have hooks : d.hooks.Orderly := (Dialect.readable_of_mem hd).hooks.orderly
  have orderly : Piece.OrderlyAll (s.pieces d) :=
    (((Piece.Meets.refuses d).tree (Piece.Meets.ignoresHooks hooks)).2 s).orderly
  obtain ⟨left, leaves⟩ := (orderly.breaks (d := d)).leaves k
  refine ⟨left, fun p e t known failed => ⟨?_, ?_, fun aside => ?_, fun oracle limit => ?_⟩⟩
  · obtain ⟨-, frames, -⟩ := Splices.select d s (known.trans k.tables_pass.symm)
    rwa [failed] at frames
  · rw [select_eq_play] at failed
    exact leaves p e t known failed
  · by_contra unlimited
    have inPlace : s.failsAside d k = false := (tree_inPlace d).2 s (fun s' hs' =>
      (opening_of_mem hd s').resolve_right fun ⟨oracle, limit⟩ => unlimited ⟨oracle, s', hs', limit⟩) k
    rw [inPlace] at aside
    cases aside
  · subst oracle
    obtain ⟨same, -⟩ := Splices.select .oracle s (k.tables_pass.trans known.symm)
    rw [failed] at same
    have there : (Writing.select .oracle s).run k.pass = (.error e, ((Writing.select .oracle s).run k.pass).2) :=
      Prod.ext same rfl
    exact Select.failsAside_of_limit limit there

/-- the first row of the last generated key of no sequence -/
def firstKey : Select := .mk false (some (.first 1)) [.builtin (.lastId none)] [] none [] none []

/-- a pass that has written a remark and nothing else -/
def remarked : Pass := ((Writing.emit "-- a;\n").run (Pass.start fun _ _ => .null)).2

/-- Oracle needs a sequence and cannot write the select, which leaves what was written of it and no remark. -/
theorem select_failure_text_firstKey :
    Dialect.oracle ∈ Dialect.all
      ∧ ∃ left t, (Writing.select .oracle firstKey).run remarked = (.error (.render "oracle" .sequenceNeeded), t)
        ∧ t.frames = remarked.frames
        ∧ t.text = (if firstKey.failsAside .oracle remarked.tables then "" else remarked.text) ++ left
        ∧ firstKey.failsAside .oracle remarked.tables = true ∧ remarked.text = "-- a;\n" ∧ left = "SELECT " := by
  have known : Dialect.oracle ∈ Dialect.all := by simp [Dialect.all]
  have stops : ((Writing.select .oracle firstKey).run remarked).1 = .error (.render "oracle" .sequenceNeeded) := rfl
  have written : ((Writing.select .oracle firstKey).run remarked).2.text = "SELECT " := by decide +kernel
  obtain ⟨t, failed⟩ :
      ∃ t, (Writing.select .oracle firstKey).run remarked = (.error (.render "oracle" .sequenceNeeded), t) :=
    ⟨_, Prod.ext stops rfl⟩
  obtain ⟨left, leaves⟩ := select_failure_text known firstKey remarked.tables
  obtain ⟨frames, text, -, limited⟩ := leaves remarked _ t rfl failed
  have aside : firstKey.failsAside .oracle remarked.tables = true := limited rfl (Option.some_ne_none _)
  refine ⟨known, left, t, failed, frames, text, aside, by decide +kernel, ?_⟩
  rw [failed] at written
  rwa [aside, if_pos rfl, String.empty_append, written, eq_comm] at text

/-- On Oracle the remark is gone once the select behind it has failed. -/
theorem earlier_text_lost :
    ((Writing.select .oracle firstKey).run remarked).1.isOk = false
      ∧ ((Writing.select .oracle firstKey).run remarked).2.text = "SELECT "
      ∧ ¬ remarked.text.toList <+: ((Writing.select .oracle firstKey).run remarked).2.text.toList := by
  decide +kernel

end SqlTree
