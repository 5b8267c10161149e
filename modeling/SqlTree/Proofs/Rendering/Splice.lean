/-
Selects that stay inside the statement around them.

While a select is written its hooks may set the text before it aside and put it back, and any clause in it may hold a
select that does the same. Two passes that know the same of parameters and names are run side by side, each from the
beginning of a select on (`Pass.Beside`): what was written since then is the same in both, in place or set aside.

- `Local`: writing that goes on inside a select as if nothing were around it. So do the hooks and all pieces.
- `Splices`: writing that puts a text behind what was there, which depends on parameters and names alone, and leaves the
  frames as they were. A frame around local writing does so.
- `select_splices`: so does a select, on every dialect, whatever its hooks do; if it fails, the frames and the number of
  scripts are as before, too.
-/
import SqlTree.Dialect.Catalogue
import SqlTree.Proofs.Rendering.Play

namespace SqlTree

/-- what a pass knows of parameters and names, apart from values -/
structure Tables where
  /-- the names that parameters are bound under, in the order of their registration -/
  bound : List String
  keys : List (ParamKey × Nat)
  names : List String
  reserved : List String
  generated : Nat

namespace Pass

def tables (s : Pass) : Tables := ⟨s.params.map BoundParam.name, s.keys, s.names, s.reserved, s.generated⟩

variable {p p' s s' t t' : Pass}

theorem index?_eq_of_tables (h : s.tables = s'.tables) (key : ParamKey) : s.index? key = s'.index? key := by
  rw [index?, index?, show s.keys = s'.keys from congrArg Tables.keys h]

theorem nextNumber_eq_of_tables (h : s.tables = s'.tables) : s.nextNumber = s'.nextNumber := by
  rw [nextNumber, nextNumber, show s.names = s'.names from congrArg Tables.names h,
    show s.reserved = s'.reserved from congrArg Tables.reserved h,
    show s.generated = s'.generated from congrArg Tables.generated h]

theorem names_eq_of_tables (h : s.tables = s'.tables) : s.names = s'.names := congrArg Tables.names h

theorem bound_eq_of_tables (h : s.tables = s'.tables) : s.params.map BoundParam.name = s'.params.map BoundParam.name :=
  congrArg Tables.bound h

theorem length_eq_of_tables (h : s.tables = s'.tables) : s.params.length = s'.params.length := by
  simpa using congrArg List.length (bound_eq_of_tables h)

/-- two passes go on from others with the same text behind what was there, in the frames that were there -/
structure Extended (s s' t t' : Pass) : Prop where
  tables : t.tables = t'.tables
  frames : t.frames = s.frames
  frames' : t'.frames = s'.frames
  text : ∃ x, t.text = s.text ++ x ∧ t'.text = s'.text ++ x

theorem Extended.trans {u u' : Pass} (h : Extended s s' t t') (more : Extended t t' u u') : Extended s s' u u' := by
  obtain ⟨x, text, text'⟩ := h.text
  obtain ⟨y, more_, more'⟩ := more.text
  refine ⟨more.tables, more.frames.trans h.frames, more.frames'.trans h.frames', x ++ y, ?_, ?_⟩
  · rw [more_, text, String.append_assoc]
  · rw [more', text', String.append_assoc]

/-- Two passes inside selects that were begun at `p` and at `p'`: they know the same, and what was written since then
is the same, be it in place or set aside. -/
inductive Beside (p p' s s' : Pass) : Prop
  | inPlace (tables : s.tables = s'.tables) (frames : s.frames = none :: p.frames)
      (frames' : s'.frames = none :: p'.frames)
    (x : String) (text : s.text = p.text ++ x) (text' : s'.text = p'.text ++ x)
  | aside (tables : s.tables = s'.tables) (text : s.text = s'.text) (x : String)
    (frames : s.frames = some (p.text ++ x) :: p.frames) (frames' : s'.frames = some (p'.text ++ x) :: p'.frames)

namespace Beside

theorem tables_eq (h : Beside p p' s s') : s.tables = s'.tables := by
  cases h <;> assumption

theorem tail_eq (h : Beside p p' s s') : s.frames.tail = p.frames := by
  cases h with
  | inPlace _ frames => rw [frames, List.tail_cons]
  | aside _ _ _ frames => rw [frames, List.tail_cons]

theorem enter (h : s.tables = s'.tables) :
    Beside s s' { s with frames := none :: s.frames } { s' with frames := none :: s'.frames } :=
  .inPlace h rfl rfl "" (String.append_empty).symm (String.append_empty).symm

/-- The same text behind what is at hand leaves passes beside each other. -/
theorem extend (h : Beside p p' s s') (more : Extended s s' t t') : Beside p p' t t' := by
  obtain ⟨y, text, text'⟩ := more.text
  cases h with
  | inPlace _ frames frames' x before before' =>
    refine .inPlace more.tables (more.frames.trans frames) (more.frames'.trans frames') (x ++ y) ?_ ?_
    · rw [text, before, String.append_assoc]
    · rw [text', before', String.append_assoc]
  | aside _ same x frames frames' =>
    exact .aside more.tables (by rw [text, text', same]) x (more.frames.trans frames) (more.frames'.trans frames')

/-- A select whose text is in place at its end has put it behind what was there. -/
theorem leave (h : Beside s s' t t') (inPlace : t.frames.head?.join = none) :
    Extended s s' { t with frames := t.frames.tail } { t' with frames := t'.frames.tail } := by
  cases h with
  | inPlace tables frames frames' x text text' =>
    exact ⟨tables, by simp only [frames, List.tail_cons], by simp only [frames', List.tail_cons], x, text, text'⟩
  | aside _ _ _ frames =>
    rw [frames] at inPlace
    cases inPlace

/-- Whether text is set aside is the same in both. -/
theorem head_eq (h : Beside p p' s s') : s.frames.head?.join.isSome = s'.frames.head?.join.isSome := by
  cases h with
  | inPlace _ frames frames' => rw [frames, frames']; rfl
  | aside _ _ _ frames frames' => rw [frames, frames']; rfl

end Beside
end Pass

open Pass (Extended Beside)

namespace Writing

variable {α β : Type}

/-- Writing that ends alike wherever parameters and names are the same, and then puts the same text behind what was
there; the frames stay as they are in any case. -/
def Splices (w : Writing α) : Prop := ∀ ⦃s s'⦄, s.tables = s'.tables →
  (w.run s).1 = (w.run s').1 ∧ (w.run s).2.frames = s.frames
    ∧ ∀ a, (w.run s).1 = .ok a → Extended s s' (w.run s).2 (w.run s').2

/-- Writing inside a select that ends alike beside another one and then stays beside it; the frames around the select
stay as they are in any case. -/
def Local (w : Writing α) : Prop := ∀ ⦃p p' s s'⦄, Beside p p' s s' →
  (w.run s).1 = (w.run s').1 ∧ (w.run s).2.frames.tail = p.frames
    ∧ ∀ a, (w.run s).1 = .ok a → Beside p p' (w.run s).2 (w.run s').2

namespace Splices

theorem pure (a : α) : Splices (Pure.pure a : Writing α) := fun _ _ tables =>
  ⟨rfl, rfl, fun _ _ => ⟨tables, rfl, rfl, "", String.append_empty.symm, String.append_empty.symm⟩⟩

theorem throw (e : Error) : Splices (MonadExcept.throw e : Writing α) := fun _ _ _ =>
  ⟨rfl, rfl, fun _ ha => by cases ha⟩

theorem seq {w : Writing Unit} {v : Writing β} (hw : Splices w) (hv : Splices v) : Splices (do w; v) := by
  intro s s' tables
  obtain ⟨same, frames, extended⟩ := hw tables
  rw [run_bind, run_bind]
  generalize w.run s = o at same frames extended ⊢
  generalize w.run s' = o' at same extended ⊢
  obtain ⟨r, t⟩ := o
  obtain ⟨r', t'⟩ := o'
  obtain rfl : r = r' := same
  cases r with
  | error e => exact ⟨rfl, frames, fun _ ha => by cases ha⟩
  | ok _ =>
    have first := extended () rfl
    obtain ⟨same, frames', extended⟩ := hv first.tables
    exact ⟨same, frames'.trans first.frames, fun a ha => first.trans (extended a ha)⟩

end Splices

/-! ### Local writing -/

theorem Splices.local {w : Writing α} (hw : Splices w) : Local w := by
  intro p p' s s' beside
  obtain ⟨same, frames, extended⟩ := hw beside.tables_eq
  exact ⟨same, frames ▸ beside.tail_eq, fun a ha => beside.extend (extended a ha)⟩

namespace Local

theorem pure (a : α) : Local (Pure.pure a : Writing α) := fun _ _ _ _ h => ⟨rfl, h.tail_eq, fun _ _ => h⟩

theorem throw (e : Error) : Local (MonadExcept.throw e : Writing α) :=
  fun _ _ _ _ h => ⟨rfl, h.tail_eq, fun _ ha => by cases ha⟩

/-- What follows goes on where what came before has ended. -/
theorem bind {w : Writing α} {f : α → Writing β} (hw : Local w) (hf : ∀ a, Local (f a)) : Local (w >>= f) := by
  intro p p' s s' beside
  obtain ⟨same, outer, inner⟩ := hw beside
  rw [run_bind, run_bind]
  generalize w.run s = o at same outer inner ⊢
  generalize w.run s' = o' at same inner ⊢
  obtain ⟨r, t⟩ := o
  obtain ⟨r', t'⟩ := o'
  obtain rfl : r = r' := same
  cases r with
  | ok a => exact hf a (inner a rfl)
  | error e => exact ⟨rfl, outer, fun _ ha => by cases ha⟩

theorem seq {w : Writing Unit} {v : Writing β} (hw : Local w) (hv : Local v) : Local (do w; v) := hw.bind fun _ => hv

/-- A call for which passes stay beside each other even if it fails may be tried. -/
theorem attempt {w : Writing α} (hw : ∀ ⦃p p' s s'⦄, Beside p p' s s' →
    (w.run s).1 = (w.run s').1 ∧ Beside p p' (w.run s).2 (w.run s').2) : Local w ∧ Local (Writing.attempt w) := by
  refine ⟨fun p p' s s' beside => ?_, fun p p' s s' beside => ?_⟩
  · obtain ⟨same, after⟩ := hw beside
    exact ⟨same, after.tail_eq, fun _ _ => after⟩
  · obtain ⟨same, after⟩ := hw beside
    rw [run_attempt, run_attempt]
    exact ⟨congrArg (Except.ok ∘ Except.toOption) same, after.tail_eq, fun _ _ => after⟩

end Local

/-! ### Hooks -/

theorem Splices.emit (text : String) : Splices (Writing.emit text) :=
  fun _ _ tables => ⟨rfl, rfl, fun _ _ => ⟨tables, rfl, rfl, text, rfl, rfl⟩⟩

theorem beginStaging_beside (d : Dialect) {p p' s s' : Pass} (h : Beside p p' s s') :
    ((beginStaging d).run s).1 = ((beginStaging d).run s').1
      ∧ Beside p p' ((beginStaging d).run s).2 ((beginStaging d).run s').2 := by
  rw [run_beginStaging, run_beginStaging]
  have beside := h
  cases h with
  | inPlace tables frames frames' x text text' =>
    rw [frames, frames']
    exact ⟨rfl, .aside tables rfl x (by rw [text]) (by rw [text'])⟩
  | aside _ _ _ frames frames' =>
    rw [frames, frames']
    exact ⟨rfl, beside⟩

/-- Text is put back in both passes or in none, and both hand over the same. -/
theorem endStaging_beside (d : Dialect) {p p' s s' : Pass} (h : Beside p p' s s') :
    ((endStaging d).run s).1 = ((endStaging d).run s').1
      ∧ Beside p p' ((endStaging d).run s).2 ((endStaging d).run s').2 := by
  rw [run_endStaging, run_endStaging]
  have beside := h
  cases h with
  | inPlace tables frames frames' x text text' =>
    rw [frames, frames']
    exact ⟨rfl, beside⟩
  | aside tables text x frames frames' =>
    rw [frames, frames']
    exact ⟨congrArg Except.ok text, .inPlace tables rfl rfl x rfl rfl⟩

namespace Local

/-- An action of a hook is local, whatever it tries. -/
theorem act (d : Dialect) (a : HookAction) : Local (Writing.act d a) := by
  obtain ⟨begins, triesBegin⟩ := attempt fun _ _ _ _ h => beginStaging_beside d h
  obtain ⟨ends, triesEnd⟩ := attempt fun _ _ _ _ h => endStaging_beside d h
  induction a with
  | write text => exact (Splices.emit text).local
  | beginStaging => exact begins
  | endStaging wrap => exact ends.bind fun text => (Splices.emit (wrap text)).local
  | tryBegin next ih => exact triesBegin.bind fun begun => ih begun.isSome
  | tryEnd next ih => exact triesEnd.bind ih
  | both first second ih ih' => exact ih.seq ih'

theorem actAll (d : Dialect) (actions : List HookAction) : Local (Writing.actAll d actions) := by
  induction actions with
  | nil => exact pure ()
  | cons a actions ih => exact (act d a).seq ih

end Local

/-! ### Parameters -/

theorem tables_enter (d : Dialect) (p : Parameter) (direction : Direction) (name : String) {s s' : Pass}
    (h : s.tables = s'.tables) : (s.enter d p direction name).tables = (s'.enter d p direction name).tables := by
  have length := Pass.length_eq_of_tables h
  simp only [Pass.tables, Tables.mk.injEq] at h
  simp [Pass.tables, Pass.enter, Pass.addParam, h, length]

theorem tables_enterLiteral (d : Dialect) (v : Value) {s s' : Pass} (h : s.tables = s'.tables) :
    (s.enterLiteral d v).tables = (s'.enterLiteral d v).tables := by
  have next := Pass.nextNumber_eq_of_tables h
  simp only [Pass.tables, Tables.mk.injEq] at h
  simp [Pass.tables, Pass.enterLiteral, Pass.addParam, h, next]

/-- A placeholder is spelled by the name that its parameter is bound under. -/
theorem placed_extends (d : Dialect) (i : Nat) {s s' t t' : Pass} (h : t.tables = t'.tables)
    (frames : t.frames = s.frames)
    (frames' : t'.frames = s'.frames) (text : t.text = s.text) (text' : t'.text = s'.text) :
    Extended s s' (t.placed d i) (t'.placed d i) := by
  refine ⟨h, frames, frames', d.placeholder i (((t.params.map BoundParam.name)[i]?).getD ""), ?_, ?_⟩
  · rw [Pass.placed, text, List.getElem?_map]
  · rw [Pass.placed, text', Pass.bound_eq_of_tables h, List.getElem?_map]

/-- Registering writes nothing, and goes by names and by what is registered. -/
theorem register_of_tables (d : Dialect) (p : Parameter) (direction : Direction) {s s' : Pass}
    (h : s.tables = s'.tables) :
    ((register d p direction).run s).1 = ((register d p direction).run s').1
      ∧ ((register d p direction).run s).2.tables = ((register d p direction).run s').2.tables := by
  rw [run_register, run_register, Pass.index?_eq_of_tables h, Pass.names_eq_of_tables h, Pass.length_eq_of_tables h,
    Pass.nextNumber_eq_of_tables h]
  rcases s'.index? (p.key d) with _ | i
  · rcases p.name with _ | name
    · refine ⟨rfl, tables_enter d p direction _ ?_⟩
      simp only [Pass.tables, Tables.mk.injEq] at h
      simp [Pass.tables, h]
    · dsimp only
      split
      · exact ⟨rfl, h⟩
      · exact ⟨rfl, tables_enter d p direction _ h⟩
  · exact ⟨rfl, h⟩

theorem register_writes_nothing (d : Dialect) (p : Parameter) (direction : Direction) (s : Pass) :
    ((register d p direction).run s).2.text = s.text ∧ ((register d p direction).run s).2.frames = s.frames := by
  rw [run_register]
  rcases s.index? (p.key d) with _ | i
  · rcases p.name with _ | name
    · exact ⟨rfl, rfl⟩
    · dsimp only
      split <;> exact ⟨rfl, rfl⟩
  · exact ⟨rfl, rfl⟩

/-- A place where a parameter enters puts its placeholder behind what was there, if it has one. -/
theorem Splices.occurrence (d : Dialect) (o : Occurrence) : Splices (o.play d) := by
  intro s s' h
  cases o with
  | constant v =>
    rw [Occurrence.run_constant, Occurrence.run_constant, Pass.length_eq_of_tables h]
    exact ⟨rfl, rfl, fun _ _ => placed_extends d _ (tables_enterLiteral d v h) rfl rfl rfl rfl⟩
  | param p direction placed =>
    obtain ⟨same, tables⟩ := register_of_tables d p direction h
    obtain ⟨text, frames⟩ := register_writes_nothing d p direction s
    obtain ⟨text', frames'⟩ := register_writes_nothing d p direction s'
    rw [Occurrence.play, run_bind, run_bind]
    generalize (register d p direction).run s = o at same tables text frames ⊢
    generalize (register d p direction).run s' = o' at same tables text' frames' ⊢
    obtain ⟨r, t⟩ := o
    obtain ⟨r', t'⟩ := o'
    obtain rfl : r = r' := same
    cases r with
    | error e => exact ⟨rfl, frames, fun _ ha => by cases ha⟩
    | ok i =>
      cases placed with
      | true => exact ⟨rfl, frames, fun _ _ => placed_extends d i tables frames frames' text text'⟩
      | false =>
        refine ⟨rfl, frames, fun _ _ => ⟨tables, frames, frames', "", ?_, ?_⟩⟩
        · exact text.trans String.append_empty.symm
        · exact text'.trans String.append_empty.symm

/-! ### Frames -/

/-- **A frame keeps what is written in it together**, however often the text is set aside there and put back. -/
theorem Splices.inFrame (d : Dialect) {w : Writing Unit} (hw : Local w) : Splices (Writing.inFrame d w) := by
  intro s s' h
  obtain ⟨same, outer, inner⟩ := hw (Beside.enter h)
  rw [run_inFrame, run_inFrame]
  generalize w.run { s with frames := none :: s.frames } = o at same outer inner ⊢
  generalize w.run { s' with frames := none :: s'.frames } = o' at same inner ⊢
  obtain ⟨r, t⟩ := o
  obtain ⟨r', t'⟩ := o'
  obtain rfl : r = r' := same
  cases r with
  | error e => exact ⟨rfl, outer, fun _ ha => by cases ha⟩
  | ok a =>
    have beside := inner a rfl
    refine ⟨by simp only [beside.head_eq], outer, fun _ ha => beside.leave ?_⟩
    cases staged : t.frames.head?.join with
    | none => rfl
    | some before =>
      dsimp only at ha
      rw [staged] at ha
      cases ha

/-- **Pieces inside a select are local**, by induction on the pieces: a select among them is in a frame of its own. -/
theorem Local.playAll (d : Dialect) (xs : List Piece) : Local (Piece.playAll d xs) := by
  induction xs using Piece.listInduction with
  | nil => exact pure ()
  | text t xs ih => exact (Splices.emit t).local.seq ih
  | ident name xs ih => exact (Splices.emit (d.quote name)).local.seq ih
  | literal t xs ih => exact (Splices.emit (Dialect.literal t)).local.seq ih
  | value o xs ih => exact (Splices.occurrence d o).local.seq ih
  | act a xs ih => exact (act d a).seq ih
  | stop e xs ih => exact (throw e).seq ih
  | frame opening body closing xs hbody ih =>
    have inside := (actAll d opening).seq (hbody.seq (actAll d closing))
    exact (Splices.inFrame d inside).local.seq ih

/-- A select is in a frame, or nothing of it is written. -/
theorem Splices.select (d : Dialect) (s : Select) : Splices (Writing.select d s) := by
  have frame : Splices (Piece.playAll d [.frame (d.hooks.opening s) (s.inner d) (d.hooks.closing s)]) := by
    rw [Piece.playAll_cons, Piece.playAll_nil, Piece.play_frame, bind_pure_unit]
    exact .inFrame d ((Local.actAll d _).seq ((Local.playAll d _).seq (Local.actAll d _)))
  rw [select_eq_play, s.pieces_eq]
  cases s.limit with
  | none => exact frame
  | some limit =>
    rw [Piece.limitFault]
    cases d.require limit.capability (limit.describe ++ " on select") with
    | ok _ => exact frame
    | error e => exact fun _ _ _ => ⟨rfl, rfl, fun _ ha => by cases ha⟩

end Writing

/-! ## Selects -/

/-- a pass that has written nothing and knows what it is told -/
def Tables.pass (k : Tables) : Pass where
  text := ""
  frames := []
  scriptDepth := 0
  params := k.bound.map fun name => ⟨name, none, .input, .null, false⟩
  keys := k.keys
  names := k.names
  reserved := k.reserved
  generated := k.generated
  slots := []
  supply := fun _ _ => .null
  produced := []

theorem Tables.tables_pass (k : Tables) : k.pass.tables = k := by
  simp [Tables.pass, Pass.tables, Function.comp_def]

/-- **A select stays inside the statement around it.** On any dialect, with whatever hooks that write, set text aside
and put it back, a select ends in a way that depends on the parameters and names of the pass alone. If it is written,
a text that depends on nothing else stands behind what was there; and in any case the frames around it, with what is
set aside in them, and the number of scripts are as before. -/
theorem select_splices (d : Dialect) (s : Select) : ∃ splice : Tables → Result String, ∀ p : Pass,
    ((Writing.select d s).run p).1 = (splice p.tables).map (fun _ => ())
      ∧ (∀ t, splice p.tables = .ok t → ((Writing.select d s).run p).2.text = p.text ++ t)
      ∧ ((Writing.select d s).run p).2.frames = p.frames
      ∧ ((Writing.select d s).run p).2.scriptDepth = p.scriptDepth := by
  refine ⟨fun k => ((Writing.select d s).run k.pass).1.map fun _ => ((Writing.select d s).run k.pass).2.text,
    fun p => ?_⟩
  obtain ⟨same, frames, extended⟩ := Writing.Splices.select d s p.tables.tables_pass.symm
  dsimp only
  rw [← same]
  refine ⟨?_, fun t ht => ?_, frames, ?_⟩
  · cases ((Writing.select d s).run p).1 <;> rfl
  · cases written : ((Writing.select d s).run p).1 with
    | error e =>
      rw [written] at ht
      cases ht
    | ok a =>
      rw [written] at ht
      obtain ⟨x, text, text'⟩ := (extended a written).text
      have alone : ((Writing.select d s).run p.tables.pass).2.text = x := text'.trans (String.empty_append ..)
      rw [text, ← alone]
      cases ht
      rfl
  · rw [select_eq_play]
    exact Piece.playAll_depth d (s.pieces d) p

/-- A select whose text is set aside is written behind what is there, whatever is set aside around it. -/
example : ((Writing.select .oracle (.mk false (some (.first 2)) [] [.ofTable "t"] none [] none [])).run
    { Pass.start fun _ _ => .null with text := "a = (", frames := [some "b", none] }).2.text
    = "a = (SELECT * FROM (SELECT * FROM \"t\") WHERE ROWNUM <= 2" := rfl

end SqlTree
