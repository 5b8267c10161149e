/-
Calls that set text aside are accepted exactly when they are balanced.

The hooks of a select may set the text in front of it aside and put it back, as often as they like. Three checks
refuse a call that does not fit, or a select that ends with its text still set aside. What is written between the
hooks does not matter, though a select in it may do the same.

- `HookAction.Calls`: the calls that an action makes, and `Alternating`: those that fit.
- `Writing.Stages`: hooks do what their calls come to, and nothing else goes wrong in them.
- `Select.sections_splice`: what is written between the hooks goes by parameters and names alone.
- `select_staging`: a select is written if and only if the calls of its hooks alternate.
-/
import SqlTree.Proofs.Rendering.Added

namespace SqlTree

/-! ## Calls -/

/-- a call that concerns the text in front of a select -/
inductive StagingCall where
  | setAside
  | putBack
  deriving DecidableEq, Repr

/-- calls that set the text aside and put it back in turn -/
inductive Alternating : List StagingCall → Prop
  | nil : Alternating []
  | cons {calls : List StagingCall} (rest : Alternating calls) : Alternating (.setAside :: .putBack :: calls)

/-- whether the text is set aside behind calls, or the fault of the first call that does not fit -/
def staged : Bool → List StagingCall → Except RenderFault Bool
  | aside, [] => .ok aside
  | false, .setAside :: calls => staged true calls
  | true, .setAside :: _ => .error .alreadyStaged
  | true, .putBack :: calls => staged false calls
  | false, .putBack :: _ => .error .notStaged

/-- what is wrong with the calls of a whole select -/
def stagingFault? (calls : List StagingCall) : Option RenderFault :=
  match staged false calls with
  | .ok false => none
  | .ok true => some .neverFlushed
  | .error fault => some fault

theorem staged_append (aside : Bool) (calls more : List StagingCall) :
    staged aside (calls ++ more) = (staged aside calls).bind fun aside => staged aside more := by
  induction calls generalizing aside with
  | nil => rfl
  | cons call calls ih => cases aside <;> cases call <;> first | rfl | exact ih _

theorem staged_of_alternating {calls : List StagingCall} (h : Alternating calls) : staged false calls = .ok false := by
  induction h with
  | nil => rfl
  | cons _ ih => exact ih

/-- Calls that fit come in pairs. -/
theorem alternating_of_staged : ∀ calls, staged false calls = .ok false → Alternating calls
  | [], _ => .nil
  | .setAside :: .putBack :: calls, h => .cons (alternating_of_staged calls h)
  | [.setAside], h => by cases h
  | .setAside :: .setAside :: _, h => by cases h
  | .putBack :: _, h => by cases h

theorem stagingFault?_eq_none_iff {calls : List StagingCall} : stagingFault? calls = none ↔ Alternating calls := by
  refine ⟨fun h => alternating_of_staged calls ?_, fun h => by rw [stagingFault?, staged_of_alternating h]⟩
  rw [stagingFault?] at h
  split at h
  · assumption
  · cases h
  · cases h

/-- The staging calls that an action makes, where nothing is tried. A text that is handed over may be written later:
then what follows makes the same calls whatever the text is, and the action fails where there is none. -/
inductive HookAction.Calls : HookAction → List StagingCall → Prop
  | write (text : String) : Calls (.write text) []
  | beginStaging : Calls .beginStaging [.setAside]
  | endStaging (wrap : String → String) : Calls (.endStaging wrap) [.putBack]
  | handOver {next : Option String → HookAction} {wrap : String → String} {calls : List StagingCall}
    (some : ∀ text, Calls (next (some text)) calls) (none : next none = .endStaging wrap) :
    Calls (.tryEnd next) (.putBack :: calls)
  | both {first second : HookAction} {calls more : List StagingCall} (before : Calls first calls)
    (behind : Calls second more) : Calls (.both first second) (calls ++ more)

inductive HookAction.CallsAll : List HookAction → List StagingCall → Prop
  | nil : CallsAll [] []
  | cons {a : HookAction} {actions : List HookAction} {calls more : List StagingCall} (first : a.Calls calls)
    (rest : CallsAll actions more) : CallsAll (a :: actions) (calls ++ more)

open HookAction (CallsAll)

/-- the staging calls of the hooks of a select, in the order in which they are called -/
def SelectHooks.Calls (hooks : SelectHooks) (s : Select) (calls : List StagingCall) : Prop :=
  CallsAll (hooks.opening s ++ hooks.heading s ++ (hooks.trailing s ++ hooks.closing s)) calls

theorem HookAction.CallsAll.split {actions more : List HookAction} {calls : List StagingCall}
    (h : CallsAll (actions ++ more) calls) :
    ∃ before behind, calls = before ++ behind ∧ CallsAll actions before ∧ CallsAll more behind := by
  induction actions generalizing calls with
  | nil => exact ⟨[], calls, rfl, .nil, h⟩
  | cons a actions ih =>
    cases h with
    | cons first rest =>
      obtain ⟨before, behind, rfl, left, right⟩ := ih rest
      exact ⟨_, behind, (List.append_assoc ..).symm, .cons first left, right⟩

/-! ## Hooks -/

namespace Writing

/-- writing that does what calls come to, in the innermost select, and that fails with the fault of a call alone -/
def Stages (d : Dialect) (w : Writing Unit) (calls : List StagingCall) : Prop :=
  ∀ (s : Pass) (head : Option String) (outer : List (Option String)), s.frames = head :: outer →
    match staged head.isSome calls with
    | .ok aside => ∃ t head', w.run s = (.ok (), t) ∧ t.tables = s.tables ∧ t.frames = head' :: outer
        ∧ head'.isSome = aside
    | .error fault => (w.run s).1 = .error (.render d.name fault)

namespace Stages

variable {d : Dialect} {w v : Writing Unit} {calls more : List StagingCall}

/-- Writing that leaves the frames and what is known of parameters as they are makes no call. -/
theorem silent (h : ∀ s, ∃ t, w.run s = (.ok (), t) ∧ t.tables = s.tables ∧ t.frames = s.frames) : Stages d w [] := by
  intro s head outer frames
  obtain ⟨t, ran, tables, same⟩ := h s
  exact ⟨t, head, ran, tables, same.trans frames, rfl⟩

theorem emit (text : String) : Stages d (Writing.emit text) [] := silent fun _ => ⟨_, rfl, rfl, rfl⟩

theorem seq (hw : Stages d w calls) (hv : Stages d v more) : Stages d (do w; v) (calls ++ more) := by
  intro s head outer frames
  have first := hw s head outer frames
  rw [staged_append]
  rcases hs : staged head.isSome calls with fault | aside
  · rw [hs] at first
    show ((do w; v : Writing Unit).run s).1 = _
    rw [run_bind]
    rcases hr : w.run s with ⟨e | _, t⟩
    · rw [hr] at first
      exact first
    · rw [hr] at first
      cases first
  · rw [hs] at first
    obtain ⟨t, head', ran, tables, frames', rfl⟩ := first
    have second := hv t head' outer frames'
    have run : (do w; v : Writing Unit).run s = v.run t := by rw [run_bind, ran]
    rw [run]
    show match staged head'.isSome more with
      | .ok aside => _
      | .error fault => _
    rcases hm : staged head'.isSome more with fault | aside
    · rw [hm] at second
      exact second
    · rw [hm] at second
      obtain ⟨u, head'', ran', tables', rest⟩ := second
      exact ⟨u, head'', ran', tables'.trans tables, rest⟩

/-- **An action does what its calls come to**, by induction on the calls it makes. -/
theorem act {a : HookAction} (h : a.Calls calls) : Stages d (Writing.act d a) calls := by
  induction h with
  | write text => exact emit text
  | beginStaging =>
    intro s head outer frames
    cases head with
    | none =>
      refine ⟨{ s with text := "", frames := some s.text :: outer }, some s.text, ?_, rfl, rfl, rfl⟩
      rw [Writing.act, run_beginStaging, frames]
    | some before =>
      show ((Writing.beginStaging d).run s).1 = _
      rw [run_beginStaging, frames]
  | endStaging wrap =>
    intro s head outer frames
    cases head with
    | none =>
      show ((Writing.act d (.endStaging wrap)).run s).1 = _
      rw [Writing.act, run_bind, run_endStaging, frames]
    | some before =>
      refine ⟨{ s with text := before ++ wrap s.text, frames := none :: outer }, none, ?_, rfl, rfl, rfl⟩
      rw [Writing.act, run_bind, run_endStaging, frames]
      rfl
  | @handOver next wrap calls _ absent ih =>
    intro s head outer frames
    cases head with
    | none =>
      -- the pass is as it was, and tries in vain again
      show ((Writing.act d (.tryEnd next)).run s).1 = _
      simp only [Writing.act, run_bind, run_attempt, run_endStaging, frames, Except.toOption, absent]
    | some before =>
      have run : (Writing.act d (.tryEnd next)).run s
          = (Writing.act d (next (some s.text))).run { s with text := before, frames := none :: outer } := by
        simp only [Writing.act, run_bind, run_attempt, run_endStaging, frames, Except.toOption]
      rw [run]
      exact ih s.text { s with text := before, frames := none :: outer } none outer rfl
  | both _ _ first second => exact first.seq second

theorem actAll {actions : List HookAction} (h : CallsAll actions calls) :
    Stages d (Writing.actAll d actions) calls := by
  induction h with
  | nil => exact silent fun s => ⟨s, rfl, rfl, rfl⟩
  | cons first _ ih => exact (act first).seq ih

end Stages
end Writing

/-! ## Sections -/

open Writing (Splices Stages)

/-- pieces that put their text behind what was there, whatever they ask for -/
def Piece.Spliced (d : Dialect) (xs : List Piece) (_ : List Demand) : Prop := Splices (playAll d xs)

/-- Pieces outside of hooks are spliced in; a fault among them writes nothing. -/
theorem Piece.Spliced.refuses (d : Dialect) : Piece.Refuses d (Spliced d) where
  nil := Splices.pure ()
  text t := (Splices.emit t).seq (.pure ())
  ident name := (Splices.emit (d.quote name)).seq (.pure ())
  literal t := (Splices.emit (Dialect.literal t)).seq (.pure ())
  append hx hy := by
    rw [Spliced, playAll_append]
    exact Splices.seq hx hy
  value o := (Splices.occurrence d o).seq (.pure ())
  stop {_ e _} _ := (Splices.throw e).seq (.pure ())
  given _ h := h

/-- A clause is spliced in, for the selects in it are. -/
theorem Clause.spliced (d : Dialect) (c : Clause) : Piece.Spliced d (c.pieces d) c.demands := by
  have all : (∀ c : Clause, Piece.Spliced d (c.pieces d) c.demands)
      ∧ ∀ s : Select, Piece.Spliced d (s.pieces d) s.demands := by
    refine Clause.operandInduction (Piece.Spliced.refuses d).clause_of_operands fun s _ => ?_
    rw [Piece.Spliced, ← select_eq_play]
    exact .select d s
  exact all.1 c

/-- what a select writes between the hooks at its beginning and those at its end -/
def Select.sections (d : Dialect) (s : Select) : List (Writing Unit) :=
  [.fields d s.fields, .fromSection d s.sources (Writing.nodes d s.sources),
    .optional " WHERE " (Writing.nodeOption d s.filter), .listed d " GROUP BY " s.groupBy (Writing.nodes d s.groupBy),
    .optional " HAVING " (Writing.nodeOption d s.having), .listed d " ORDER BY " s.orderBy (Writing.nodes d s.orderBy)]

/-- **Sections are spliced in**: how they end goes by parameters and names alone, wherever text is set aside. -/
theorem Select.sections_splice (d : Dialect) (s : Select) : Splices ((s.sections d).forM id) := by
  have hC := Piece.Spliced.refuses d
  have node : ∀ c, Writing.node d c = Piece.playAll d (c.pieces d) := node_eq_play d
  have fields : Splices (Writing.fields d s.fields) := by
    unfold Writing.fields
    split
    · exact .emit "*"
    · rw [← Piece.play_values d ", " fun c _ => node c]
      exact hC.values ", " fun c _ => c.spliced d
  have tables : Splices (Writing.fromSection d s.sources (Writing.nodes d s.sources)) := by
    rw [← Piece.play_fromSection d fun c _ => node c]
    exact hC.fromSection fun c _ => c.spliced d
  have listed : ∀ keywords cs, Splices (Writing.listed d keywords cs (Writing.nodes d cs)) := by
    intro keywords cs
    rw [← Piece.play_listed d keywords fun c _ => node c]
    exact hC.listed keywords fun c _ => c.spliced d
  have optional : ∀ keywords o, Splices (Writing.optional keywords (Writing.nodeOption d o)) := by
    intro keywords o
    rw [← Piece.play_optional d keywords fun c _ => node c]
    exact hC.optional keywords fun c _ => c.spliced d
  exact fields.seq (tables.seq ((optional _ _).seq ((listed _ _).seq
    ((optional _ _).seq ((listed _ _).seq (.pure ()))))))

/-! ## Selects -/

/-- what a select writes before its sections -/
def Select.front (d : Dialect) (s : Select) : Writing Unit := do
  Writing.actAll d (d.hooks.opening s)
  Writing.emit "SELECT "
  Writing.emit (if s.distinct then "DISTINCT " else "")
  Writing.actAll d (d.hooks.heading s)

def Select.back (d : Dialect) (s : Select) : Writing Unit := do
  Writing.actAll d (d.hooks.trailing s)
  Writing.actAll d (d.hooks.closing s)

theorem Writing.select_eq_sections (d : Dialect) (s : Select) :
    Writing.select d s = (do
      requireLimit d s.limit
      inFrame d do
        s.front d
        (s.sections d).forM id
        s.back d) := by
  rw [Writing.select_eq]
  simp [Select.inOrder, Select.sections, Select.front, Select.back, List.forM_cons]

section
variable {d : Dialect} {s : Select} {calls : List StagingCall}

/-- The hooks before the sections make the first calls, those behind them the others. -/
theorem SelectHooks.Calls.stages (h : d.hooks.Calls s calls) :
    ∃ before behind, calls = before ++ behind ∧ Stages d (s.front d) before ∧ Stages d (s.back d) behind := by
  obtain ⟨before, behind, rfl, front, back⟩ := HookAction.CallsAll.split h
  obtain ⟨opening, heading, rfl, first, second⟩ := front.split
  obtain ⟨trailing, closing, rfl, third, fourth⟩ := back.split
  exact ⟨_, _, rfl, (Stages.actAll first).seq ((Stages.emit _).seq ((Stages.emit _).seq (.actAll second))),
    (Stages.actAll third).seq (.actAll fourth)⟩

/-- **What is in the frame of a select does what the calls come to**, if its sections can be written. -/
theorem Select.body_stages (h : d.hooks.Calls s calls) {p : Pass} (others : (((s.sections d).forM id).run p).1 = .ok ())
    {q : Pass} {outer : List (Option String)} (tables : q.tables = p.tables) (frames : q.frames = none :: outer) :
    match staged false calls with
    | .ok aside => ∃ t head, (do s.front d; (s.sections d).forM id; s.back d : Writing Unit).run q = (.ok (), t)
        ∧ t.frames = head :: outer ∧ head.isSome = aside
    | .error fault =>
      ((do s.front d; (s.sections d).forM id; s.back d : Writing Unit).run q).1 = .error (.render d.name fault) := by
  obtain ⟨before, behind, rfl, front, back⟩ := h.stages
  have first := front q none outer frames
  rw [Option.isSome_none] at first
  rw [staged_append, Writing.run_bind]
  rcases hb : staged false before with fault | aside
  · rw [hb] at first
    rcases hr : (s.front d).run q with ⟨e | _, t⟩
    · rw [hr] at first
      exact first
    · rw [hr] at first
      cases first
  · rw [hb] at first
    obtain ⟨t, head, ran, tables', frames', rfl⟩ := first
    -- the sections end as they do by themselves, wherever the hooks have left the text
    obtain ⟨same, kept, -⟩ := Select.sections_splice d s (tables'.trans tables)
    rw [others] at same
    obtain ⟨u, written⟩ : ∃ u, ((s.sections d).forM id).run t = (.ok (), u) := ⟨_, Prod.ext same rfl⟩
    rw [written] at kept
    have second := back u head outer (kept.trans frames')
    simp only [ran, Writing.run_bind, written, Except.bind]
    rcases hm : staged head.isSome behind with fault | aside
    · rw [hm] at second
      exact second
    · rw [hm] at second
      obtain ⟨v, head', ran', -, rest⟩ := second
      exact ⟨v, head', ran', rest⟩

/-- A select ends with the fault of its calls, if nothing else is wrong in it. -/
theorem select_ends (h : d.hooks.Calls s calls) {p : Pass}
    (limit : ∀ limit ∈ s.limit, d.supports limit.capability = true)
    (others : (((s.sections d).forM id).run p).1 = .ok ()) :
    ((Writing.select d s).run p).1 = match stagingFault? calls with
      | none => .ok ()
      | some fault => .error (.render d.name fault) := by
  have body := Select.body_stages h others (q := { p with frames := none :: p.frames }) rfl rfl
  have asked : Writing.requireLimit d s.limit = pure () := by
    rw [← Piece.play_limitFault, Piece.limitFault_of_supports limit, Piece.playAll_nil]
  rw [Writing.select_eq_sections, asked, pure_bind, Writing.run_inFrame]
  rw [stagingFault?]
  rcases hs : staged false calls with fault | aside
  · rw [hs] at body
    rcases hr : (do s.front d; (s.sections d).forM id; s.back d : Writing Unit).run
      { p with frames := none :: p.frames }
      with ⟨e | _, t⟩
    · rw [hr] at body
      exact body
    · rw [hr] at body
      cases body
  · rw [hs] at body
    obtain ⟨t, head, ran, frames, rfl⟩ := body
    rw [ran]
    cases head <;> simp [frames]

/-- **Staging calls are accepted exactly when they are balanced.** A select of which everything else can be written is
written if and only if the calls of its hooks, in the order in which they are called, set the text aside and put it back
in turn, whatever is set aside around it. Otherwise it fails with what is wrong with the calls. Nothing of it stays set
aside, and if it is written its text stands behind what was there. -/
theorem select_staging (h : d.hooks.Calls s calls) {p : Pass}
    (limit : ∀ limit ∈ s.limit, d.supports limit.capability = true)
    (others : (((s.sections d).forM id).run p).1 = .ok ()) :
    (((Writing.select d s).run p).1 = .ok () ↔ Alternating calls)
      ∧ (¬ Alternating calls → ∃ fault, stagingFault? calls = some fault
          ∧ ((Writing.select d s).run p).1 = .error (.render d.name fault))
      ∧ ((Writing.select d s).run p).2.frames = p.frames
      ∧ (Alternating calls → ∃ text, ((Writing.select d s).run p).2.text = p.text ++ text) := by
  have ends := select_ends h limit others
  obtain ⟨splice, spliced⟩ := select_splices d s
  obtain ⟨outcome, text, frames, -⟩ := spliced p
  rw [← stagingFault?_eq_none_iff]
  rcases hf : stagingFault? calls with _ | fault
  · rw [hf] at ends
    refine ⟨iff_of_true ends rfl, fun wrong => absurd rfl wrong, frames, fun _ => ?_⟩
    rw [ends] at outcome
    cases hw : splice p.tables with
    | error e =>
      rw [hw] at outcome
      cases outcome
    | ok t => exact ⟨t, text t hw⟩
  · rw [hf] at ends
    refine ⟨iff_of_false (fun done => ?_) nofun, fun _ => ⟨fault, rfl, ends⟩, frames, nofun⟩
    rw [done] at ends
    cases ends

end

/-- an action that puts the text back, and the text of the select behind it with a word more -/
def markedBack : HookAction :=
  .tryEnd fun
    | some text => .write (text ++ "ALL ")
    | none => .endStaging id

/-- a dialect that sets the text in front of a select aside twice -/
def twiceStaged : Dialect :=
  { Dialect.ansi with
    hooks :=
      { opening := fun _ => [.beginStaging]
        heading := fun _ => [markedBack]
        trailing := fun _ => [.beginStaging, .write ";"]
        closing := fun _ => [.endStaging id] } }

def nestedSelect : Select :=
  .mk false none [.subQuery (.mk false none [.constant (.int 1)] [] none [] none [])] [] none [] none []

/-- a pass in a select that is set aside -/
def passAside : Pass := { Pass.start fun _ _ => .null with text := "a", frames := [some "b", none] }

/-- Both selects set their text aside twice, and what was set aside around them stays so. -/
theorem select_staging_twice :
    twiceStaged.hooks.Calls nestedSelect [.setAside, .putBack, .setAside, .putBack]
      ∧ (∀ limit ∈ nestedSelect.limit, twiceStaged.supports limit.capability = true)
      ∧ (((nestedSelect.sections twiceStaged).forM id).run passAside).1 = .ok ()
      ∧ ((((Writing.select twiceStaged nestedSelect).run passAside).1 = .ok ()
          ↔ Alternating [.setAside, .putBack, .setAside, .putBack])
        ∧ (¬ Alternating [.setAside, .putBack, .setAside, .putBack] →
            ∃ fault, stagingFault? [.setAside, .putBack, .setAside, .putBack] = some fault
              ∧ ((Writing.select twiceStaged nestedSelect).run passAside).1 = .error (.render twiceStaged.name fault))
        ∧ ((Writing.select twiceStaged nestedSelect).run passAside).2.frames = passAside.frames
        ∧ (Alternating [.setAside, .putBack, .setAside, .putBack] →
            ∃ text, ((Writing.select twiceStaged nestedSelect).run passAside).2.text = passAside.text ++ text)) := by
  have back : markedBack.Calls [.putBack] := .handOver (fun text => .write (text ++ "ALL ")) rfl
  have calls : twiceStaged.hooks.Calls nestedSelect [.setAside, .putBack, .setAside, .putBack] :=
    .cons .beginStaging (.cons back (.cons .beginStaging (.cons (.write ";") (.cons (.endStaging id) .nil))))
  have limit : ∀ limit ∈ nestedSelect.limit, twiceStaged.supports limit.capability = true := nofun
  have written : (((nestedSelect.sections twiceStaged).forM id).run passAside).1.toOption = some () := by
    decide +kernel
  have others : (((nestedSelect.sections twiceStaged).forM id).run passAside).1 = .ok () := by
    rcases he : (((nestedSelect.sections twiceStaged).forM id).run passAside).1 with e | _
    · rw [he] at written
      cases written
    · rfl
  exact ⟨calls, limit, others, select_staging calls limit others⟩

end SqlTree
