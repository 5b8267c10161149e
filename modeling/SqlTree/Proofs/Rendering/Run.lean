/-
What one operation of a pass does to its state.

Each `run_…` lemma says for every state how the operation ends and which state it leaves. `Pass.enter` is the state
behind the registration of a parameter that was not registered before.
-/
import SqlTree.Rendering

namespace SqlTree

/-- the pass behind the registration of a new parameter under a name -/
def Pass.enter (d : Dialect) (p : Parameter) (direction : Direction) (name : String) (s : Pass) : Pass :=
  let value := p.value s.supply ((p.feed?.map s.readings).getD 0)
  { s.addParam name ⟨d.boundName name, p.type <|> value.dataType, direction, value, p.isDeferred⟩ with
    keys := (p.key d, s.params.length) :: s.keys
    produced := s.produced ++ [p] }

def Pass.enterLiteral (d : Dialect) (v : Value) (s : Pass) : Pass :=
  { s with generated := s.nextNumber }.addParam (generatedName s.nextNumber)
    ⟨d.boundName (generatedName s.nextNumber), v.dataType, .input, v, false⟩

def Pass.placed (d : Dialect) (i : Nat) (s : Pass) : Pass :=
  { s with
    text := s.text ++ d.placeholder i ((s.params[i]?.map BoundParam.name).getD "")
    slots := s.slots ++ [i] }

/-- the pass as it would be inside `k` scripts -/
def Pass.atDepth (k : Nat) (s : Pass) : Pass := { s with scriptDepth := k }

namespace Writing

variable {α β : Type}

@[simp] theorem run_pure (a : α) (s : Pass) : (pure a : Writing α).run s = (.ok a, s) := rfl

@[simp] theorem run_throw (e : Error) (s : Pass) : (throw e : Writing α).run s = (.error e, s) := rfl

@[simp] theorem run_get (s : Pass) : (get : Writing Pass).run s = (.ok s, s) := rfl

@[simp] theorem run_set (s t : Pass) : (set t : Writing Unit).run s = (.ok (), t) := rfl

@[simp] theorem run_emit (t : String) (s : Pass) : (emit t).run s = (.ok (), { s with text := s.text ++ t }) := rfl

theorem run_bind (w : Writing α) (f : α → Writing β) (s : Pass) :
    (w >>= f).run s = match w.run s with
      | (.ok a, s) => (f a).run s
      | (.error e, s) => (.error e, s) := by
  show (ExceptT.bindCont f (w.run s).1) (w.run s).2 = _
  rcases w.run s with ⟨_ | _, _⟩ <;> rfl

theorem run_attempt (w : Writing α) (s : Pass) : (attempt w).run s = (.ok (w.run s).1.toOption, (w.run s).2) := rfl

theorem run_beginStaging (d : Dialect) (s : Pass) :
    (beginStaging d).run s = match s.frames with
      | [] => (.error (.render d.name .stagingOutsideSelect), s)
      | some _ :: _ => (.error (.render d.name .alreadyStaged), s)
      | none :: outer => (.ok (), { s with text := "", frames := some s.text :: outer }) := by
  rcases s with ⟨_, _ | ⟨_ | _, _⟩⟩ <;> rfl

theorem run_endStaging (d : Dialect) (s : Pass) :
    (endStaging d).run s = match s.frames with
      | some before :: outer => (.ok s.text, { s with text := before, frames := none :: outer })
      | _ => (.error (.render d.name .notStaged), s) := by
  rcases s with ⟨_, _ | ⟨_ | _, _⟩⟩ <;> rfl

theorem actAll_cons (d : Dialect) (a : HookAction) (actions : List HookAction) :
    actAll d (a :: actions) = (do act d a; actAll d actions) := rfl

theorem run_setAside (d : Dialect) {s : Pass} {outer : List (Option String)} (h : s.frames = none :: outer) :
    (actAll d [.beginStaging]).run s = (.ok (), { s with text := "", frames := some s.text :: outer }) := by
  rw [actAll_cons, run_bind, act, run_beginStaging, h]
  rfl

theorem run_putBack (d : Dialect) (wrap : String → String) {s : Pass} {before : String} {outer : List (Option String)}
    (h : s.frames = some before :: outer) :
    (actAll d [.endStaging wrap]).run s
      = (.ok (), { s with text := before ++ wrap s.text, frames := none :: outer }) := by
  rw [actAll_cons, run_bind, act, run_bind, run_endStaging, h]
  rfl

theorem run_inFrame (d : Dialect) (w : Writing Unit) (s : Pass) :
    (inFrame d w).run s = match w.run { s with frames := none :: s.frames } with
      | (.ok _, s) =>
        (if s.frames.head?.join.isSome then .error (.render d.name .neverFlushed) else .ok (),
          { s with frames := s.frames.tail })
      | (.error e, s) => (.error e, { s with frames := s.frames.tail }) := by
  rcases h : w.run { s with frames := none :: s.frames } with ⟨_ | _, _⟩ <;>
    simp only [inFrame, ExceptT.run_mk, h]

theorem run_bind_ok {w : Writing α} {f : α → Writing β} {s s' : Pass} {b : β} (h : (w >>= f).run s = (.ok b, s')) :
    ∃ a t, w.run s = (.ok a, t) ∧ (f a).run t = (.ok b, s') := by
  rw [run_bind] at h
  rcases hw : w.run s with ⟨_ | a, t⟩
  · rw [hw] at h
    cases h
  · rw [hw] at h
    exact ⟨a, t, rfl, h⟩

/-- Setting text aside looks at the text and at the frames alone. -/
theorem run_beginStaging_rewrites (d : Dialect) (s : Pass) :
    ∃ text frames, ((beginStaging d).run s).2 = { s with text := text, frames := frames } := by
  rw [run_beginStaging]
  split <;> exact ⟨_, _, rfl⟩

theorem run_endStaging_rewrites (d : Dialect) (s : Pass) :
    ∃ text frames, ((endStaging d).run s).2 = { s with text := text, frames := frames } := by
  rw [run_endStaging]
  split <;> exact ⟨_, _, rfl⟩

/-- An action of a hook looks at the text and at the frames alone, whether or not it fails. -/
theorem run_act_rewrites (d : Dialect) (a : HookAction) (s : Pass) :
    ∃ text frames, ((act d a).run s).2 = { s with text := text, frames := frames } := by
  induction a generalizing s with
  | write t => exact ⟨_, _, rfl⟩
  | beginStaging => exact run_beginStaging_rewrites d s
  | endStaging wrap =>
    obtain ⟨text, frames, same⟩ := run_endStaging_rewrites d s
    rw [act, run_bind]
    rcases hr : (endStaging d).run s with ⟨_ | t, u⟩
    all_goals
      obtain rfl : u = _ := by simpa only [hr] using same
      exact ⟨_, _, rfl⟩
  | tryBegin next ih =>
    obtain ⟨text, frames, same⟩ := run_beginStaging_rewrites d s
    rw [act, run_bind, run_attempt, same]
    exact ih _ _
  | tryEnd next ih =>
    obtain ⟨text, frames, same⟩ := run_endStaging_rewrites d s
    rw [act, run_bind, run_attempt, same]
    exact ih _ _
  | both first second ih ih' =>
    obtain ⟨text, frames, same⟩ := ih s
    rw [act, run_bind]
    rcases hr : (act d first).run s with ⟨_ | _, u⟩
    all_goals obtain rfl : u = _ := by simpa only [hr] using same
    · exact ⟨_, _, rfl⟩
    · exact ih' _

theorem run_act_ok {d : Dialect} {a : HookAction} {s s' : Pass} (h : (act d a).run s = (.ok (), s')) :
    ∃ text frames, s' = { s with text := text, frames := frames } := by
  simpa only [h] using run_act_rewrites d a s

/-- A select that was written to the end ended with its text in place. -/
theorem run_inFrame_ok {d : Dialect} {w : Writing Unit} {s s' : Pass} (h : (inFrame d w).run s = (.ok (), s')) :
    ∃ t, w.run { s with frames := none :: s.frames } = (.ok (), t) ∧ t.frames.head?.join = none
      ∧ s' = { t with frames := t.frames.tail } := by
  rw [run_inFrame] at h
  rcases hw : w.run { s with frames := none :: s.frames } with ⟨_ | _, t⟩
  · rw [hw] at h
    cases h
  · rw [hw] at h
    dsimp only at h
    split at h
    · cases h
    · rename_i staged
      cases h
      exact ⟨t, rfl, by simpa using staged, rfl⟩

theorem run_inScript (w : Writing Unit) (s : Pass) :
    (inScript w).run s =
      ((w.run (s.atDepth (s.scriptDepth + 1))).1,
        (w.run (s.atDepth (s.scriptDepth + 1))).2.atDepth
          ((w.run (s.atDepth (s.scriptDepth + 1))).2.scriptDepth - 1)) := rfl

/-! ## Parameters -/

theorem run_freshName (s : Pass) :
    freshName.run s = (.ok (generatedName s.nextNumber), { s with generated := s.nextNumber }) := rfl

theorem run_chooseName (d : Dialect) (p : Parameter) (s : Pass) :
    (chooseName d p).run s = match p.name with
      | none => (.ok (generatedName s.nextNumber), { s with generated := s.nextNumber })
      | some name =>
        if s.names.contains (d.canonicalName name) then
          (.error (.render d.name (.nameInUse (d.canonicalName name))), s)
        else (.ok (d.canonicalName name), s) := by
  rcases hn : p.name with _ | name
  · simp only [chooseName, hn, run_freshName]
  · simp only [chooseName, hn, run_bind, run_get]
    split
    · rfl
    · rfl

theorem run_register (d : Dialect) (p : Parameter) (direction : Direction) (s : Pass) :
    (register d p direction).run s = match s.index? (p.key d) with
      | some i => (.ok i, s)
      | none => match p.name with
        | none =>
          (.ok s.params.length, { s with generated := s.nextNumber }.enter d p direction (generatedName s.nextNumber))
        | some name =>
          if s.names.contains (d.canonicalName name) then
            (.error (.render d.name (.nameInUse (d.canonicalName name))), s)
          else (.ok s.params.length, s.enter d p direction (d.canonicalName name)) := by
  rw [register, run_bind, run_get]
  dsimp only
  rcases s.index? (p.key d) with _ | i
  · simp only [run_bind, run_chooseName]
    rcases p.name with _ | name
    · rfl
    · by_cases ht : s.names.contains (d.canonicalName name)
      · simp only [ht, if_true]
      · simp only [ht]
        rfl
  · rfl

end Writing
end SqlTree
