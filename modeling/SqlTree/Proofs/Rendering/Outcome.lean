/-
How playing a list of pieces ends.

- `Pass.Keyed`: what keeps explicit names from being in use when their parameters come.
- `Piece.playAll_ends`: pieces whose hooks belong together end with their first fault, or with none if they have none.
- `Query.played_ends`: so does a query, whose explicit names are all reserved.
-/
import SqlTree.Proofs.Rendering.Naming

namespace SqlTree

/-! ## Names of a pass -/

/-- an explicit name is in use for its own parameter only, which is known by it -/
def Pass.Keyed (s : Pass) : Prop := ∀ n ∈ s.names, n ∈ s.reserved → s.index? (.named n) ≠ none

namespace Pass.Keyed

variable {d : Dialect} {s : Pass}

theorem start (d : Dialect) (supply : Supply) (names : List String) : ((Pass.start supply).reserve d names).Keyed :=
  fun _ h => by cases h

/-- Neither the text nor the number in the name generated last matters. -/
theorem of_eq {t : Pass} (h : s.Keyed) (names : t.names = s.names) (reserved : t.reserved = s.reserved)
    (keys : t.keys = s.keys) : t.Keyed := by
  intro n hn hr
  rw [names] at hn
  rw [reserved] at hr
  rw [Pass.index?, keys]
  exact h n hn hr

/-- A generated name is no explicit name, so no parameter needs to be known by it. -/
theorem generated {t : Pass} (h : s.Keyed) (names : t.names = generatedName s.nextNumber :: s.names)
    (reserved : t.reserved = s.reserved) (keys : ∀ k, s.index? k ≠ none → t.index? k ≠ none) : t.Keyed := by
  intro n hn hr
  rw [names] at hn
  rw [reserved] at hr
  rcases List.mem_cons.1 hn with rfl | hn
  · exact absurd hr s.nextNumber_free.2
  · exact keys _ (h n hn hr)

theorem named (h : s.Keyed) {o : Occurrence} {name : String} (hn : o.explicitName = some name) :
    (o.entered d (d.canonicalName name) s).Keyed := by
  intro n used reserved
  rw [Occurrence.index?_entered, Occurrence.key?_of_explicitName hn]
  split
  · simp
  · rename_i other
    rw [Occurrence.names_entered, List.mem_cons] at used
    rw [Occurrence.reserved_entered] at reserved
    exact h n (used.resolve_left fun same => other (by rw [same])) reserved

/-- An occurrence that is played to the end keeps it so, under whatever name it is registered. -/
theorem registers (h : s.Keyed) {o : Occurrence} {t : Pass} (registers : o.Registers d s t) : t.Keyed := by
  cases registers with
  | again key known => exact h.of_eq (by simp) (by simp) (by simp)
  | generated new unnamed =>
    refine h.generated (by simp) (by simp) fun k hk => ?_
    rw [Occurrence.index?_behind, Occurrence.index?_entered]
    split
    · simp
    · exact hk
  | @named name new named free =>
    have entered : (o.entered d (d.canonicalName name) s).Keyed := h.named named
    exact entered.of_eq (by simp) (by simp) (by simp)

end Pass.Keyed

/-! ## Ends -/

/-- writing that ends with an error, or else succeeds and leaves the frames and the reserved names as they were -/
def Writing.Ends (w : Writing Unit) (s : Pass) : Option Error → Prop
  | some e => (w.run s).1 = .error e
  | none => ∃ t, w.run s = (.ok (), t) ∧ t.frames = s.frames ∧ t.reserved = s.reserved ∧ t.Keyed

namespace Writing.Ends

variable {w v : Writing Unit} {s : Pass} {a b : Option Error}

theorem seq (hw : w.Ends s a)
    (hv : ∀ t : Pass, t.frames = s.frames → t.reserved = s.reserved → t.Keyed → v.Ends t b) :
    (do w; v : Writing Unit).Ends s (a.or b) := by
  cases a with
  | some e =>
    rw [Option.some_or, Ends, Writing.run_bind]
    rw [Ends] at hw
    rcases hr : w.run s with ⟨e' | _, t⟩
    · rw [hr] at hw
      exact hw
    · rw [hr] at hw
      cases hw
  | none =>
    obtain ⟨t, ht, frames, reserved, keyed⟩ := hw
    have rest := hv t frames reserved keyed
    rw [Option.none_or]
    have run : (do w; v : Writing Unit).run s = v.run t := by rw [Writing.run_bind, ht]
    cases b with
    | some e =>
      rw [Ends, run]
      exact rest
    | none =>
      obtain ⟨u, hu, frames', reserved', keyed'⟩ := rest
      exact ⟨u, run.trans hu, frames'.trans frames, reserved'.trans reserved, keyed'⟩

end Writing.Ends

/-- A parameter whose explicit name is reserved is never refused: the name can be in use for the same parameter only. -/
theorem Occurrence.play_ends {d : Dialect} {o : Occurrence} {s : Pass} (keyed : s.Keyed)
    (known : ∀ n, o.explicitName = some n → d.canonicalName n ∈ s.reserved) : (o.play d).Ends s none := by
  rcases o.play_outcome d s with ⟨t, ran, registers⟩ | ⟨name, hn, used, new, -⟩
  · exact ⟨t, ran, registers.frames, registers.reserved, keyed.registers registers⟩
  · exact absurd new (keyed _ used (known name hn))

/-! ## Lists of pieces -/

namespace Piece

mutual

/-- a piece whose hooks write text, set the text in front of a select aside, and put it back behind it -/
def Orderly : Piece → Prop
  | .act a => ∃ t, a = .write t
  | .frame opening body closing =>
    (opening = [] ∧ closing = [] ∨ opening = [.beginStaging] ∧ ∃ wrap, closing = [.endStaging wrap]) ∧ OrderlyAll body
  | _ => True

def OrderlyAll : List Piece → Prop
  | [] => True
  | x :: xs => x.Orderly ∧ OrderlyAll xs

end

theorem orderlyAll_append {xs ys : List Piece} : OrderlyAll (xs ++ ys) ↔ OrderlyAll xs ∧ OrderlyAll ys := by
  induction xs with
  | nil => simp [OrderlyAll]
  | cons x xs ih => simp only [List.cons_append, OrderlyAll, ih, and_assoc]

/-- the explicit names in pieces are among these names -/
def Known (d : Dialect) (xs : List Piece) (names : List String) : Prop :=
  ∀ o ∈ collectAll occurrence xs, ∀ n, o.explicitName = some n → d.canonicalName n ∈ names

/-- A select in a frame ends as what is inside it: hooks that belong together find the frame as they need it. -/
theorem frame_ends {d : Dialect} {opening closing : List HookAction} {body : List Piece} {outcome : Option Error}
    {s : Pass} (keyed : s.Keyed)
    (hooks : opening = [] ∧ closing = [] ∨ opening = [.beginStaging] ∧ ∃ wrap, closing = [.endStaging wrap])
    (ends : ∀ t : Pass, t.reserved = s.reserved → t.Keyed → (playAll d body).Ends t outcome) :
    ((Piece.frame opening body closing).play d).Ends s outcome := by
  rw [play_frame]
  -- what the hooks find and leave does not depend on what is written between them
  have opened : ∃ inside : Pass, (Writing.actAll d opening).run { s with frames := none :: s.frames } = (.ok (), inside)
      ∧ inside.reserved = s.reserved ∧ inside.Keyed
      ∧ ∀ t : Pass, t.frames = inside.frames → t.reserved = s.reserved → t.Keyed →
        ∃ u : Pass, (Writing.actAll d closing).run t = (.ok (), u) ∧ u.frames = none :: s.frames
          ∧ u.reserved = s.reserved ∧ u.Keyed := by
    rcases hooks with ⟨rfl, rfl⟩ | ⟨rfl, wrap, rfl⟩
    · exact ⟨_, rfl, rfl, keyed.of_eq rfl rfl rfl, fun t frames reserved keyed => ⟨t, rfl, frames, reserved, keyed⟩⟩
    · refine ⟨_, Writing.run_setAside d rfl, rfl, keyed.of_eq rfl rfl rfl, fun t frames reserved keyed => ?_⟩
      exact ⟨_, Writing.run_putBack d wrap frames, rfl, reserved, keyed.of_eq rfl rfl rfl⟩
  obtain ⟨inside, hopen, reserved, keyedInside, hclose⟩ := opened
  have bodyEnds := ends inside reserved keyedInside
  cases outcome with
  | some e =>
    rw [Writing.Ends] at bodyEnds ⊢
    rw [Writing.run_inFrame, Writing.run_bind, hopen]
    dsimp only
    rw [Writing.run_bind]
    rcases hb : (playAll d body).run inside with ⟨e' | _, t⟩
    · rw [hb] at bodyEnds
      exact bodyEnds
    · rw [hb] at bodyEnds
      cases bodyEnds
  | none =>
    obtain ⟨t, ht, framesBody, reservedBody, keyedBody⟩ := bodyEnds
    obtain ⟨u, hu, frames, reserved, keyed⟩ := hclose t framesBody (reservedBody.trans reserved) keyedBody
    refine ⟨{ u with frames := s.frames }, ?_, rfl, reserved, keyed.of_eq rfl rfl rfl⟩
    rw [Writing.run_inFrame, Writing.run_bind, hopen]
    dsimp only
    rw [Writing.run_bind, ht]
    dsimp only
    rw [hu]
    simp [frames]

/-- **Pieces end with their first fault**, or with none if they have none: nothing else can go wrong, if the hooks
belong together and the explicit names are reserved. -/
theorem playAll_ends {d : Dialect} {xs : List Piece} (orderly : OrderlyAll xs) {s : Pass} (keyed : s.Keyed)
    (known : Known d xs s.reserved) : (playAll d xs).Ends s (faults xs).head? := by
  induction xs using Piece.listInduction generalizing s with
  | nil => exact ⟨s, rfl, rfl, rfl, keyed⟩
  | stop e xs _ => exact rfl
  | text _ xs ih | ident _ xs ih | literal _ xs ih =>
    rw [playAll_cons]
    refine Writing.Ends.seq (a := none) ⟨_, rfl, rfl, rfl, keyed.of_eq rfl rfl rfl⟩ fun t _ reserved keyed => ?_
    exact ih orderly.2 keyed (reserved ▸ known)
  | act a xs ih =>
    obtain ⟨⟨text, rfl⟩, orderly⟩ := orderly
    rw [playAll_cons]
    refine Writing.Ends.seq (a := none) ⟨_, rfl, rfl, rfl, keyed.of_eq rfl rfl rfl⟩ fun t _ reserved keyed => ?_
    exact ih orderly keyed (reserved ▸ known)
  | value o xs ih =>
    rw [playAll_cons]
    refine Writing.Ends.seq (a := none) (Occurrence.play_ends keyed (known o List.mem_cons_self)) ?_
    intro t _ reserved keyed
    exact ih orderly.2 keyed fun o' ho' => reserved ▸ known o' (List.mem_cons_of_mem o ho')
  | frame opening body closing xs ihBody ih =>
    obtain ⟨⟨hooks, orderlyBody⟩, orderly⟩ := orderly
    have knownBody : Known d body s.reserved := fun o ho => known o (List.mem_append_left _ ho)
    have knownRest : Known d xs s.reserved := fun o ho => known o (List.mem_append_right _ ho)
    have first : (faults (.frame opening body closing :: xs)).head? = (faults body).head?.or (faults xs).head? :=
      List.head?_append
    rw [playAll_cons, first]
    refine Writing.Ends.seq (frame_ends keyed hooks fun t reserved keyed => ?_) fun t _ reserved keyed => ?_
    · exact ihBody orderlyBody keyed (reserved ▸ knownBody)
    · exact ih orderly keyed (reserved ▸ knownRest)

end Piece

/-- **A query ends with the first fault of its pieces**, for all its explicit names are reserved. -/
theorem Query.played_ends {d : Dialect} {q : Query} (orderly : Piece.OrderlyAll (q.pieces d)) (supply : Supply) :
    (Piece.playAll d (q.pieces d)).Ends ((Pass.start supply).reserve d q.paramNames)
    (Piece.faults (q.pieces d)).head? := by
  refine Piece.playAll_ends orderly (.start d supply q.paramNames) fun o ho n hn => ?_
  have occurs := (Piece.Carries.query q).some.subset ho
  exact List.mem_append_left _ (List.mem_map.2 ⟨n, Query.explicitName_mem occurs hn, rfl⟩)

end SqlTree
