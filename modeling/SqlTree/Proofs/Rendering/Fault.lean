/-
What goes wrong while a query is written, whatever the hooks of its dialect do.

- `Writing.Errors`: what holds of every error that writing can end with.
- `Piece.errors_playAll`: an error is a fault of the pieces, or one of names or of staged text.
- `Query.errors`: an error of a regular query refuses what the query asks for, or is one of names or of staged text.
-/
import SqlTree.Proofs.Rendering.Refusal

namespace SqlTree

/-- an error of names or of staged text -/
def Error.IsInternal (d : Dialect) (e : Error) : Prop := ∃ fault, e = .render d.name fault ∧ fault.IsInternal

/-- what holds of every error that writing can end with, from whatever state it starts -/
def Writing.Errors {α : Type} (P : Error → Prop) (w : Writing α) : Prop := ∀ s e t, w.run s = (.error e, t) → P e

namespace Writing.Errors

variable {α β : Type} {d : Dialect} {P Q : Error → Prop} {w : Writing α} {f : α → Writing β}

theorem mono (hw : Errors P w) (h : ∀ e, P e → Q e) : Errors Q w := fun s e t failed => h e (hw s e t failed)

theorem bind (hw : Errors P w) (hf : ∀ a, Errors P (f a)) : Errors P (w >>= f) := by
  intro s e t failed
  rw [run_bind] at failed
  rcases hr : w.run s with ⟨e' | a, u⟩
  · rw [hr] at failed
    cases failed
    exact hw s e t hr
  · rw [hr] at failed
    exact hf a u e t failed

theorem emit (text : String) : Errors P (Writing.emit text) := fun _ _ _ failed => by cases failed

theorem attempt (w : Writing α) : Errors P (Writing.attempt w) := fun _ _ _ failed => by cases failed

theorem act (a : HookAction) : Errors (Error.IsInternal d) (Writing.act d a) := by
  have staging : ∀ fault : RenderFault, fault.IsInternal → Error.IsInternal d (.render d.name fault) :=
    fun fault internal => ⟨fault, rfl, internal⟩
  induction a with
  | write text => exact emit text
  | beginStaging =>
    intro s e t failed
    rw [Writing.act, run_beginStaging] at failed
    split at failed <;> cases failed <;> exact staging _ trivial
  | endStaging wrap =>
    refine bind (fun s e t failed => ?_) fun text => emit (wrap text)
    rw [run_endStaging] at failed
    split at failed <;> cases failed
    exact staging _ trivial
  | tryBegin next ih => exact bind (attempt _) fun begun => ih begun.isSome
  | tryEnd next ih => exact bind (attempt _) ih
  | both first second ih ih' => exact bind ih fun _ => ih'

theorem actAll (actions : List HookAction) : Errors (Error.IsInternal d) (Writing.actAll d actions) := by
  induction actions with
  | nil =>
    intro s e t failed
    cases failed
  | cons a actions ih =>
    rw [actAll_cons]
    exact bind (act a) fun _ => ih

/-- A frame fails as what is inside it does, or because text is still set aside at its end. -/
theorem inFrame {v : Writing Unit} (hv : Errors P v) (h : ∀ e, Error.IsInternal d e → P e) :
    Errors P (Writing.inFrame d v) := by
  intro s e t failed
  rw [run_inFrame] at failed
  rcases hr : v.run { s with frames := none :: s.frames } with ⟨e' | _, u⟩
  · rw [hr] at failed
    cases failed
    exact hv _ e u hr
  · rw [hr] at failed
    dsimp only at failed
    split at failed
    · cases failed
      exact h _ ⟨.neverFlushed, rfl, trivial⟩
    · cases failed

/-- A parameter fails to enter only under an explicit name that is in use. -/
theorem occurrence (o : Occurrence) : Errors (Error.IsInternal d) (o.play d) := by
  intro s e t failed
  rcases o.play_outcome d s with ⟨t', ran, -⟩ | ⟨name, -, -, -, refused⟩
  · rw [ran] at failed
    cases failed
  · rw [refused] at failed
    cases failed
    exact ⟨_, rfl, trivial⟩

end Writing.Errors

namespace Piece

open Writing (Errors)

variable {d : Dialect}

/-- **What goes wrong while pieces are played** is a fault among them, or concerns names or staged text. -/
theorem errors_playAll (xs : List Piece) : Errors (fun e => e ∈ faults xs ∨ e.IsInternal d) (playAll d xs) := by
  have later : ∀ {x : Piece} {xs : List Piece} {e : Error}, e ∈ faults xs ∨ e.IsInternal d →
      e ∈ faults (x :: xs) ∨ e.IsInternal d := fun h => h.imp (List.mem_append_right _) id
  induction xs using Piece.listInduction with
  | nil =>
    intro s e t failed
    cases failed
  | stop fault xs ih =>
    intro s e t failed
    rw [playAll_cons, Writing.run_bind] at failed
    cases failed
    exact .inl List.mem_cons_self
  | text t xs ih | ident t xs ih | literal t xs ih =>
    rw [playAll_cons]
    exact .bind (.emit _) fun _ => ih.mono fun _ => later
  | act a xs ih =>
    rw [playAll_cons]
    exact .bind ((Errors.act a).mono fun _ => .inr) fun _ => ih.mono fun _ => later
  | value o xs ih =>
    rw [playAll_cons]
    exact .bind ((Errors.occurrence o).mono fun _ => .inr) fun _ => ih.mono fun _ => later
  | frame opening body closing xs ihBody ih =>
    have hooked : ∀ actions, Errors (fun e => e ∈ faults (.frame opening body closing :: xs) ∨ e.IsInternal d)
        (Writing.actAll d actions) := fun actions => (Errors.actAll actions).mono fun _ => .inr
    have inside := ihBody.mono (Q := fun e => e ∈ faults (.frame opening body closing :: xs) ∨ e.IsInternal d)
      fun e h => h.imp (List.mem_append_left _) id
    rw [playAll_cons, play_frame]
    refine .bind (.inFrame ?_ fun e => .inr) fun _ => ih.mono fun _ => later
    exact .bind (hooked opening) fun _ => .bind inside fun _ => hooked closing

/-- pieces whose faults all stand for something that is asked for -/
def Blamed (d : Dialect) (xs : List Piece) (ds : List Demand) : Prop :=
  ∀ e ∈ faults xs, ∃ x ∈ ds, x.refusal? d = some e

theorem Blamed.refuses (d : Dialect) : Refuses d (Blamed d) where
  nil := fun _ h => by cases h
  text _ := fun _ h => by cases h
  ident _ := fun _ h => by cases h
  literal _ := fun _ h => by cases h
  value _ := fun _ h => by cases h
  append hx hy := by
    intro e he
    rw [faults_append] at he
    rcases List.mem_append.1 he with he | he
    · obtain ⟨x, hx, refused⟩ := hx e he
      exact ⟨x, List.mem_append_left _ hx, refused⟩
    · obtain ⟨x, hx, refused⟩ := hy e he
      exact ⟨x, List.mem_append_right _ hx, refused⟩
  stop h := by
    intro e he
    obtain rfl := List.mem_singleton.1 he
    exact ⟨_, List.mem_cons_self, h⟩
  given _ h := by
    intro e he
    obtain ⟨x, hx, refused⟩ := h e he
    exact ⟨x, List.mem_cons_of_mem _ hx, refused⟩

theorem Blamed.ignoresHooks (d : Dialect) : IgnoresHooks d (Blamed d) := by
  have acts : ∀ actions : List HookAction, Blamed d (actions.map .act) [] := by
    intro actions
    induction actions with
    | nil => exact (Blamed.refuses d).nil
    | cons a actions ih => exact ih
  refine ⟨fun s => acts _, fun s => acts _, fun s xs ds h e he => h e ?_⟩
  exact (List.mem_append.1 he).resolve_right List.not_mem_nil

end Piece

/-- **What goes wrong while a query is written** is the refusal of something it asks for, or concerns names or staged
text, whatever the hooks of the dialect do. -/
theorem Query.errors {d : Dialect} {q : Query} (regular : q.Regular) {supply : Supply} {e : Error}
    (failed : (render d q supply).result = .error e) :
    (∃ x ∈ q.demands, x.refusal? d = some e) ∨ e.IsInternal d := by
  rw [render_eq_played, Query.played] at failed
  rcases hr : (Piece.playAll d (q.pieces d)).run ((Pass.start supply).reserve d q.paramNames) with ⟨e' | _, t⟩
  · rw [hr] at failed
    cases failed
    refine (Piece.errors_playAll _ _ _ _ hr).imp (fun fault => ?_) id
    exact (Piece.Blamed.refuses d).query (Piece.Blamed.ignoresHooks d) regular e fault
  · rw [hr] at failed
    cases failed

end SqlTree
