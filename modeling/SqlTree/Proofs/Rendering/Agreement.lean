/-
Passes that look alike, and writing that keeps them so.

- `Agrees`: two ways of writing end alike on passes that look alike, and leave passes that look alike.
- `playAll_agrees`: lists of pieces that match agree, whatever passes that look alike have in common besides their text.
- `playAll_atDepth`: playing pieces neither looks at the number of scripts around it nor changes it.
-/
import SqlTree.Proofs.Rendering.Piece
import SqlTree.Proofs.Rendering.Run

namespace SqlTree

/-- passes that look alike have their text in common, and changing the text alike keeps them alike -/
structure Pass.SameText (R : Pass → Pass → Prop) : Prop where
  text : ∀ ⦃p p'⦄, R p p' → p.text = p'.text
  frames : ∀ ⦃p p'⦄, R p p' → p.frames = p'.frames
  rewrite : ∀ ⦃p p'⦄, R p p' → ∀ text frames,
    R { p with text := text, frames := frames } { p' with text := text, frames := frames }

namespace Writing

/-- the same outcome and passes that look alike, from passes that look alike -/
def Agrees {α : Type} (R : Pass → Pass → Prop) (w w' : Writing α) : Prop :=
  ∀ ⦃p p'⦄, R p p' → (w.run p).1 = (w'.run p').1 ∧ R (w.run p).2 (w'.run p').2

variable {R : Pass → Pass → Prop} {α β : Type}

namespace Agrees

theorem pure (a : α) : Agrees R (Pure.pure a : Writing α) (Pure.pure a) := fun _ _ h => ⟨rfl, h⟩

theorem throw (e : Error) : Agrees R (MonadExcept.throw e : Writing α) (MonadExcept.throw e) := fun _ _ h => ⟨rfl, h⟩

theorem bind {w w' : Writing α} {f f' : α → Writing β} (hw : Agrees R w w') (hf : ∀ a, Agrees R (f a) (f' a)) :
    Agrees R (w >>= f) (w' >>= f') := by
  intro p p' h
  obtain ⟨hr, hp⟩ := hw h
  rw [run_bind, run_bind]
  generalize w.run p = o at hr hp ⊢
  generalize w'.run p' = o' at hr hp ⊢
  obtain ⟨r, q⟩ := o
  obtain ⟨r', q'⟩ := o'
  obtain rfl : r = r' := hr
  cases r with
  | ok a => exact hf a hp
  | error e => exact ⟨rfl, hp⟩

theorem seq {w w' : Writing Unit} {v v' : Writing β} (hw : Agrees R w w') (hv : Agrees R v v') :
    Agrees R (do w; v) (do w'; v') :=
  hw.bind fun _ => hv

theorem attempt {w w' : Writing α} (hw : Agrees R w w') : Agrees R (Writing.attempt w) (Writing.attempt w') :=
  fun _ _ h => ⟨congrArg (Except.ok ∘ Except.toOption) (hw h).1, (hw h).2⟩

variable (hR : Pass.SameText R)

include hR

theorem emit (t : String) : Agrees R (Writing.emit t) (Writing.emit t) := by
  intro p p' h
  have written := hR.rewrite h (p.text ++ t) p.frames
  refine ⟨rfl, ?_⟩
  show R { p with text := p.text ++ t } { p' with text := p'.text ++ t }
  simpa only [hR.text h, hR.frames h] using written

theorem beginStaging (d : Dialect) : Agrees R (Writing.beginStaging d) (Writing.beginStaging d) := by
  intro p p' h
  rw [run_beginStaging, run_beginStaging, ← hR.frames h, ← hR.text h]
  rcases p.frames with _ | ⟨_ | _, outer⟩
  · exact ⟨rfl, h⟩
  · exact ⟨rfl, hR.rewrite h _ _⟩
  · exact ⟨rfl, h⟩

theorem endStaging (d : Dialect) : Agrees R (Writing.endStaging d) (Writing.endStaging d) := by
  intro p p' h
  rw [run_endStaging, run_endStaging, ← hR.frames h, ← hR.text h]
  rcases p.frames with _ | ⟨_ | before, outer⟩
  · exact ⟨rfl, h⟩
  · exact ⟨rfl, h⟩
  · exact ⟨rfl, hR.rewrite h _ _⟩

theorem act (d : Dialect) (a : HookAction) : Agrees R (Writing.act d a) (Writing.act d a) := by
  induction a with
  | write t => exact emit hR t
  | beginStaging => exact beginStaging hR d
  | endStaging wrap => exact (endStaging hR d).bind fun t => emit hR (wrap t)
  | tryBegin next ih => exact (beginStaging hR d).attempt.bind fun begun => ih begun.isSome
  | tryEnd next ih => exact (endStaging hR d).attempt.bind ih
  | both first second ih ih' => exact ih.seq ih'

theorem actAll (d : Dialect) (actions : List HookAction) :
    Agrees R (Writing.actAll d actions) (Writing.actAll d actions) := by
  induction actions with
  | nil => exact pure ()
  | cons a actions ih => exact (act hR d a).seq ih

/-- A frame is pushed and popped alike, and whether the text is still set aside is read off it alike. -/
theorem inFrame (d : Dialect) {w w' : Writing Unit} (hw : Agrees R w w') :
    Agrees R (Writing.inFrame d w) (Writing.inFrame d w') := by
  intro p p' h
  have entered : R { p with frames := none :: p.frames } { p' with frames := none :: p'.frames } := by
    simpa only [hR.text h, hR.frames h] using hR.rewrite h p.text (none :: p.frames)
  obtain ⟨hr, hq⟩ := hw entered
  rw [run_inFrame, run_inFrame]
  generalize w.run { p with frames := none :: p.frames } = o at hr hq ⊢
  generalize w'.run { p' with frames := none :: p'.frames } = o' at hr hq ⊢
  obtain ⟨r, q⟩ := o
  obtain ⟨r', q'⟩ := o'
  obtain rfl : r = r' := hr
  have ht : q.text = q'.text := hR.text hq
  have hf : q.frames = q'.frames := hR.frames hq
  have left : R { q with frames := q.frames.tail } { q' with frames := q'.frames.tail } := by
    simpa only [ht, hf] using hR.rewrite hq q.text q.frames.tail
  cases r with
  | ok _ => exact ⟨by simp only [hf], left⟩
  | error e => exact ⟨rfl, left⟩

end Agrees
end Writing

theorem Occurrence.run_constant (d : Dialect) (v : Value) (s : Pass) :
    ((Occurrence.constant v).play d).run s = (.ok (), (s.enterLiteral d v).placed d s.params.length) := rfl

/-! ## Matching pieces -/

namespace Piece

/-- lists of pieces that differ in occurrences of parameters only -/
inductive Match (O : Occurrence → Occurrence → Prop) : List Piece → List Piece → Prop
  | nil : Match O [] []
  | text (t : String) {xs ys} : Match O xs ys → Match O (.text t :: xs) (.text t :: ys)
  | ident (name : String) {xs ys} : Match O xs ys → Match O (.ident name :: xs) (.ident name :: ys)
  | literal (t : String) {xs ys} : Match O xs ys → Match O (.literal t :: xs) (.literal t :: ys)
  | value {o o' xs ys} : O o o' → Match O xs ys → Match O (.value o :: xs) (.value o' :: ys)
  | act (a : HookAction) {xs ys} : Match O xs ys → Match O (.act a :: xs) (.act a :: ys)
  | stop (e : Error) {xs ys} : Match O xs ys → Match O (.stop e :: xs) (.stop e :: ys)
  | frame (opening closing : List HookAction) {body body' xs ys} :
      Match O body body' → Match O xs ys →
        Match O (.frame opening body closing :: xs) (.frame opening body' closing :: ys)

variable {O : Occurrence → Occurrence → Prop} {R : Pass → Pass → Prop}

open Writing (Agrees)

/-- Matching pieces agree if their occurrences do. -/
theorem playAll_agrees {d : Dialect} (hR : Pass.SameText R)
    (hO : ∀ o o', O o o' → Agrees R (o.play d) (o'.play d)) {xs ys : List Piece} (h : Match O xs ys) :
    Agrees R (playAll d xs) (playAll d ys) := by
  induction h with
  | nil => exact .pure ()
  | text t _ ih => exact (Agrees.emit hR t).seq ih
  | ident name _ ih => exact (Agrees.emit hR _).seq ih
  | literal t _ ih => exact (Agrees.emit hR _).seq ih
  | value h _ ih => exact (hO _ _ h).seq ih
  | act a _ ih => exact (Agrees.act hR d a).seq ih
  | stop e _ ih => exact (Agrees.throw e).seq ih
  | frame opening closing _ _ ihBody ih =>
    have inside := (Agrees.actAll hR d opening).seq (ihBody.seq (Agrees.actAll hR d closing))
    exact (Agrees.inFrame hR d inside).seq ih

/-! ## The number of scripts around a piece -/

theorem match_refl (hO : ∀ o, O o o) (xs : List Piece) : Match O xs xs := by
  induction xs using Piece.listInduction with
  | nil => exact .nil
  | text t xs ih => exact .text t ih
  | ident name xs ih => exact .ident name ih
  | literal t xs ih => exact .literal t ih
  | value o xs ih => exact .value (hO o) ih
  | act a xs ih => exact .act a ih
  | stop e xs ih => exact .stop e ih
  | frame opening body closing xs ihBody ih => exact .frame opening closing ihBody ih

end Piece

theorem Pass.sameText_atDepth (k : Nat) : Pass.SameText fun s t => t = s.atDepth k where
  text := by rintro s _ rfl; rfl
  frames := by rintro s _ rfl; rfl
  rewrite := by rintro s _ rfl _ _; rfl

namespace Writing

theorem register_atDepth (d : Dialect) (p : Parameter) (direction : Direction) (k : Nat) :
    Agrees (fun s t => t = s.atDepth k) (register d p direction) (register d p direction) := by
  rintro s _ rfl
  have hi : (s.atDepth k).index? (p.key d) = s.index? (p.key d) := rfl
  have hn : (s.atDepth k).names = s.names := rfl
  rw [run_register, run_register, hi, hn]
  rcases s.index? (p.key d) with _ | i
  · rcases p.name with _ | name
    · exact ⟨rfl, rfl⟩
    · dsimp only
      split
      · exact ⟨rfl, rfl⟩
      · exact ⟨rfl, rfl⟩
  · exact ⟨rfl, rfl⟩

end Writing

/-- Registering a parameter does not look at the scripts around it. -/
theorem Occurrence.play_atDepth (d : Dialect) (k : Nat) (o : Occurrence) :
    Writing.Agrees (fun s t => t = s.atDepth k) (o.play d) (o.play d) := by
  cases o with
  | constant v =>
    rintro s _ rfl
    exact ⟨rfl, rfl⟩
  | param p direction placed =>
    refine (Writing.register_atDepth d p direction k).bind fun i => ?_
    split
    · rintro s _ rfl
      exact ⟨rfl, rfl⟩
    · exact .pure ()

/-- Playing pieces neither looks at the number of scripts around them nor changes it. -/
theorem Piece.playAll_atDepth (d : Dialect) (k : Nat) (xs : List Piece) (s : Pass) :
    (playAll d xs).run (s.atDepth k) = (((playAll d xs).run s).1, ((playAll d xs).run s).2.atDepth k) := by
  have hO : ∀ o o' : Occurrence, o = o' → Writing.Agrees (fun s t => t = s.atDepth k) (o.play d) (o'.play d) := by
    rintro o _ rfl
    exact o.play_atDepth d k
  obtain ⟨hr, hs⟩ := playAll_agrees (Pass.sameText_atDepth k) hO (match_refl (fun _ => rfl) xs) (rfl : _ = s.atDepth k)
  exact Prod.ext hr.symm hs

theorem Piece.playAll_depth (d : Dialect) (xs : List Piece) (s : Pass) :
    ((playAll d xs).run s).2.scriptDepth = s.scriptDepth := by
  have h := playAll_atDepth d s.scriptDepth xs s
  exact congrArg (fun r => r.2.scriptDepth) h

end SqlTree
