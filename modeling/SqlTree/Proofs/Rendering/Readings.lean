/-
Values are asked for once.

A pass that fails has still asked for values, so here a pass is followed wherever it ends.

- `Writing.Reaches`: writing that has come to some first ones of given occurrences, and to all of them if it succeeds.
- `Carries.reaches`: pieces reach the occurrences that they carry in this way, if each occurrence among them does.
- `Query.reached`: what a pass over a query has registered, whether or not it fails.
- `render_reads_once`: so the parameters whose values were asked for are those of the first occurrences that were
  reached, no two of one identity; they are what is bound for them, and nothing that is not written out is among them.
-/
import SqlTree.Proofs.Rendering.Ledger

namespace SqlTree

/-! ## Writing up to an error -/

namespace Writing

/-- Writing that reaches occurrences in order: some first ones of them have been written wherever it ends, and all of
them if it succeeds. What holds of the occurrences written so far, and of the pass behind them, holds there. -/
def Reaches (I : List Occurrence → Pass → Prop) (w : Writing Unit) (os : List Occurrence) : Prop :=
  ∀ before s, I before s → ∃ written, written <+: os ∧ I (before ++ written) (w.run s).2
    ∧ ((w.run s).1 = .ok () → written = os)

namespace Reaches

variable {I : List Occurrence → Pass → Prop} {w v : Writing Unit} {os os' : List Occurrence}

theorem throw (e : Error) (os : List Occurrence) : Reaches I (MonadExcept.throw e) os := fun before s h =>
  ⟨[], List.nil_prefix, by rwa [List.append_nil], fun hc => by cases hc⟩

theorem seq (hw : Reaches I w os) (hv : Reaches I v os') : Reaches I (do w; v) (os ++ os') := by
  intro before s h
  obtain ⟨written, first, there, all⟩ := hw before s h
  rw [run_bind]
  rcases hr : w.run s with ⟨e | _, t⟩
  · rw [hr] at there
    exact ⟨written, first.trans (List.prefix_append os os'), there, fun hc => by cases hc⟩
  · rw [hr] at there all
    obtain rfl := all rfl
    obtain ⟨more, rest, there, all⟩ := hv _ t there
    refine ⟨written ++ more, ?_, by rwa [← List.append_assoc], fun ended => by rw [all ended]⟩
    exact (List.prefix_append_right_inj written).2 rest

section
variable (rewrite : ∀ os s text frames, I os s → I os { s with text := text, frames := frames })

include rewrite

/-- Writing that looks at the text and at the frames alone reaches nothing. -/
theorem of_rewrites (h : ∀ s : Pass, ∃ text frames, (w.run s).2 = { s with text := text, frames := frames }) :
    Reaches I w [] := by
  intro before s there
  obtain ⟨text, frames, same⟩ := h s
  refine ⟨[], List.nil_prefix, ?_, fun _ => rfl⟩
  rw [List.append_nil, same]
  exact rewrite before s text frames there

theorem emit (text : String) : Reaches I (Writing.emit text) [] := of_rewrites rewrite fun _ => ⟨_, _, rfl⟩

theorem actAll (d : Dialect) (actions : List HookAction) : Reaches I (Writing.actAll d actions) [] := by
  induction actions with
  | nil => exact of_rewrites rewrite fun _ => ⟨_, _, rfl⟩
  | cons a actions ih =>
    rw [actAll_cons]
    exact (of_rewrites rewrite fun s => run_act_rewrites d a s).seq ih

theorem inFrame (d : Dialect) (hw : Reaches I w os) : Reaches I (Writing.inFrame d w) os := by
  intro before s h
  obtain ⟨written, first, there, all⟩ := hw before _ (rewrite before s s.text (none :: s.frames) h)
  rw [run_inFrame]
  rcases hr : w.run { s with frames := none :: s.frames } with ⟨e | _, t⟩
  · rw [hr] at there
    exact ⟨written, first, rewrite _ t t.text t.frames.tail there, fun hc => by cases hc⟩
  · rw [hr] at there all
    exact ⟨written, first, rewrite _ t t.text t.frames.tail there, fun _ => all rfl⟩

end

end Reaches
end Writing

open Writing (Reaches)

/-- **Pieces reach what they carry**, wherever they end, if each occurrence among it is reached; by induction on how
they carry it. -/
theorem Piece.Carries.reaches {d : Dialect} {I : List Occurrence → Pass → Prop}
    (rewrite : ∀ os s text frames, I os s → I os { s with text := text, frames := frames }) {xs : List Piece}
    {os : List Occurrence} (h : Carries xs os) (play : ∀ o ∈ os, Reaches I (o.play d) [o]) :
    Reaches I (playAll d xs) os := by
  have single : ∀ {x : Piece} {os : List Occurrence}, Reaches I (x.play d) os → Reaches I (playAll d [x]) os := by
    intro x os hx
    rwa [playAll_cons, playAll_nil, bind_pure_unit]
  induction h with
  | nil => exact .of_rewrites rewrite fun _ => ⟨_, _, rfl⟩
  | text t => exact single (.emit rewrite t)
  | ident name => exact single (.emit rewrite (d.quote name))
  | literal t => exact single (.emit rewrite (Dialect.literal t))
  | value o => exact single (play o (List.mem_singleton_self o))
  | action a => exact single (.of_rewrites rewrite fun s => Writing.run_act_rewrites d a s)
  | stop e os => exact single (.throw e os)
  | @frame opening closing xs os _ ih =>
    have inside := (Reaches.actAll rewrite d opening).seq ((ih play).seq (.actAll rewrite d closing))
    rw [List.nil_append, List.append_nil] at inside
    exact single (inside.inFrame rewrite d)
  | @append xs ys os os' _ _ ih ih' =>
    rw [List.forall_mem_append] at play
    rw [playAll_append]
    exact (ih play.1).seq (ih' play.2)

/-! ## What a pass has registered -/

/-- a pass that has registered the first ones of the occurrences it has written -/
def Pass.Registered (d : Dialect) (supply : Supply) (os : List Occurrence) (s : Pass) : Prop :=
  ∃ index firsts, Ledger d supply os index firsts s

/-- **The step of a pass that may fail.** An occurrence is registered, or was before, or is refused
and changes nothing. -/
theorem Pass.Registered.reaches (d : Dialect) (supply : Supply) (o : Occurrence) :
    Reaches (Registered d supply) (o.play d) [o] := by
  rintro before s ⟨index, firsts, ledger⟩
  rcases hr : (o.play d).run s with ⟨e | _, t⟩
  · obtain rfl := Occurrence.eq_of_play_error hr
    exact ⟨[], List.nil_prefix, ⟨index, firsts, by rwa [List.append_nil]⟩, fun hc => by cases hc⟩
  · exact ⟨[o], List.prefix_rfl, ledger.play hr, fun _ => rfl⟩

/-- What a pass over a query has registered, whether or not it fails. -/
theorem Query.reached (d : Dialect) (q : Query) (supply : Supply) :
    ∃ written index firsts, written <+: q.occurrences d ∧ Ledger d supply written index firsts (q.played d supply).2
      ∧ ((q.played d supply).1 = .ok () → written = q.occurrences d) := by
  have rewrite : ∀ os s text frames, Pass.Registered d supply os s →
      Pass.Registered d supply os { s with text := text, frames := frames } :=
    fun _ _ text frames ⟨index, firsts, ledger⟩ => ⟨index, firsts, ledger.rewrite text frames⟩
  have start : Pass.Registered d supply [] ((Pass.start supply).reserve d q.paramNames) :=
    ⟨[], [], .start d supply q.paramNames⟩
  obtain ⟨written, first, ⟨index, firsts, ledger⟩, all⟩ := (Piece.Carries.query q).reaches rewrite
    (fun o _ => Pass.Registered.reaches d supply o) [] _ start
  exact ⟨written, index, firsts, first, ledger, all⟩

/-- No two first occurrences are the same parameter. -/
theorem Numbered.nodup_keys {d : Dialect} {os firsts : List Occurrence} {index : List Nat}
    (h : Numbered d os index firsts) : (firsts.filterMap (Occurrence.key? d)).Nodup := by
  have apart : firsts.Pairwise fun o o' => ¬ o.SameAs d o' := by
    refine List.pairwise_iff_getElem.2 fun m n hm hn hlt same => ?_
    obtain ⟨j, hj, hi, -⟩ := h.order m _ (List.getElem?_eq_getElem hm)
    obtain ⟨k, hk, hi', -⟩ := h.order n _ (List.getElem?_eq_getElem hn)
    exact Nat.ne_of_lt hlt ((h.same j k _ _ m n hj hk hi hi').2 (.inr same))
  refine List.pairwise_filterMap.2 (apart.imp fun differ key hkey key' hkey' same => ?_)
  exact differ ⟨key, hkey, same ▸ hkey'⟩

/-- A statement that defines a table asks for no value, also where it is written by itself. -/
theorem Statement.reads_nothing (d : Dialect) {s : Statement} (hs : s.isDefinition) (p : Pass) :
    ((Writing.statement d s).run p).2.produced = p.produced := by
  have empty : s.occurrences d = [] := by cases s <;> first | rfl | cases hs
  have carried := Piece.Carries.statement (d := d) (p.scriptDepth != 0) s
  rw [empty] at carried
  obtain ⟨_, -, same, -⟩ := carried.reaches (d := d) (I := fun _ t => t.produced = p.produced)
    (fun _ _ _ _ same => same) (by simp) [] p rfl
  rwa [statement_eq_play]

/-- **Values are asked for once.** A pass over a query on any dialect has written some first ones of its occurrences,
and has asked for the value of each parameter where it occurred first among them, in this order and nowhere else:
never twice for one parameter, however often it occurs, and never for one that does not occur. If the pass succeeds it
has written all occurrences, and what was asked for is bound for them one to one, between the literals; tables that a
block defines are written on the side and ask for nothing. -/
theorem render_reads_once (d : Dialect) (q : Query) (supply : Supply) :
    ∃ written index firsts, written <+: q.occurrences d ∧ Numbered d written index firsts
      ∧ (render d q supply).produced = firsts.filterMap Occurrence.param?
      ∧ ((render d q supply).produced.map (Parameter.key d)).Nodup
      ∧ (∀ r, (render d q supply).result = .ok r → written = q.occurrences d ∧ r.params.length = firsts.length
        ∧ ∀ (n : Nat) (b : BoundParam) (o : Occurrence), r.params[n]? = some b → firsts[n]? = some o →
          b.From supply (firsts.take n) o)
      ∧ ∀ s ∈ q.statements, s.isDefinition → ∀ p, ((Writing.statement d s).run p).2.produced = p.produced := by
  obtain ⟨written, index, firsts, first, ledger, all⟩ := q.reached d supply
  have keys : (firsts.filterMap Occurrence.param?).map (Parameter.key d) = firsts.filterMap (Occurrence.key? d) := by
    have key : (fun o => (Occurrence.param? o).map (Parameter.key d)) = Occurrence.key? d := by
      funext o
      cases o <;> rfl
    rw [List.map_filterMap, key]
  rw [render_eq_played]
  refine ⟨written, index, firsts, first, ledger.numbered, ledger.produced, ?_, fun r hr => ?_,
    fun s _ hs => Statement.reads_nothing d hs⟩
  · dsimp only
    rw [ledger.produced, keys]
    exact ledger.numbered.nodup_keys
  · rcases hp : (q.played d supply).1 with e | _
    · rw [hp] at hr
      cases hr
    · rw [hp] at hr
      cases hr
      exact ⟨all hp, ledger.length, ledger.params⟩

/-- A pass that fails at a sequence has asked once for the parameter that occurs twice before it. -/
example : let q : Query := .single (.select
      (.mk false none [.param (.deferred 0 9), .param (.deferred 0 9), .builtin (.nextId "s")] [] none [] none []))
    (render .mysql q fun _ _ => .int 5).result.isOk = false
      ∧ (render .mysql q fun _ _ => .int 5).produced.map Parameter.id = [0] := by decide +kernel

end SqlTree
