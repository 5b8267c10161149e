/-
Sharing does not show where placeholders are question marks.

Equal queries may share their parameters differently: one parameter that occurs twice equals two parameters that look
alike. A pass tells the two apart, by the identity or the name, but where placeholders are question marks neither the
text nor the values that are bound show it.

- `render_shared`: on a positional dialect, equal queries without deferred parameters fail with the same error, or
  give the same text and equal values.
-/
import SqlTree.Dialect.Catalogue
import SqlTree.Proofs.Clause.Equal
import SqlTree.Proofs.Rendering.Blindness
import SqlTree.Proofs.Rendering.Parameters
import SqlTree.Proofs.Rendering.Positional

namespace SqlTree

/-! ## Matching pieces -/

namespace Piece.Match

variable {O : Occurrence → Occurrence → Prop} {xs ys : List Piece}

/-- Matching pieces hold the same items, if matching occurrences do. -/
theorem collectAll_eq {α : Type} {f : Piece → List α} (value : ∀ o o', O o o' → f (.value o) = f (.value o'))
    (h : Match O xs ys) : collectAll f xs = collectAll f ys := by
  induction h with
  | nil => rfl
  | value hO _ ih => simp only [collectAll, collect, value _ _ hO, ih]
  | frame _ _ _ _ ihBody ih => simp only [collectAll, collect, ihBody, ih]
  | _ => simp only [collectAll, collect, *]

theorem occurrences (h : Match O xs ys) : List.Forall₂ O (collectAll occurrence xs) (collectAll occurrence ys) := by
  induction h with
  | nil => exact .nil
  | value hO _ ih => exact .cons hO ih
  | frame _ _ _ _ ihBody ih => exact List.rel_append ihBody ih
  | _ => assumption

end Piece.Match

/-! ## Equal occurrences -/

theorem Parameter.beq_iff {p p' : Parameter} :
    (p == p') = true
      ↔ p.name = p'.name ∧ p.type = p'.type ∧ p.direction = p'.direction ∧ (p.source == p'.source) = true := by
  show p.beq p' = true ↔ _
  simp only [Parameter.beq, Bool.and_eq_true, beq_iff_eq, and_assoc]

theorem Likeness.equal_visible : Likeness.equal.Visible where
  null := by
    intro v v' h
    cases v <;> cases v' <;> first | rfl | cases h
  name p p' h := (Parameter.beq_iff.1 h).1
  direction p p' h := (Parameter.beq_iff.1 h).2.2.1

namespace Occurrence

/-- Equal occurrences that are not deferred have equal values. -/
theorem value_beq {o o' : Occurrence} (h : Likeness.equal.occurrence o o') (fixed : o.isDeferred = false)
    (supply supply' : Supply) : (o.value supply [] == o'.value supply' []) = true := by
  cases o with
  | constant v =>
    obtain ⟨v', rfl, same⟩ := h
    exact same
  | param p direction placed =>
    obtain ⟨p', rfl, same⟩ := h
    have source := (Parameter.beq_iff.1 same).2.2.2
    rw [value, value, Parameter.value, Parameter.value]
    rcases hs : p.source with v | feed
    · rcases hs' : p'.source with v' | feed'
      · rw [hs, hs'] at source
        exact source
      · rw [hs, hs'] at source
        cases source
    · rw [isDeferred, Parameter.isDeferred, Parameter.feed?, hs] at fixed
      cases fixed

theorem isPlaced_eq {o o' : Occurrence} (h : Likeness.equal.occurrence o o') : o.isPlaced = o'.isPlaced := by
  cases o with
  | constant v =>
    obtain ⟨v', rfl, -⟩ := h
    rfl
  | param p direction placed =>
    obtain ⟨p', rfl, -⟩ := h
    rfl

/-- A parameter that is known by its name is equal to others of that name only. -/
theorem isOf_named_eq {d : Dialect} {name : String} {o o' : Occurrence} (h : Likeness.equal.occurrence o o') :
    o.isOf d (.named name) = o'.isOf d (.named name) := by
  cases o with
  | constant v =>
    obtain ⟨v', rfl, -⟩ := h
    rfl
  | param p direction placed =>
    obtain ⟨p', rfl, same⟩ := h
    have names : p.name = p'.name := (Parameter.beq_iff.1 same).1
    rw [isOf, isOf, key?, key?, Parameter.key, Parameter.key, names]
    cases p'.name with
    | none => rfl
    | some => rfl

end Occurrence

/-- Lists that match find matching members, if they look for the same. -/
theorem forall₂_find? {α β : Type} {R : α → β → Prop} {f : α → Bool} {g : β → Bool}
    (hfg : ∀ a b, R a b → f a = g b) {as : List α} {bs : List β} (h : List.Forall₂ R as bs) :
    (as.find? f = none ∧ bs.find? g = none) ∨ ∃ a b, as.find? f = some a ∧ bs.find? g = some b ∧ R a b := by
  induction h with
  | nil => exact .inl ⟨rfl, rfl⟩
  | @cons a b as bs hab _ ih =>
    have same := hfg a b hab
    cases ha : f a with
    | true => exact .inr ⟨a, b, List.find?_cons_of_pos ha, List.find?_cons_of_pos (same.symm.trans ha), hab⟩
    | false =>
      rw [List.find?_cons_of_neg (by simp [ha]), List.find?_cons_of_neg (by simp [← same, ha])]
      exact ih

/-- In a coherent query, the first occurrence of a parameter without a name is one of that parameter. -/
theorem Coherent.firstIn_unnamed {d : Dialect} {q : Query} (h : Coherent q.parameters) {p : Parameter}
    {direction : Direction} {placed : Bool} (hp : .param p direction placed ∈ q.occurrences d)
    (unnamed : p.name = none) :
    ∃ direction' placed', (Occurrence.param p direction placed).firstIn d (q.occurrences d)
      = .param p direction' placed' := by
  obtain ⟨mem, same | ⟨k, key, key'⟩⟩ := Occurrence.firstIn_spec d hp
  · exact ⟨direction, placed, same.symm⟩
  · generalize (Occurrence.param p direction placed).firstIn d (q.occurrences d) = f at mem key'
    cases f with
    | constant => cases key'
    | param p' direction' placed' =>
      have keys : p.key d = p'.key d := (Option.some.inj key).trans (Option.some.inj key').symm
      rw [Parameter.key, Parameter.key, unnamed] at keys
      rcases named : p'.name with _ | name
      · rw [named] at keys
        have one := h p (Query.parameter_mem hp rfl) p' (Query.parameter_mem mem rfl) (ParamKey.shared.inj keys)
        exact ⟨direction', placed', by rw [one]⟩
      · rw [named] at keys
        cases keys

/-- **Equal occurrences get equal values**, however the parameters are shared around them: those with a name get the
value of the first one with that name, which stands in the same place, and those without a name get their own. -/
theorem firstIn_value_beq {d : Dialect} {q q' : Query} (coherent : Coherent q.parameters)
    (coherent' : Coherent q'.parameters)
    (equal : List.Forall₂ Likeness.equal.occurrence (q.occurrences d) (q'.occurrences d))
    (fixed : ∀ o ∈ q.occurrences d, o.isDeferred = false) (supply supply' : Supply) {o o' : Occurrence}
    (ho : o ∈ q.occurrences d) (ho' : o' ∈ q'.occurrences d) (h : Likeness.equal.occurrence o o') :
    ((o.firstIn d (q.occurrences d)).value supply [] == (o'.firstIn d (q'.occurrences d)).value supply' []) = true := by
  cases o with
  | constant v =>
    obtain ⟨v', rfl, same⟩ := h
    exact same
  | param p direction placed =>
    obtain ⟨p', rfl, same⟩ := h
    have names : p.name = p'.name := (Parameter.beq_iff.1 same).1
    rcases hn : p.name with _ | name
    · obtain ⟨direction', placed', first⟩ := coherent.firstIn_unnamed ho hn
      obtain ⟨direction'', placed'', first'⟩ := coherent'.firstIn_unnamed ho' (names ▸ hn)
      have own : Likeness.equal.occurrence (.param p direction true) (.param p' direction true) := ⟨p', rfl, same⟩
      rw [first, first']
      exact Occurrence.value_beq own (show p.isDeferred = false from fixed _ ho) supply supply'
    · have key : (Occurrence.param p direction placed).key? d = some (.named (d.canonicalName name)) :=
        Occurrence.key?_of_explicitName hn
      have key' : (Occurrence.param p' direction placed).key? d = some (.named (d.canonicalName name)) :=
        Occurrence.key?_of_explicitName (show p'.name = some name from names ▸ hn)
      rw [Occurrence.firstIn, Occurrence.firstIn, key, key', Option.bind_some, Option.bind_some]
      rcases forall₂_find? (fun _ _ h => Occurrence.isOf_named_eq h) equal with
        ⟨found, -⟩ | ⟨f, f', found, found', like⟩
      · exact absurd (Occurrence.isOf_iff.2 key) (List.find?_eq_none.1 found _ ho)
      · rw [found, found']
        exact Occurrence.value_beq like (fixed f (List.mem_of_find?_eq_some found)) supply supply'

/-! ## Renderings -/

/-- A positional dialect fails with the first fault of the pieces. -/
theorem render_fault {d : Dialect} (hd : d.Positional) {q : Query} {e : Error} {es : List Error}
    (h : Piece.faults (q.pieces d) = e :: es) (supply : Supply) : (render d q supply).result = .error e := by
  have ends := Query.played_ends (hd.plain.query q).orderly supply
  rw [h] at ends
  have failed : (q.played d supply).1 = .error e := ends
  rw [render_eq_played, failed]
  rfl

theorem list_beq_of_forall₂ {α : Type} [BEq α] {xs ys : List α} (h : List.Forall₂ (fun x y => (x == y) = true) xs ys) :
    (xs == ys) = true := by
  induction h with
  | nil => rfl
  | cons hx _ ih => rw [List.cons_beq_cons, hx, ih, Bool.and_true]

/-- **Sharing does not show in positional binding.** Equal queries without deferred parameters, however they share their
parameters, fail with the same error, or give the same text and equal values. -/
theorem render_shared {d : Dialect} (hd : d = .ansi ∨ d = .mysql ∨ d = .sqlite) {q q' : Query}
    (equal : (q == q') = true)
    (fixed : ∀ p ∈ q.parameters, p.isDeferred = false) (fixed' : ∀ p ∈ q'.parameters, p.isDeferred = false)
    (coherent : Coherent q.parameters) (coherent' : Coherent q'.parameters) (supply supply' : Supply) :
    (∃ e, (render d q supply).result = .error e ∧ (render d q' supply').result = .error e)
      ∨ ∃ r r', (render d q supply).result = .ok r ∧ (render d q' supply').result = .ok r' ∧ r.sql = r'.sql
        ∧ (r.bindValues == r'.bindValues) = true := by
  have known : d ∈ Dialect.all := by rcases hd with rfl | rfl | rfl <;> simp [Dialect.all]
  have positional : d.Positional := by rcases hd with rfl | rfl | rfl <;> exact .of_limitClause rfl rfl
  have pieces := Piece.Match.query Likeness.equal_visible (Dialect.all_respects known _) (Query.like_of_beq equal)
  have faults : Piece.faults (q.pieces d) = Piece.faults (q'.pieces d) := pieces.collectAll_eq fun _ _ _ => rfl
  have written : Piece.written d (q.pieces d) = Piece.written d (q'.pieces d) :=
    congrArg String.join (pieces.collectAll_eq fun o o' h => by
      rw [Piece.texts, Piece.texts, Occurrence.isPlaced_eq h])
  rcases hf : Piece.faults (q.pieces d) with _ | ⟨e, es⟩
  · right
    have hf' : Piece.faults (q'.pieces d) = [] := faults ▸ hf
    obtain ⟨r, hr⟩ := (render_written positional q supply).1.2 hf
    obtain ⟨r', hr'⟩ := (render_written positional q' supply').1.2 hf'
    refine ⟨r, r', hr, hr', ?_, ?_⟩
    · rw [(render_written positional q supply).2 r hr, (render_written positional q' supply').2 r' hr', written]
    · have occurrences := pieces.occurrences
      rw [(Piece.Carries.query q).all hf, (Piece.Carries.query q').all hf'] at occurrences
      have members : List.Forall₂ (fun o o' => o ∈ q.occurrences d ∧ o' ∈ q'.occurrences d
          ∧ Likeness.equal.occurrence o o')
          (q.occurrences d) (q'.occurrences d) :=
        (List.forall₂_and_left _ _).2 ⟨fun _ h => h, ((List.forall₂_and_left _ _).2
          ⟨fun _ h => h, occurrences.flip⟩).flip⟩
      have fixed := Query.occurrence_fixed (d := d) fixed
      rw [render_bindValues_eq hr fixed, render_bindValues_eq hr' (Query.occurrence_fixed fixed')]
      refine list_beq_of_forall₂ ?_
      rw [List.forall₂_map_left_iff, List.forall₂_map_right_iff]
      refine (List.rel_filter (fun o o' h => iff_of_eq (congrArg (· = true) (Occurrence.isPlaced_eq h.2.2)))
        members).imp ?_
      rintro o o' ⟨ho, ho', same⟩
      exact firstIn_value_beq coherent coherent' occurrences fixed supply supply' ho ho' same
  · exact .inl ⟨e, render_fault positional hf supply, render_fault positional (faults ▸ hf) supply'⟩

/-- the rows whose key is between two parameters of one value, which are one parameter if their identities are one -/
def keysBetween (low high : Nat) : Query :=
  .single (.select (.mk false none [] [.table ⟨none, "account"⟩]
    (some (.between (.field none "id") (.param (.fixed low (.int 7))) (.param (.fixed high (.int 7))))) [] none []))

/-- One parameter that occurs twice is bound once, and two that look alike are bound twice. -/
theorem render_shared_keysBetween :
    (keysBetween 0 0 == keysBetween 0 1) = true
      ∧ ∃ r r', (render .mysql (keysBetween 0 0) fun _ _ => .null).result = .ok r
        ∧ (render .mysql (keysBetween 0 1) fun _ _ => .null).result = .ok r' ∧ r.params.length = 1
            ∧ r'.params.length = 2
        ∧ r.sql = r'.sql ∧ (r.bindValues == r'.bindValues) = true := by
  have equal : (keysBetween 0 0 == keysBetween 0 1) = true := by decide +kernel
  have parameters : ∀ low high, (keysBetween low high).parameters = [.fixed low (.int 7), .fixed high (.int 7)] :=
    fun _ _ => rfl
  have fixed : ∀ low high, ∀ p ∈ (keysBetween low high).parameters, p.isDeferred = false := by
    intro low high
    simp [parameters, Parameter.fixed, Parameter.isDeferred, Parameter.feed?]
  have coherent : ∀ low high, Coherent (keysBetween low high).parameters := by
    intro low high
    simp [parameters, Coherent, Parameter.fixed]
  have bound : (render .mysql (keysBetween 0 0) fun _ _ => .null).result.toOption.map (·.params.length) = some 1 := by
    decide +kernel
  have bound' : (render .mysql (keysBetween 0 1) fun _ _ => .null).result.toOption.map (·.params.length) = some 2 := by
    decide +kernel
  rcases render_shared (.inr (.inl rfl)) equal (fixed 0 0) (fixed 0 1) (coherent 0 0) (coherent 0 1) (fun _ _ => .null)
    fun _ _ => .null with ⟨e, failed, -⟩ | ⟨r, r', hr, hr', text, values⟩
  · rw [failed] at bound
    cases bound
  · rw [hr] at bound
    rw [hr'] at bound'
    exact ⟨equal, r, r', hr, hr', Option.some.inj bound, Option.some.inj bound', text, values⟩

end SqlTree
