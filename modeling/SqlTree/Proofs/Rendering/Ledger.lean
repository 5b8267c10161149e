/-
Parameters and placeholders are exact.

- `Numbered`: occurrences are numbered alike if and only if they are the same parameter, and the numbers go up in the
  order of first occurrences.
- `Ledger`: what a pass has registered, told by the occurrences it has written. `playAll_keeps` carries such a statement
  through a list of pieces, and `Ledger.play` is its step.
- `render_parameters`: a rendering has one placeholder for each placed occurrence, numbered so, and one bound parameter
  for each first occurrence, with the value and the type from there.
-/
import SqlTree.Dialect.Catalogue
import SqlTree.Proofs.Rendering.Occurrence
import SqlTree.Proofs.Rendering.Registering

namespace SqlTree

/-! ## Numbering occurrences -/

namespace Occurrence

/-- occurrences of one parameter: of one name, or without a name and of one identity -/
def SameAs (d : Dialect) (o o' : Occurrence) : Prop := ∃ k, o.key? d = some k ∧ o'.key? d = some k

theorem SameAs.symm {d : Dialect} {o o' : Occurrence} : o.SameAs d o' → o'.SameAs d o
  | ⟨k, h, h'⟩ => ⟨k, h', h⟩

theorem SameAs.trans {d : Dialect} {o o' o'' : Occurrence} : o.SameAs d o' → o'.SameAs d o'' → o.SameAs d o''
  | ⟨k, h, h'⟩, ⟨l, i, i'⟩ => ⟨k, h, by rw [i', ← i, h']⟩

end Occurrence

/-- Numbers of occurrences. `index` has a number for each, and `firsts` the first occurrence with each number. -/
structure Numbered (d : Dialect) (os : List Occurrence) (index : List Nat) (firsts : List Occurrence) : Prop where
  length : index.length = os.length
  bound : ∀ i ∈ index, i < firsts.length
  /-- two places have one number if and only if they are one place or one parameter -/
  same : ∀ (j k : Nat) (o o' : Occurrence) (i i' : Nat), os[j]? = some o → os[k]? = some o' → index[j]? = some i →
    index[k]? = some i' → (i = i' ↔ j = k ∨ o.SameAs d o')
  /-- a number is used first where its first occurrence stands, behind smaller numbers only -/
  order : ∀ (n : Nat) (o : Occurrence), firsts[n]? = some o →
    ∃ j : Nat, os[j]? = some o ∧ index[j]? = some n ∧ ∀ k < j, ∀ i, index[k]? = some i → i < n

theorem getElem?_snoc {α : Type} {xs : List α} {x y : α} {j : Nat} :
    (xs ++ [x])[j]? = some y ↔ xs[j]? = some y ∨ (j = xs.length ∧ x = y) := by
  rcases Nat.lt_trichotomy j xs.length with h | h | h
  · rw [List.getElem?_append_left h]
    simp [Nat.ne_of_lt h]
  · subst h
    simp
  · rw [List.getElem?_eq_none (by simp; omega), List.getElem?_eq_none (Nat.le_of_lt h)]
    simp [Nat.ne_of_gt h]

namespace Numbered

variable {d : Dialect} {os firsts : List Occurrence} {index : List Nat}

theorem nil (d : Dialect) : Numbered d [] [] [] where
  length := rfl
  bound := by simp
  same := by simp
  order := by simp

/-- An occurrence is its number's first one or the same parameter as that. -/
theorem sameAs_first (h : Numbered d os index firsts) {j i : Nat} {o f : Occurrence} (hj : os[j]? = some o)
    (hi : index[j]? = some i) (hf : firsts[i]? = some f) : o = f ∨ o.SameAs d f := by
  obtain ⟨k, hfk, hk, -⟩ := h.order i f hf
  rcases (h.same j k o f i i hj hfk hi hk).1 rfl with rfl | hs
  · exact .inl (Option.some.inj (hj.symm.trans hfk))
  · exact .inr hs

/-- An index in both lists is the index of old entries or of the new ones. -/
theorem snoc_cases (h : Numbered d os index firsts) {o a : Occurrence} {n i j : Nat} (hj : (os ++ [o])[j]? = some a)
    (hi : (index ++ [n])[j]? = some i) :
    (os[j]? = some a ∧ index[j]? = some i ∧ j < os.length) ∨ (j = os.length ∧ a = o ∧ i = n) := by
  have hlen := h.length
  rcases getElem?_snoc.1 hj with old | ⟨last, ho⟩
  · have hlt := (List.getElem?_eq_some_iff.1 old).1
    rcases getElem?_snoc.1 hi with old' | ⟨last', -⟩
    · exact .inl ⟨old, old', hlt⟩
    · omega
  · rcases getElem?_snoc.1 hi with old' | ⟨-, hn⟩
    · have hlt := (List.getElem?_eq_some_iff.1 old').1
      omega
    · exact .inr ⟨last, ho.symm, hn.symm⟩

/-- A new number is right if it is right against each old one. -/
theorem same_snoc (h : Numbered d os index firsts) {o : Occurrence} {n : Nat}
    (hn : ∀ (j : Nat) (a : Occurrence) (i : Nat), os[j]? = some a → index[j]? = some i → (i = n ↔ a.SameAs d o))
    (j k : Nat) (a b : Occurrence)
    (i i' : Nat) (hj : (os ++ [o])[j]? = some a) (hk : (os ++ [o])[k]? = some b) (hi : (index ++ [n])[j]? = some i)
    (hi' : (index ++ [n])[k]? = some i') : i = i' ↔ j = k ∨ a.SameAs d b := by
  rcases h.snoc_cases hj hi with ⟨hj, hi, hlt⟩ | ⟨hj, ha, hn''⟩
  · rcases h.snoc_cases hk hi' with ⟨hk, hi', -⟩ | ⟨hk, hb, hn'⟩
    · exact h.same j k a b i i' hj hk hi hi'
    · rw [hn', hn j a i hj hi, hk, hb]
      simp [Nat.ne_of_lt hlt]
  · rcases h.snoc_cases hk hi' with ⟨hk, hi', hlt⟩ | ⟨hk, -, hn'⟩
    · rw [hn'', eq_comm, hn k b i' hk hi', hj, ha]
      constructor
      · exact fun hs => .inr hs.symm
      · rintro (he | hs)
        · exact absurd he (Nat.ne_of_gt hlt)
        · exact hs.symm
    · simp [hj, hk, hn', hn'']

theorem again (h : Numbered d os index firsts) {n : Nat} {f o : Occurrence} (hf : firsts[n]? = some f)
    (ho : f.SameAs d o) : Numbered d (os ++ [o]) (index ++ [n]) firsts where
  length := by simp [h.length]
  bound := by
    intro i hi
    rcases List.mem_append.1 hi with hi | hi
    · exact h.bound i hi
    · obtain rfl := List.mem_singleton.1 hi
      exact (List.getElem?_eq_some_iff.1 hf).1
  same := by
    refine h.same_snoc fun j a i hj hi => ⟨?_, fun hs => ?_⟩
    · rintro rfl
      rcases h.sameAs_first hj hi hf with rfl | hs
      · exact ho
      · exact hs.trans ho
    · obtain ⟨k, hfk, hk, -⟩ := h.order n f hf
      exact (h.same j k a f i n hj hfk hi hk).2 (.inr (hs.trans ho.symm))
  order := by
    intro i f' hf'
    obtain ⟨j, hj, hi, hlt⟩ := h.order i f' hf'
    refine ⟨j, getElem?_snoc.2 (.inl hj), getElem?_snoc.2 (.inl hi), fun k hk i' hi' => ?_⟩
    rcases getElem?_snoc.1 hi' with hi' | ⟨rfl, -⟩
    · exact hlt k hk i' hi'
    · have := (List.getElem?_eq_some_iff.1 hi).1
      omega

theorem first (h : Numbered d os index firsts) {o : Occurrence} (ho : ∀ f ∈ firsts, ¬ f.SameAs d o) :
    Numbered d (os ++ [o]) (index ++ [firsts.length]) (firsts ++ [o]) where
  length := by simp [h.length]
  bound := by
    intro i hi
    rw [List.length_append, List.length_singleton]
    rcases List.mem_append.1 hi with hi | hi
    · exact Nat.lt_succ_of_lt (h.bound i hi)
    · rw [List.mem_singleton.1 hi]
      exact Nat.lt_succ_self _
  same := by
    refine h.same_snoc fun j a i hj hi => ?_
    have hlt := h.bound i (List.mem_of_getElem? hi)
    have hf := List.getElem?_eq_getElem hlt
    refine ⟨fun he => absurd he (Nat.ne_of_lt hlt), fun hs => ?_⟩
    rcases h.sameAs_first hj hi hf with rfl | hs'
    · exact absurd hs (ho _ (List.getElem_mem hlt))
    · exact absurd (hs'.symm.trans hs) (ho _ (List.getElem_mem hlt))
  order := by
    intro i f hf
    rcases getElem?_snoc.1 hf with hf | ⟨rfl, rfl⟩
    · obtain ⟨j, hj, hi, hlt⟩ := h.order i f hf
      refine ⟨j, getElem?_snoc.2 (.inl hj), getElem?_snoc.2 (.inl hi), fun k hk i' hi' => ?_⟩
      rcases getElem?_snoc.1 hi' with hi' | ⟨rfl, -⟩
      · exact hlt k hk i' hi'
      · have := (List.getElem?_eq_some_iff.1 hi).1
        omega
    · refine ⟨os.length, getElem?_snoc.2 (.inr ⟨rfl, rfl⟩), getElem?_snoc.2 (.inr ⟨h.length.symm, rfl⟩), ?_⟩
      intro k hk i' hi'
      rcases getElem?_snoc.1 hi' with hi' | ⟨rfl, -⟩
      · exact h.bound i' (List.mem_of_getElem? hi')
      · exact absurd h.length (Nat.ne_of_lt hk)

end Numbered

/-! ## What is bound to a first occurrence -/

namespace Occurrence

def readings (before : List Occurrence) (feed : FeedId) : Nat :=
  ((before.filterMap param?).filterMap Parameter.feed?).count feed

/-- the value of a first occurrence behind others; a feed is read on from where they left it -/
def value (supply : Supply) (before : List Occurrence) : Occurrence → Value
  | .constant v => v
  | .param p _ _ => p.value supply ((p.feed?.map (readings before)).getD 0)

/-- the type of a first occurrence behind others: its own, or else the type of its value -/
def type (supply : Supply) (before : List Occurrence) : Occurrence → Option DataType
  | .constant v => v.dataType
  | .param p direction placed => p.type <|> ((Occurrence.param p direction placed).value supply before).dataType

def direction : Occurrence → Direction
  | .constant _ => .input
  | .param _ direction _ => direction

def isDeferred : Occurrence → Bool
  | .constant _ => false
  | .param p _ _ => p.isDeferred

end Occurrence

/-- a parameter bound for a first occurrence behind others -/
structure BoundParam.From (supply : Supply) (before : List Occurrence) (o : Occurrence) (b : BoundParam) : Prop where
  value : b.value = o.value supply before
  type : b.type = o.type supply before
  direction : b.direction = o.direction
  deferred : b.deferred = o.isDeferred

/-- the numbers of the occurrences that have placeholders -/
def placedNumbers (os : List Occurrence) (index : List Nat) : List Nat :=
  ((os.zip index).filter (·.1.isPlaced)).map (·.2)

theorem placedNumbers_snoc {os : List Occurrence} {index : List Nat} (h : index.length = os.length) (o : Occurrence)
    (n : Nat) :
    placedNumbers (os ++ [o]) (index ++ [n]) = placedNumbers os index ++ if o.isPlaced then [n] else [] := by
  rw [placedNumbers, List.zip_append h.symm, List.filter_append, List.map_append]
  cases ho : o.isPlaced <;> simp [placedNumbers, ho]

theorem mem_of_mem_placedNumbers {os : List Occurrence} {index : List Nat} {i : Nat} (h : i ∈ placedNumbers os index) :
    i ∈ index := by
  obtain ⟨⟨o, n⟩, hn, rfl⟩ := List.mem_map.1 h
  exact (List.of_mem_zip (List.mem_filter.1 hn).1).2

/-! ## What a pass has registered -/

/-- a pass that has written occurrences, numbered, and has registered the first ones -/
structure Ledger (d : Dialect) (supply : Supply) (os : List Occurrence) (index : List Nat) (firsts : List Occurrence)
    (s : Pass) : Prop where
  numbered : Numbered d os index firsts
  slots : s.slots = placedNumbers os index
  length : s.params.length = firsts.length
  params : ∀ (n : Nat) (b : BoundParam) (o : Occurrence), s.params[n]? = some b → firsts[n]? = some o →
    b.From supply (firsts.take n) o
  keys : ∀ k, s.index? k = firsts.findIdx? fun o => o.key? d == some k
  produced : s.produced = firsts.filterMap Occurrence.param?
  supply : s.supply = supply

namespace Ledger

variable {d : Dialect} {supply : Supply} {os firsts : List Occurrence} {index : List Nat} {s : Pass}

theorem start (d : Dialect) (supply : Supply) (names : List String) :
    Ledger d supply [] [] [] ((Pass.start supply).reserve d names) where
  numbered := .nil d
  slots := rfl
  length := rfl
  params := by simp
  keys _ := rfl
  produced := rfl
  supply := rfl

theorem rewrite (h : Ledger d supply os index firsts s) (text : String) (frames : List (Option String)) :
    Ledger d supply os index firsts { s with text := text, frames := frames } :=
  { h with keys := h.keys }

theorem withGenerated (h : Ledger d supply os index firsts s) (n : Nat) :
    Ledger d supply os index firsts { s with generated := n } :=
  { h with keys := h.keys }

/-- a parameter registered for one more first occurrence -/
theorem params_snoc (h : Ledger d supply os index firsts s) {o : Occurrence} {b : BoundParam}
    (hb : b.From supply firsts o) (n : Nat) (b' : BoundParam) (o' : Occurrence)
    (hn : (s.params ++ [b])[n]? = some b') (ho : (firsts ++ [o])[n]? = some o') :
    b'.From supply ((firsts ++ [o]).take n) o' := by
  rcases getElem?_snoc.1 hn with old | ⟨last, rfl⟩
  · have hlt : n < firsts.length := h.length ▸ (List.getElem?_eq_some_iff.1 old).1
    rw [List.getElem?_append_left hlt] at ho
    rw [List.take_append_of_le_length (Nat.le_of_lt hlt)]
    exact h.params n b' o' old ho
  · rw [last, h.length] at ho ⊢
    rw [List.getElem?_concat_length] at ho
    obtain rfl := Option.some.inj ho
    rwa [List.take_left]

theorem again (h : Ledger d supply os index firsts s) {o : Occurrence} {k : ParamKey} (hk : o.key? d = some k) {n : Nat}
    (hn : s.index? k = some n) : Ledger d supply (os ++ [o]) (index ++ [n]) firsts (o.behind d n s) where
  numbered := by
    rw [h.keys, List.findIdx?_eq_some_iff_getElem] at hn
    obtain ⟨hlt, hf, -⟩ := hn
    exact h.numbered.again (List.getElem?_eq_getElem hlt) ⟨k, beq_iff_eq.1 hf, hk⟩
  slots := by rw [Occurrence.slots_behind, h.slots, placedNumbers_snoc h.numbered.length]
  length := by rw [Occurrence.params_behind, h.length]
  params := by
    rw [Occurrence.params_behind]
    exact h.params
  keys k' := by rw [← h.keys k', Pass.index?, Occurrence.keys_behind, ← Pass.index?]
  produced := by rw [Occurrence.produced_behind, h.produced]
  supply := by rw [Occurrence.supply_behind, h.supply]

/-- what is bound for an occurrence that is registered: its value is asked for behind those asked for before -/
theorem bound (h : Ledger d supply os index firsts s) (o : Occurrence) (name : String) :
    ∃ b, (o.entered d name s).params = s.params ++ [b] ∧ b.From supply firsts o := by
  cases o with
  | constant v => exact ⟨_, rfl, rfl, rfl, rfl, rfl⟩
  | param p direction placed =>
    have readings : s.readings = Occurrence.readings firsts := by
      funext feed
      rw [Pass.readings, h.produced, Occurrence.readings]
    refine ⟨_, rfl, ?_⟩
    rw [readings, h.supply]
    exact ⟨rfl, rfl, rfl, rfl⟩

/-- the ledger behind a literal, or behind the first occurrence of a parameter -/
theorem first (h : Ledger d supply os index firsts s) {o : Occurrence}
    (new : ∀ k, o.key? d = some k → s.index? k = none) (name : String) :
    Ledger d supply (os ++ [o]) (index ++ [firsts.length]) (firsts ++ [o])
      (o.behind d s.params.length (o.entered d name s)) where
  numbered := by
    refine h.numbered.first fun f hf hs => ?_
    obtain ⟨k, hfk, hok⟩ := hs
    have none := new k hok
    rw [h.keys, List.findIdx?_eq_none_iff] at none
    simpa [hfk] using none f hf
  slots := by
    rw [Occurrence.slots_behind, Occurrence.slots_entered, h.slots, placedNumbers_snoc h.numbered.length, h.length]
  length := by
    obtain ⟨b, params, -⟩ := h.bound o name
    rw [Occurrence.params_behind, params, List.length_append, List.length_append, h.length]
    rfl
  params := by
    obtain ⟨b, params, from_⟩ := h.bound o name
    rw [Occurrence.params_behind, params]
    exact h.params_snoc from_
  keys k := by
    rw [Pass.index?, Occurrence.keys_behind, ← Pass.index?, Occurrence.index?_entered, List.findIdx?_append, ← h.keys k,
      h.length]
    by_cases hk : o.key? d = some k
    · simp [hk, new k hk]
    · simp [hk]
  produced := by
    rw [Occurrence.produced_behind, Occurrence.produced_entered, h.produced, List.filterMap_append]
    cases o <;> rfl
  supply := by rw [Occurrence.supply_behind, Occurrence.supply_entered, h.supply]

/-- **The step of the ledger.** What was played to the end was registered, or had been registered before. -/
theorem play (h : Ledger d supply os index firsts s) {o : Occurrence} {t : Pass} (ht : (o.play d).run s = (.ok (), t)) :
    ∃ index' firsts', Ledger d supply (os ++ [o]) index' firsts' t := by
  cases Occurrence.play_registers ht with
  | again key known => exact ⟨_, _, h.again key known⟩
  | generated new => exact ⟨_, _, (h.withGenerated s.nextNumber).first new _⟩
  | named new => exact ⟨_, _, h.first new _⟩

end Ledger

/-! ## Whole statements -/

/-- What holds of the occurrences written so far and the pass behind them holds behind a list of pieces, if it does not
look at the text and every occurrence that is played to the end hands it on. -/
theorem Piece.playAll_keeps {d : Dialect} {I : List Occurrence → Pass → Prop}
    (rewrite : ∀ os s text frames, I os s → I os { s with text := text, frames := frames })
    (play : ∀ os o s t, I os s → (Occurrence.play d o).run s = (.ok (), t) → I (os ++ [o]) t) :
    ∀ (xs : List Piece) (os : List Occurrence) (s t : Pass), I os s → (playAll d xs).run s = (.ok (), t) →
      I (os ++ collectAll Piece.occurrence xs) t := by
  have acts : ∀ (actions : List HookAction) os s t, I os s → (Writing.actAll d actions).run s = (.ok (), t) →
      I os t := by
    intro actions
    induction actions with
    | nil => rintro os s _ h ⟨⟩; exact h
    | cons a actions ih =>
      intro os s t h ht
      obtain ⟨_, u, hu, ht⟩ := Writing.run_bind_ok ht
      obtain ⟨text, frames, rfl⟩ := Writing.run_act_ok hu
      exact ih os _ t (rewrite os s text frames h) ht
  intro xs
  induction xs using Piece.listInduction with
  | nil =>
    rintro os s _ h ⟨⟩
    rwa [collectAll, List.append_nil]
  | text _ xs ih | ident _ xs ih | literal _ xs ih =>
    intro os s t h ht
    exact ih os _ t (rewrite os s _ s.frames h) ht
  | value o xs ih =>
    intro os s t h ht
    rw [playAll_cons] at ht
    obtain ⟨_, u, hu, ht⟩ := Writing.run_bind_ok ht
    have rest := ih (os ++ [o]) u t (play os o s u h hu) ht
    rwa [List.append_assoc] at rest
  | act a xs ih =>
    intro os s t h ht
    rw [playAll_cons] at ht
    obtain ⟨_, u, hu, ht⟩ := Writing.run_bind_ok ht
    obtain ⟨text, frames, rfl⟩ := Writing.run_act_ok hu
    exact ih os _ t (rewrite os s text frames h) ht
  | stop e xs _ =>
    intro os s t _ ht
    rw [playAll_cons] at ht
    cases ht
  | frame opening body closing xs ihBody ih =>
    intro os s t h ht
    rw [playAll_cons, play_frame] at ht
    obtain ⟨_, u, hu, ht⟩ := Writing.run_bind_ok ht
    obtain ⟨v, hv, -, rfl⟩ := Writing.run_inFrame_ok hu
    obtain ⟨_, w, hw, hv⟩ := Writing.run_bind_ok hv
    obtain ⟨_, y, hy, hv⟩ := Writing.run_bind_ok hv
    have opened := acts opening os _ w (rewrite os s s.text (none :: s.frames) h) hw
    have closed := acts closing _ y v (ihBody os w y opened hy) hv
    have rest := ih _ _ t (rewrite _ v v.text v.frames.tail closed) ht
    rwa [List.append_assoc] at rest

/-- What each occurrence of a query keeps, and text does not touch, holds behind a query that was played to the end. -/
theorem Query.played_keeps {d : Dialect} {I : List Occurrence → Pass → Prop}
    (rewrite : ∀ os s text frames, I os s → I os { s with text := text, frames := frames })
    (play : ∀ os o s t, I os s → (Occurrence.play d o).run s = (.ok (), t) → I (os ++ [o]) t) {q : Query}
    {supply : Supply}
    (start : I [] ((Pass.start supply).reserve d q.paramNames)) (h : (q.played d supply).1 = .ok ()) :
    I (q.occurrences d) (q.played d supply).2 := by
  have played : (Piece.playAll d (q.pieces d)).run ((Pass.start supply).reserve d q.paramNames)
      = (.ok (), (q.played d supply).2) := Prod.ext h rfl
  have kept := Piece.playAll_keeps rewrite play (q.pieces d) [] _ _ start played
  rwa [List.nil_append, (Piece.Carries.query q).all (Piece.faults_of_play played)] at kept

theorem Query.ledger {d : Dialect} {q : Query} {supply : Supply} (h : (q.played d supply).1 = .ok ()) :
    ∃ index firsts, Ledger d supply (q.occurrences d) index firsts (q.played d supply).2 := by
  refine Query.played_keeps (I := fun os s => ∃ index firsts, Ledger d supply os index firsts s) ?_ ?_ ?_ h
  · rintro os s text frames ⟨index, firsts, ledger⟩
    exact ⟨index, firsts, ledger.rewrite text frames⟩
  · rintro os o s t ⟨index, firsts, ledger⟩ ht
    exact ledger.play ht
  · exact ⟨[], [], .start d supply q.paramNames⟩

/-- **Parameters and placeholders are exact.** A rendering numbers the occurrences of its statement: two of them alike
if and only if they are the same parameter, and in the order of first occurrences. Its placeholders are the numbers of
the placed occurrences in the order of the text, each of them the index of a bound parameter, and each bound parameter
has the value and the type that its first occurrence gives. -/
theorem render_parameters {d : Dialect} {q : Query} {supply : Supply} {r : Rendered}
    (h : (render d q supply).result = .ok r) :
    ∃ index firsts, Numbered d (q.occurrences d) index firsts ∧ r.slots = placedNumbers (q.occurrences d) index
      ∧ (∀ i ∈ r.slots, i < r.params.length) ∧ r.params.length = firsts.length
      ∧ ∀ (n : Nat) (b : BoundParam) (o : Occurrence), r.params[n]? = some b → firsts[n]? = some o →
        b.From supply (firsts.take n) o := by
  rw [render_eq_played] at h
  rcases hp : (q.played d supply).1 with e | _
  · rw [hp] at h
    cases h
  · rw [hp] at h
    cases h
    obtain ⟨index, firsts, hl⟩ := Query.ledger hp
    refine ⟨index, firsts, hl.numbered, hl.slots, fun i hi => ?_, hl.length, hl.params⟩
    have hs : i ∈ placedNumbers (q.occurrences d) index := hl.slots ▸ hi
    show i < (q.played d supply).2.params.length
    rw [hl.length]
    exact hl.numbered.bound i (mem_of_mem_placedNumbers hs)

/-- a call that takes a parameter, a literal and the same parameter again, and gives a result -/
def callTwice : Query :=
  .single (.exec ⟨"account.close", [.param (.deferred 0 9), .constant (.int 7), .param (.deferred 0 9)],
    some (.output 1 .int)⟩)

/-- In a block the result comes first, and the parameter that occurs twice is bound once. -/
theorem render_parameters_callTwice :
    ∃ r, (render .oracle callTwice fun _ _ => .int 5).result = .ok r ∧ r.slots = [0, 1, 2, 1]
      ∧ ∃ index firsts, Numbered .oracle (callTwice.occurrences .oracle) index firsts
        ∧ r.slots = placedNumbers (callTwice.occurrences .oracle) index ∧ (∀ i ∈ r.slots, i < r.params.length)
        ∧ r.params.length = firsts.length
        ∧ ∀ (n : Nat) (b : BoundParam) (o : Occurrence), r.params[n]? = some b → firsts[n]? = some o →
          b.From (fun _ _ => .int 5) (firsts.take n) o := by
  have slots : (render .oracle callTwice fun _ _ => .int 5).result.toOption.map (·.slots) = some [0, 1, 2, 1] := by
    decide +kernel
  rcases hr : (render .oracle callTwice fun _ _ => .int 5).result with e | r
  · rw [hr] at slots
    cases slots
  · rw [hr] at slots
    exact ⟨r, rfl, Option.some.inj slots, render_parameters hr⟩

end SqlTree
