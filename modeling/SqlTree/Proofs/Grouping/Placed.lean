/-
Marks that a pass writes.

`Placed` is an occurrence of a parameter with the index that it stands for in a pass.

- `Occurrence.play_placed`: an occurrence that has a placeholder writes that of the index it stands for.
- `Mark.play`: so playing marks writes their text, with the placeholders of what they stand for.
- `Piece.playAll_spells`: if the explicit names that occur can be spelled, every bound name can.
-/
import SqlTree.Proofs.Grouping.Mark
import SqlTree.Proofs.Rendering.Naming
import SqlTree.Proofs.Scanning.Legible
import SqlTree.Proofs.Scanning.Query

namespace SqlTree

/-- an occurrence stands for the parameter at an index: a literal for one with its value, a parameter for the one that
is known by its key -/
def Occurrence.StandsFor (d : Dialect) (t : Pass) (i : Nat) : Occurrence → Prop
  | .constant v => t.params[i]?.map BoundParam.value = some v
  | .param p _ _ => t.index? (p.key d) = some i

/-- an occurrence with the index of the parameter that it stands for -/
structure Placed (d : Dialect) (t : Pass) where
  occurrence : Occurrence
  index : Nat
  bound : index < t.params.length
  stands : occurrence.StandsFor d t index

def Placed.text {d : Dialect} {t : Pass} (a : Placed d t) : String := t.spelled d a.index

/-- a pass that binds what another one binds, and knows it by the same keys -/
structure Pass.Grows (s t : Pass) : Prop where
  params : s.params <+: t.params
  index : ∀ k i, s.index? k = some i → t.index? k = some i

namespace Pass.Grows

variable {s t u : Pass} {d : Dialect}

theorem refl (s : Pass) : s.Grows s := ⟨List.prefix_rfl, fun _ _ h => h⟩

theorem trans (h : s.Grows t) (h' : t.Grows u) : s.Grows u :=
  ⟨h.params.trans h'.params, fun k i hk => h'.index k i (h.index k i hk)⟩

theorem getElem?_eq (h : s.Grows t) {i : Nat} (hi : i < s.params.length) : t.params[i]? = s.params[i]? := by
  obtain ⟨more, hmore⟩ := h.params
  rw [← hmore, List.getElem?_append_left hi]

/-- What stands for a parameter goes on standing for it. -/
def place (h : s.Grows t) (a : Placed d s) : Placed d t where
  occurrence := a.occurrence
  index := a.index
  bound := Nat.lt_of_lt_of_le a.bound h.params.length_le
  stands := by
    have stands := a.stands
    cases ho : a.occurrence with
    | constant v =>
      rw [ho] at stands
      rw [Occurrence.StandsFor, h.getElem?_eq a.bound]
      exact stands
    | param p direction placed =>
      rw [ho] at stands
      exact h.index _ _ stands

theorem text_place (h : s.Grows t) (a : Placed d s) : (h.place a).text = a.text := by
  show d.placeholder a.index ((t.params[a.index]?.map BoundParam.name).getD "") = _
  rw [h.getElem?_eq a.bound]
  rfl

end Pass.Grows

/-! ## Playing -/

/-- A registration that is new binds what the occurrence stands for, behind what is bound before. -/
theorem Occurrence.entered_grows {d : Dialect} {o : Occurrence} {s s' : Pass} (sound : s.Sound) (name : String)
    (new : ∀ k, o.key? d = some k → s.index? k = none) (params : s'.params = s.params) (keys : s'.keys = s.keys) :
    (o.entered d name s').Sound ∧ s.Grows (o.entered d name s') ∧ s.params.length < (o.entered d name s').params.length
      ∧ o.StandsFor d (o.entered d name s') s.params.length := by
  obtain ⟨b, bound, -⟩ := Occurrence.params_entered d name s' o
  rw [params] at bound
  have same : ∀ k, s'.index? k = s.index? k := fun k => by rw [Pass.index?, keys]; rfl
  have index : ∀ k, (o.entered d name s').index? k
      = if o.key? d = some k then some s.params.length else s.index? k := fun k => by
    rw [Occurrence.index?_entered, same, params]
  have more : s.params.length < (o.entered d name s').params.length := by
    rw [bound, List.length_append]
    exact Nat.lt_succ_self _
  have before : s'.Sound := fun k i hk => by
    rw [params]
    exact sound k i ((same k).symm.trans hk)
  refine ⟨before.entered o name, ⟨⟨_, bound.symm⟩, fun k i hk => ?_⟩, more, ?_⟩
  · rw [index, if_neg fun known => by cases hk.symm.trans (new k known)]
    exact hk
  · cases o with
    | constant v =>
      show (((s'.params ++ [_])[s.params.length]?).map BoundParam.value) = some v
      rw [params, List.getElem?_concat_length]
      rfl
    | param p direction placed => exact (index _).trans (if_pos rfl)

/-- **The step of placing.** -/
theorem Occurrence.play_placed {d : Dialect} {o : Occurrence} (ho : o.isPlaced) {s t : Pass} (sound : s.Sound)
    (h : (o.play d).run s = (.ok (), t)) :
    t.Sound ∧ s.Grows t ∧ ∃ a : Placed d t, a.occurrence = o ∧ t.text = s.text ++ a.text := by
  have behind : ∀ (u : Pass) (i : Nat), u.text = s.text → u.Sound ∧ s.Grows u ∧ i < u.params.length
      ∧ o.StandsFor d u i →
      (o.behind d i u).Sound ∧ s.Grows (o.behind d i u)
        ∧ ∃ a : Placed d (o.behind d i u), a.occurrence = o ∧ (o.behind d i u).text = s.text ++ a.text := by
    rintro u i text ⟨soundU, grows, bound, stands⟩
    rw [Occurrence.behind, if_pos ho, ← text]
    exact ⟨soundU, ⟨grows.params, grows.index⟩, ⟨o, i, bound, by cases o <;> exact stands⟩, rfl, rfl⟩
  cases Occurrence.play_registers h with
  | @again k i key known =>
    have stands : o.StandsFor d s i := by
      cases o with
      | constant v => cases key
      | param p direction placed =>
        obtain rfl : p.key d = k := Option.some.inj key
        exact known
    exact behind s i rfl ⟨sound, .refl s, sound k i known, stands⟩
  | generated new => exact behind _ _ (Occurrence.text_entered ..) (Occurrence.entered_grows sound _ new rfl rfl)
  | named new => exact behind _ _ (Occurrence.text_entered ..) (Occurrence.entered_grows sound _ new rfl rfl)

namespace Mark

variable {d : Dialect}

def piece : Mark Occurrence → Piece
  | .text t => .text t
  | .ident name => .ident name
  | .placeholder o => .value o

/-- whether a mark that is a placeholder belongs to an occurrence that has one -/
def isPlaced : Mark Occurrence → Bool
  | .placeholder o => o.isPlaced
  | _ => true

theorem chars_place {s t : Pass} (h : s.Grows t) (m : Mark (Placed d s)) :
    chars d Placed.text (m.map h.place) = chars d Placed.text m := by
  cases m with
  | text | ident => rfl
  | placeholder a => exact congrArg String.toList (h.text_place a)

/-- a pass that wrote marks -/
def Wrote (d : Dialect) (s t : Pass) (ms : List (Mark Occurrence)) : Prop :=
  ∃ placed : List (Mark (Placed d t)), placed.map (map Placed.occurrence) = ms
    ∧ t.text.toList = s.text.toList ++ placed.flatMap (chars d Placed.text)

theorem Wrote.cons {s t u : Pass} {m : Mark Occurrence} {ms : List (Mark Occurrence)} (grows : t.Grows u)
    (hm : Wrote d s t [m]) (hms : Wrote d t u ms) : Wrote d s u (m :: ms) := by
  obtain ⟨placed, names, text⟩ := hm
  obtain ⟨placed', names', text'⟩ := hms
  refine ⟨placed.map (map grows.place) ++ placed', ?_, ?_⟩
  · have kept : (map Placed.occurrence ∘ map grows.place : Mark (Placed d t) → _) = map Placed.occurrence := by
      funext m
      cases m <;> rfl
    rw [List.map_append, List.map_map, kept, names, names']
    rfl
  · have kept : (placed.map (map grows.place)).flatMap (chars d Placed.text)
        = placed.flatMap (chars d Placed.text) := by
      rw [List.flatMap_map]
      exact List.flatMap_congr fun m _ => chars_place grows m
    rw [text', text, List.flatMap_append, kept, List.append_assoc]

/-- **Playing marks writes their text**, by induction on the marks. -/
theorem play {ms : List (Mark Occurrence)} (placed : ∀ m ∈ ms, m.isPlaced) {s t : Pass} (sound : s.Sound)
    (h : (Piece.playAll d (ms.map piece)).run s = (.ok (), t)) : s.Grows t ∧ Wrote d s t ms := by
  induction ms generalizing s with
  | nil =>
    cases h
    exact ⟨.refl _, [], rfl, (List.append_nil _).symm⟩
  | cons m ms ih =>
    rw [List.forall_mem_cons] at placed
    obtain ⟨_, u, hu, ht⟩ := Writing.run_bind_ok h
    have first : u.Sound ∧ s.Grows u ∧ Wrote d s u [m] := by
      cases m with
      | text t =>
        cases hu
        exact ⟨sound, ⟨List.prefix_rfl, fun _ _ h => h⟩, [.text t], rfl, by simp [chars]⟩
      | ident name =>
        cases hu
        exact ⟨sound, ⟨List.prefix_rfl, fun _ _ h => h⟩, [.ident name], rfl, by simp [chars]⟩
      | placeholder o =>
        obtain ⟨soundU, grows, a, occurrence, text⟩ := Occurrence.play_placed placed.1 sound hu
        exact ⟨soundU, grows, [.placeholder a], by rw [List.map_singleton, map, occurrence], by simp [chars, text]⟩
    obtain ⟨soundU, grows, wrote⟩ := first
    obtain ⟨grows', wrote'⟩ := ih placed.2 soundU ht
    exact ⟨grows.trans grows', wrote.cons grows' wrote'⟩

end Mark

/-! ## Names that can be spelled -/

/-- A generated name can be spelled, so a parameter is bound under one that can if its explicit name can. -/
theorem Occurrence.play_spells {d : Dialect} (hd : d.Legible) {o : Occurrence} {s t : Pass}
    (h : (o.play d).run s = (.ok (), t)) (spelled : ∀ b ∈ s.params, d.Spells b.name)
    (explicit : ∀ n, o.explicitName = some n → d.Spells (d.boundName (d.canonicalName n))) :
    ∀ b ∈ t.params, d.Spells b.name := by
  have generated : ∀ n, d.Spells (d.boundName (generatedName n)) := fun n =>
    (Dialect.spells_boundName hd (isWord_generatedName n)).1
  have entered : ∀ (s' : Pass) (name : String), s'.params = s.params → d.Spells (d.boundName name) →
      ∀ b ∈ (o.entered d name s').params, d.Spells b.name := by
    intro s' name same spells b hb
    obtain ⟨b', bound, named⟩ := Occurrence.params_entered d name s' o
    rw [bound, same, List.mem_append, List.mem_singleton] at hb
    rcases hb with hb | rfl
    · exact spelled b hb
    · exact named ▸ spells
  cases Occurrence.play_registers h with
  | again => rwa [Occurrence.params_behind]
  | generated =>
    rw [Occurrence.params_behind]
    exact entered _ _ rfl (generated _)
  | named _ known _ =>
    rw [Occurrence.params_behind]
    exact entered _ _ rfl (explicit _ known)

theorem Piece.playAll_spells {d : Dialect} (hd : d.Legible) {xs : List Piece} {s t : Pass}
    (h : (playAll d xs).run s = (.ok (), t)) (spelled : ∀ b ∈ s.params, d.Spells b.name)
    (explicit : ∀ n ∈ explicitNames (collectAll occurrence xs), d.Spells (d.boundName (d.canonicalName n))) :
    ∀ b ∈ t.params, d.Spells b.name := by
  refine playAll_keeps
    (I := fun os s => (∀ n ∈ explicitNames os, d.Spells (d.boundName (d.canonicalName n))) →
      ∀ b ∈ s.params, d.Spells b.name)
    (fun _ _ _ _ h => h) (fun os o s t h ht names => ?_) xs [] s t (fun _ => spelled) h explicit
  rw [explicitNames_append, List.forall_mem_append] at names
  exact Occurrence.play_spells hd ht (h names.1) fun n hn =>
    names.2 n (List.mem_filterMap.2 ⟨o, List.mem_singleton_self o, hn⟩)

end SqlTree
