/-
Pieces whose text reads back.

- `Wrote`: what a pass wrote between two states, with what a scan finds in it.
- `Reads`: whenever the pieces are played to the end, a scan of what they wrote finds these names in quotes, and for
  every placeholder of the pass its text. One lemma for each way of putting pieces together says what the whole reads
  as if the parts do; what stands behind a name or a placeholder has to keep apart from it.
-/
import SqlTree.Proofs.Rendering.Play
import SqlTree.Proofs.Rendering.Registering
import SqlTree.Proofs.Scanning.Scan

namespace SqlTree

/-- what stands in quotes -/
inductive Region where
  | ident (name : String)
  | literal (text : String)
  deriving DecidableEq, Repr

namespace Lexeme

/-- what stands in quotes, if the lexeme does -/
def region? : Lexeme → Option Region
  | .ident name => some (.ident name)
  | .literal text => some (.literal text)
  | .placeholder _ => none

def placeholder? : Lexeme → Option String
  | .placeholder text => some text
  | _ => none

end Lexeme

namespace Pass

/-- how the placeholder of a parameter is spelled -/
def spelled (d : Dialect) (s : Pass) (i : Nat) : String := d.placeholder i ((s.params[i]?.map BoundParam.name).getD "")

/-- every key is that of a bound parameter -/
def Sound (s : Pass) : Prop := ∀ k i, s.index? k = some i → i < s.params.length

end Pass

/-- a pass that went on from `s` to `t`: its text, and what a scan finds in that -/
structure Wrote (d : Dialect) (s t : Pass) (written : List Char) (found : List Lexeme) : Prop where
  text : t.text.toList = s.text.toList ++ written
  frames : t.frames = s.frames
  params : s.params <+: t.params
  slots : ∃ new, t.slots = s.slots ++ new ∧ (∀ i ∈ new, i < t.params.length)
    ∧ found.filterMap Lexeme.placeholder? = new.map (t.spelled d)
  scans : (∀ b ∈ t.params, d.Spells b.name) → ∀ rest, Loose d rest →
    scan d (written ++ rest) = (scan d rest).map (found ++ ·)

namespace Wrote

variable {d : Dialect} {s t u : Pass} {w w' : List Char} {found found' : List Lexeme}

theorem refl (s : Pass) : Wrote d s s [] [] where
  text := (List.append_nil _).symm
  frames := rfl
  params := List.prefix_rfl
  slots := ⟨[], (List.append_nil _).symm, by simp, rfl⟩
  scans _ rest _ := by simp

/-- The spelling of a placeholder stays what it was. -/
theorem spelled_eq (h : Wrote d s t w found) {i : Nat} (hi : i < s.params.length) :
    t.spelled d i = s.spelled d i := by
  obtain ⟨more, hmore⟩ := h.params
  rw [Pass.spelled, Pass.spelled, ← hmore, List.getElem?_append_left hi]

/-- One text behind another, if a scan of the first stops where the second begins. -/
theorem join (h : Wrote d s t w found) (h' : Wrote d t u w' found')
    (apart : (∀ b ∈ t.params, d.Spells b.name) → ∀ rest, Loose d rest →
      scan d (w ++ (w' ++ rest)) = (scan d (w' ++ rest)).map (found ++ ·)) :
    Wrote d s u (w ++ w') (found ++ found') where
  text := by rw [h'.text, h.text, List.append_assoc]
  frames := h'.frames.trans h.frames
  params := h.params.trans h'.params
  slots := by
    obtain ⟨new, hs, hb, hf⟩ := h.slots
    obtain ⟨new', hs', hb', hf'⟩ := h'.slots
    refine ⟨new ++ new', by rw [hs', hs, List.append_assoc], fun i hi => ?_, ?_⟩
    · rcases List.mem_append.1 hi with hi | hi
      · exact Nat.lt_of_lt_of_le (hb i hi) h'.params.length_le
      · exact hb' i hi
    · have kept : new.map (t.spelled d) = new.map (u.spelled d) :=
        List.map_congr_left fun i hi => (h'.spelled_eq (hb i hi)).symm
      rw [List.filterMap_append, List.map_append, hf, hf', kept]
  scans good rest hr := by
    rw [List.append_assoc, apart (fun b hb => good b (h'.params.subset hb)) rest hr, h'.scans good rest hr]
    cases scan d rest with
    | none => rfl
    | some found'' => simp only [Option.map_some, List.append_assoc]

theorem trans (h : Wrote d s t w found) (h' : Wrote d t u w' found') (ho : Opens d w') :
    Wrote d s u (w ++ w') (found ++ found') :=
  h.join h' fun good rest hr => h.scans good _ (ho rest hr)

/-- Behind a text that a scan passes over anything may stand. -/
theorem silent_trans (h : Wrote d s t w []) (hw : Silent d w) (h' : Wrote d t u w' found') :
    Wrote d s u (w ++ w') found' :=
  h.join h' fun _ rest _ => by simp [hw (w' ++ rest)]

end Wrote

/-- When pieces are played to the end, a scan of what they wrote finds these names in quotes, in this order. With
`opens` what they wrote keeps apart from what stands in front of it. -/
def Reads (d : Dialect) (opens : Bool) (xs : List Piece) (names : List Region) : Prop :=
  ∀ s t, s.Sound → (Piece.playAll d xs).run s = (.ok (), t) →
    t.Sound ∧ ∃ w found, Wrote d s t w found ∧ found.filterMap Lexeme.region? = names
      ∧ (opens = true → Opens d w)

namespace Reads

variable {d : Dialect} {o : Bool} {xs ys : List Piece} {as bs : List Region}

theorem nil : Reads d true [] [] := by
  rintro s _ hs ⟨⟩
  exact ⟨hs, [], [], .refl s, rfl, fun _ _ hr => hr⟩

theorem weaken (h : Reads d true xs as) : Reads d o xs as := by
  intro s t hs ht
  obtain ⟨ht, w, found, hw, hf, ho⟩ := h s t hs ht
  exact ⟨ht, w, found, hw, hf, fun _ => ho rfl⟩

theorem append (hx : Reads d o xs as) (hy : Reads d true ys bs) : Reads d o (xs ++ ys) (as ++ bs) := by
  intro s u hs hu
  rw [Piece.playAll_append] at hu
  obtain ⟨_, t, ht, hu⟩ := Writing.run_bind_ok hu
  obtain ⟨ht, w, found, hw, hf, ho⟩ := hx s t hs ht
  obtain ⟨hu, w', found', hw', hf', ho'⟩ := hy t u ht hu
  refine ⟨hu, w ++ w', found ++ found', hw.trans hw' (ho' rfl), ?_, fun h rest hr => ?_⟩
  · rw [List.filterMap_append, hf, hf']
  · rw [List.append_assoc]
    exact ho h _ (ho' rfl rest hr)

theorem stop (e : Error) (xs : List Piece) (as : List Region) : Reads d o (.stop e :: xs) as := by
  rintro s t - ⟨⟩

theorem ofResult {β : Type} (r : Result β) {g : β → List Piece} (h : ∀ b, r = .ok b → Reads d o (g b) as) :
    Reads d o (Piece.ofResult r g) as := by
  cases r with
  | ok b => exact h b rfl
  | error e => exact stop e [] as

theorem ident (name : String) : Reads d false [.ident name] [.ident name] := by
  rintro s _ hs ⟨⟩
  refine ⟨hs, (d.quote name).toList, [.ident name], ⟨?_, rfl, List.prefix_rfl, ?_, ?_⟩, rfl, by simp⟩
  · exact String.toList_append
  · exact ⟨[], (List.append_nil _).symm, by simp, rfl⟩
  · exact fun _ rest hr => scan_quote d name fun h => (hr _ (by simpa using h)).2.1 rfl

theorem literal (hd : d.Legible) (t : String) : Reads d false [.literal t] [.literal t] := by
  rintro s _ hs ⟨⟩
  refine ⟨hs, (Dialect.literal t).toList, [.literal t], ⟨?_, rfl, List.prefix_rfl, ?_, ?_⟩, rfl, by simp⟩
  · exact String.toList_append
  · exact ⟨[], (List.append_nil _).symm, by simp, rfl⟩
  · exact fun _ rest hr => scan_literal hd.quote t fun h => (hr _ (by simpa using h)).2.2 rfl

end Reads

/-! ## Text and placeholders -/

namespace Wrote

variable {d : Dialect}

theorem silent {t : String} (ht : Silent d t.toList) (s : Pass) :
    Wrote d s { s with text := s.text ++ t } t.toList [] where
  text := String.toList_append
  frames := rfl
  params := List.prefix_rfl
  slots := ⟨[], (List.append_nil _).symm, by simp, rfl⟩
  scans _ rest _ := by simp [ht rest]

theorem placeholder (hd : d.Legible) {s : Pass} {i : Nat} (hi : i < s.params.length) :
    Wrote d s (s.placed d i) (s.spelled d i).toList [.placeholder (s.spelled d i)] where
  text := String.toList_append
  frames := rfl
  params := List.prefix_rfl
  slots := ⟨[i], rfl, fun j hj => by rwa [List.mem_singleton.1 hj], rfl⟩
  scans good rest hr := by
    have name : s.params[i]?.map BoundParam.name = some s.params[i].name := by rw [List.getElem?_eq_getElem hi]; rfl
    rw [Pass.spelled, name]
    exact scan_placeholder hd i (good _ (List.getElem_mem hi)) hr

/-- a parameter that was registered, nothing being written -/
theorem unwritten {s t : Pass} (text : t.text = s.text) (frames : t.frames = s.frames) (slots : t.slots = s.slots)
    (params : s.params <+: t.params) : Wrote d s t [] [] where
  text := by rw [text, List.append_nil]
  frames := frames
  params := params
  slots := ⟨[], by rw [slots, List.append_nil], by simp, rfl⟩
  scans _ rest _ := by simp

end Wrote

namespace Pass.Sound

variable {d : Dialect} {s : Pass}

theorem start (supply : Supply) (d : Dialect) (names : List String) : ((Pass.start supply).reserve d names).Sound := by
  intro k i hi
  cases hi

theorem entered (hs : s.Sound) (o : Occurrence) (name : String) : (o.entered d name s).Sound := by
  intro k i hi
  obtain ⟨b, params, -⟩ := Occurrence.params_entered d name s o
  rw [params, List.length_append, List.length_singleton]
  rw [Occurrence.index?_entered] at hi
  split at hi
  · obtain rfl := Option.some.inj hi
    exact Nat.lt_succ_self _
  · exact Nat.lt_succ_of_lt (hs k i hi)

/-- An occurrence is registered without a word under the index of a bound parameter; then comes its placeholder. -/
theorem registers (hs : s.Sound) {o : Occurrence} {t : Pass} (h : o.Registers d s t) :
    ∃ i u, u.Sound ∧ i < u.params.length ∧ Wrote d s u [] [] ∧ t = o.behind d i u := by
  have new : ∀ (s' : Pass) (name : String), s'.Sound → s'.text = s.text → s'.frames = s.frames → s'.slots = s.slots →
      s'.params = s.params → (o.entered d name s').Sound ∧ s.params.length < (o.entered d name s').params.length
        ∧ Wrote d s (o.entered d name s') [] [] := by
    intro s' name sound text frames slots params
    obtain ⟨b, more, -⟩ := Occurrence.params_entered d name s' o
    rw [params] at more
    refine ⟨sound.entered o name, by simp [more], .unwritten ?_ ?_ ?_ ⟨_, more.symm⟩⟩
    · rw [Occurrence.text_entered, text]
    · rw [Occurrence.frames_entered, frames]
    · rw [Occurrence.slots_entered, slots]
  cases h with
  | @again k i key known => exact ⟨i, s, hs, hs k i known, .refl s, rfl⟩
  | generated unknown unnamed =>
    obtain ⟨sound, bound, wrote⟩ := new { s with generated := s.nextNumber } (generatedName s.nextNumber) hs rfl
      rfl rfl rfl
    exact ⟨_, _, sound, bound, wrote, rfl⟩
  | @named name unknown named free =>
    obtain ⟨sound, bound, wrote⟩ := new s (d.canonicalName name) hs rfl rfl rfl rfl
    exact ⟨_, _, sound, bound, wrote, rfl⟩

end Pass.Sound

namespace Reads

variable {d : Dialect} {o : Bool} {xs ys : List Piece} {as bs : List Region}

theorem unplaced (p : Parameter) (direction : Direction) : Reads d true [.value (.param p direction false)] [] := by
  intro s t hs ht
  obtain ⟨_, u, hu, ht⟩ := Writing.run_bind_ok ht
  obtain rfl : u = t := congrArg Prod.snd ht
  have registers : (Occurrence.param p direction false).Registers d s u := Occurrence.play_registers hu
  obtain ⟨i, v, hv, -, hw, rfl⟩ := hs.registers registers
  exact ⟨hv, [], [], hw, rfl, fun _ _ hr => hr⟩

/-- An occurrence of a parameter reads as its placeholder, and stands in no quotes. -/
theorem value (hd : d.Legible) (o : Occurrence) : Reads d false [.value o] [] := by
  intro s t hs ht
  obtain ⟨_, u, hu, ht⟩ := Writing.run_bind_ok ht
  obtain rfl : u = t := congrArg Prod.snd ht
  have registers : o.Registers d s u := Occurrence.play_registers hu
  obtain ⟨i, v, hv, hi, hw, rfl⟩ := hs.registers registers
  rw [Occurrence.behind]
  split
  · exact ⟨hv, _, _, hw.silent_trans (silent_nil d) (.placeholder hd hi), rfl, by simp⟩
  · exact ⟨hv, [], [], hw, rfl, by simp⟩

/-- Text that a scan passes over may stand in front of anything. -/
theorem text {t : String} (ht : Silent d t.toList) (h : Reads d o xs as) : Reads d false (.text t :: xs) as := by
  intro s u hs hu
  obtain ⟨hu, w, found, hw, hf, -⟩ := h { s with text := s.text ++ t } u hs hu
  exact ⟨hu, _, found, (Wrote.silent ht s).silent_trans ht hw, hf, by simp⟩

/-- Text that keeps apart from what stands in front of it. -/
theorem gap {t : String} (ht : Silent d t.toList) (hg : ∀ rest, Loose d (t.toList ++ rest)) (h : Reads d o xs as) :
    Reads d true (.text t :: xs) as := by
  intro s u hs hu
  obtain ⟨hu, w, found, hw, hf, -⟩ := h { s with text := s.text ++ t } u hs hu
  refine ⟨hu, _, found, (Wrote.silent ht s).silent_trans ht hw, hf, fun _ rest _ => ?_⟩
  rw [List.append_assoc]
  exact hg _

/-- Text behind pieces keeps apart from them, if there is any. -/
theorem closed {t : String} (ht : Silent d t.toList) (ho : Opens d t.toList) (h : Reads d o xs as) :
    Reads d o (xs ++ [.text t]) as := by
  have last : Reads d true [.text t] [] := by
    rintro s _ hs ⟨⟩
    exact ⟨hs, _, [], .silent ht s, rfl, fun _ => ho⟩
  simpa only [List.append_nil] using h.append last

/-- A hook that writes text that a scan passes over, at the end of the pieces. -/
theorem written {t : String} (ht : Silent d t.toList) (ho : Opens d t.toList) (h : Reads d o xs as) :
    Reads d o (xs ++ [.act (.write t)]) as := by
  have last : Reads d true [.act (.write t)] [] := by
    rintro s _ hs ⟨⟩
    exact ⟨hs, _, [], .silent ht s, rfl, fun _ => ho⟩
  simpa only [List.append_nil] using h.append last

/-- A select without hooks around it reads as what is in its frame. -/
theorem frame (h : Reads d o xs as) : Reads d o [.frame [] xs []] as := by
  intro s u hs hu
  obtain ⟨_, t, ht, hu⟩ := Writing.run_bind_ok hu
  obtain rfl : t = u := congrArg Prod.snd hu
  rw [Piece.play_frame] at ht
  obtain ⟨v, hv, -, rfl⟩ := Writing.run_inFrame_ok ht
  have body : (Piece.playAll d xs).run { s with frames := none :: s.frames } = (.ok (), v) := by
    simpa [Writing.actAll] using hv
  obtain ⟨hv, w, found, hw, hf, ho⟩ := h { s with frames := none :: s.frames } v hs body
  have frames : v.frames.tail = s.frames := by rw [hw.frames]; rfl
  exact ⟨hv, w, found, ⟨hw.text, frames, hw.params, hw.slots, hw.scans⟩, hf, ho⟩

/-- A select that is set aside and put back inside other text reads as what is in its frame. -/
theorem staged {wrap : String → String} {before behind : String} (hwrap : ∀ t, wrap t = before ++ t ++ behind)
    (hb : Silent d before.toList) (ha : Silent d behind.toList) (ho : Opens d behind.toList) (h : Reads d o xs as) :
    Reads d false [.frame [.beginStaging] xs [.endStaging wrap]] as := by
  intro s u hs hu
  obtain ⟨_, t, ht, hu⟩ := Writing.run_bind_ok hu
  obtain rfl : t = u := congrArg Prod.snd hu
  rw [Piece.play_frame] at ht
  obtain ⟨v, hv, -, rfl⟩ := Writing.run_inFrame_ok ht
  rw [Writing.run_bind, Writing.run_setAside d rfl] at hv
  obtain ⟨_, y, hy, hv⟩ := Writing.run_bind_ok hv
  obtain ⟨hy, w, found, hw, hf, -⟩ := h { s with text := "", frames := some s.text :: s.frames } y hs hy
  have staged : y.frames = some s.text :: s.frames := hw.frames
  have own : y.text.toList = w := by rw [hw.text]; rfl
  rw [Writing.run_putBack d wrap staged] at hv
  obtain rfl := congrArg Prod.snd hv
  refine ⟨hy, before.toList ++ w ++ behind.toList, found, ⟨?_, rfl, hw.params, hw.slots, fun good rest hr => ?_⟩, hf,
    by simp⟩
  · show (s.text ++ wrap y.text).toList = _
    rw [hwrap]
    simp only [String.toList_append, own]
  · simp only [List.append_assoc]
    rw [hb, hw.scans good _ (ho rest hr), ha]

end Reads

end SqlTree
