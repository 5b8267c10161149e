/-
Dialects whose placeholders all look alike.

Where no hook sets text aside, what is written is fixed text with places for placeholders. Where every placeholder is a
question mark, it does not depend on what was registered before, and the values are bound in the order of the text.

- `Piece.playAll_filled`: plain pieces add their text with the placeholders of the parameters filled in.
- `render_written`: a query is written unless its pieces hold a fault, and its text is that of its pieces.
- `render_bindValues_eq`: the values are those of the placed occurrences, or of the first ones of the same parameters.
-/
import SqlTree.Proofs.Rendering.Demand
import SqlTree.Proofs.Rendering.First
import SqlTree.Proofs.Rendering.Parameters
import SqlTree.Proofs.Rendering.Splice

namespace SqlTree

/-! ## Plain pieces -/

/-- a dialect that puts a question mark for every parameter, and whose hooks write text and do nothing else -/
structure Dialect.Positional (d : Dialect) : Prop where
  params : d.params = .positional
  heading : ∀ s, ∀ a ∈ d.hooks.heading s, ∃ t, a = .write t
  trailing : ∀ s, ∀ a ∈ d.hooks.trailing s, ∃ t, a = .write t
  opening : ∀ s, d.hooks.opening s = []
  closing : ∀ s, d.hooks.closing s = []

structure SelectHooks.Plain (hooks : SelectHooks) : Prop where
  heading : ∀ s, ∀ a ∈ hooks.heading s, ∃ t, a = .write t
  trailing : ∀ s, ∀ a ∈ hooks.trailing s, ∃ t, a = .write t
  opening : ∀ s, hooks.opening s = []
  closing : ∀ s, hooks.closing s = []

theorem SelectHooks.limitClause_plain : limitClause.Plain where
  heading := by simp [limitClause, SelectHooks.none]
  trailing s a ha := by
    simp only [limitClause] at ha
    split at ha
    · exact ⟨_, List.mem_singleton.1 ha⟩
    · exact ⟨_, List.mem_singleton.1 ha⟩
    · cases ha
  opening := by simp [limitClause, SelectHooks.none]
  closing := by simp [limitClause, SelectHooks.none]

theorem Dialect.Positional.of_limitClause {d : Dialect} (params : d.params = .positional)
    (hooks : d.hooks = .limitClause) : d.Positional := by
  have plain : d.hooks.Plain := hooks ▸ SelectHooks.limitClause_plain
  exact ⟨params, plain.heading, plain.trailing, plain.opening, plain.closing⟩

theorem Dialect.Positional.plain {d : Dialect} (hd : d.Positional) : d.hooks.Plain :=
  ⟨hd.heading, hd.trailing, hd.opening, hd.closing⟩

namespace Piece

mutual

/-- a piece whose hooks write text and do nothing else -/
def Plain : Piece → Prop
  | .act a => ∃ t, a = .write t
  | .frame opening body closing => (opening = [] ∧ closing = []) ∧ PlainAll body
  | _ => True

def PlainAll : List Piece → Prop
  | [] => True
  | x :: xs => x.Plain ∧ PlainAll xs

end

theorem plainAll_append {xs ys : List Piece} : PlainAll (xs ++ ys) ↔ PlainAll xs ∧ PlainAll ys := by
  induction xs with
  | nil => simp [PlainAll]
  | cons x xs ih => simp only [List.cons_append, PlainAll, ih, and_assoc]

/-- Hooks that do nothing but write need not belong together. -/
theorem PlainAll.orderly {xs : List Piece} (plain : PlainAll xs) : OrderlyAll xs := by
  induction xs using Piece.listInduction with
  | nil => trivial
  | text _ xs ih | ident _ xs ih | literal _ xs ih | value _ xs ih | stop _ xs ih => exact ⟨trivial, ih plain.2⟩
  | act a xs ih => exact ⟨plain.1, ih plain.2⟩
  | frame opening body closing xs ihBody ih => exact ⟨⟨.inl plain.1.1, ihBody plain.1.2⟩, ih plain.2⟩

/-- plain pieces, whatever they are asked for -/
structure PlainFor (xs : List Piece) (_ds : List Demand) : Prop where
  all : PlainAll xs

theorem PlainFor.refuses (d : Dialect) : Refuses d PlainFor where
  nil := ⟨trivial⟩
  text _ := ⟨trivial, trivial⟩
  ident _ := ⟨trivial, trivial⟩
  literal _ := ⟨trivial, trivial⟩
  append hx hy := ⟨plainAll_append.2 ⟨hx.all, hy.all⟩⟩
  value _ := ⟨trivial, trivial⟩
  stop _ := ⟨trivial, trivial⟩
  given _ h := ⟨h.all⟩

end Piece

open Piece (PlainAll PlainFor Refuses IgnoresHooks)

namespace SelectHooks.Plain

variable {d : Dialect} (hd : d.hooks.Plain)

include hd

theorem ignoresHooks : IgnoresHooks d PlainFor := by
  have acts : ∀ actions : List HookAction, (∀ a ∈ actions, ∃ t, a = .write t) → PlainAll (actions.map .act) := by
    intro actions h
    induction actions with
    | nil => trivial
    | cons a actions ih => exact ⟨h a List.mem_cons_self, ih fun a' ha' => h a' (List.mem_cons_of_mem a ha')⟩
  exact ⟨fun s => ⟨acts _ (hd.heading s)⟩, fun s => ⟨acts _ (hd.trailing s)⟩,
    fun s xs _ h => ⟨⟨⟨hd.opening s, hd.closing s⟩, h.all⟩, trivial⟩⟩

/-- The pieces of a statement are plain, also where it is an insert into something that is no column. -/
theorem statement (inside : Bool) (s : Statement) : PlainFor (s.pieces d inside) s.demands := by
  have hC := PlainFor.refuses d
  cases s with
  | insert i =>
    obtain ⟨clause, select⟩ := hC.tree hd.ignoresHooks
    have columns : PlainFor (Piece.separated ", " (i.columns.map (Piece.columnName d))) _ :=
      hC.separated ", " fun c _ => hC.columnName c
    have values : PlainFor (Piece.list d ", " i.values) _ := hC.list ", " fun c _ => clause c
    obtain ⟨table, names, items, source⟩ := i
    cases source with
    | none => exact ⟨(hC.insert columns values).all⟩
    | some query => exact ⟨(hC.insert columns (select query)).all⟩
  | _ => exact hC.statement hd.ignoresHooks inside nofun

theorem query (q : Query) : PlainAll (q.pieces d) := by
  have hC := PlainFor.refuses d
  cases q with
  | single s => exact (hd.statement false s).all
  | script members =>
    have joined : ∀ xs, xs = Piece.sequence d members ∨ xs = Piece.block d members →
        PlainFor xs (members.flatMap Statement.demands) := by
      rintro _ (rfl | rfl)
      · exact hC.sequence fun s _ => hd.statement true s
      · exact hC.block (fun s _ => hd.statement true s) fun _ _ => hC.definition
    refine (hC.needing .scripts "script" (joined _ ?_)).all
    cases d.scripts with
    | sequence => exact .inl rfl
    | block => exact .inr rfl

end SelectHooks.Plain

/-! ## What plain pieces write -/

namespace Piece

/-- what a plain piece adds to the text: fixed text, or a place for a placeholder -/
def shape (d : Dialect) : Piece → List (Option String)
  | .text t | .act (.write t) => [some t]
  | .ident name => [some (d.quote name)]
  | .literal t => [some (Dialect.literal t)]
  | .value o => if o.isPlaced then [none] else []
  | .act _ | .stop _ | .frame .. => []

/-- text with its places filled in order -/
def fill : List (Option String) → List String → String
  | [], _ => ""
  | some t :: shape, marks => t ++ fill shape marks
  | none :: shape, marks => marks.headD "" ++ fill shape marks.tail

theorem fill_append {shape shape' : List (Option String)} {marks marks' : List String}
    (places : shape.count none = marks.length) :
    fill (shape ++ shape') (marks ++ marks') = fill shape marks ++ fill shape' marks' := by
  induction shape generalizing marks with
  | nil =>
    obtain rfl := List.length_eq_zero_iff.1 places.symm
    exact (String.empty_append ..).symm
  | cons part shape ih =>
    cases part with
    | some t =>
      rw [List.count_cons_of_ne (by simp)] at places
      rw [List.cons_append, fill, ih places, fill, String.append_assoc]
    | none =>
      cases marks with
      | nil => simp at places
      | cons mark marks =>
        rw [List.count_cons_self, List.length_cons, Nat.add_right_cancel_iff] at places
        rw [List.cons_append, List.cons_append, fill, fill, List.headD_cons, List.tail_cons, ih places, List.headD_cons,
          List.tail_cons, String.append_assoc]

/-- Places that are all filled alike are as good as text. -/
theorem fill_const {mark : String} {shape : List (Option String)} {slots : List Nat}
    (places : shape.count none = slots.length) :
    fill shape (slots.map fun _ => mark) = String.join (shape.map (·.getD mark)) := by
  induction shape generalizing slots with
  | nil => rfl
  | cons part shape ih =>
    cases part with
    | some t =>
      rw [List.count_cons_of_ne (by simp)] at places
      rw [fill, ih places]
      simp
    | none =>
      cases slots with
      | nil => simp at places
      | cons slot slots =>
        rw [List.count_cons_self, List.length_cons, Nat.add_right_cancel_iff] at places
        rw [List.map_cons, fill, List.headD_cons, List.tail_cons, ih places]
        simp

/-- the text that a plain piece adds -/
def texts (d : Dialect) : Piece → List String
  | .text t | .act (.write t) => [t]
  | .ident name => [d.quote name]
  | .literal t => [Dialect.literal t]
  | .value o => if o.isPlaced then ["?"] else []
  | .act _ | .stop _ | .frame .. => []

def written (d : Dialect) (xs : List Piece) : String := String.join (collectAll (texts d) xs)

/-- The text of plain pieces is their shape with question marks in its places. -/
theorem texts_eq (d : Dialect) (xs : List Piece) :
    collectAll (texts d) xs = (collectAll (shape d) xs).map (·.getD "?") := by
  induction xs using Piece.listInduction with
  | nil => rfl
  | frame opening body closing xs ihBody ih => simp only [collectAll, collect, List.map_append, ihBody, ih]
  | value o xs ih => cases ho : o.isPlaced <;> simp [collectAll, collect, texts, shape, ho, ih]
  | act a xs ih => cases a <;> simp [collectAll, collect, texts, shape, ih]
  | _ => simp [collectAll, collect, texts, shape, *]

theorem written_append (d : Dialect) (xs ys : List Piece) : written d (xs ++ ys) = written d xs ++ written d ys := by
  rw [written, collectAll_append, String.join_append, ← written, ← written]

theorem written_cons (d : Dialect) (x : Piece) (xs : List Piece) :
    written d (x :: xs) = String.join (x.collect (texts d)) ++ written d xs := by
  rw [written, collectAll, String.join_append, ← written]

theorem written_text (d : Dialect) (t : String) : written d [.text t] = t := by
  simp [written, collectAll, collect, texts]

end Piece

namespace Piece

/-- what is behind a pass is behind another one and text whose places are filled with the marks of new slots -/
structure Filled (mark : Nat → String) (shape : List (Option String)) (new : List Nat) (s t : Pass) : Prop where
  slots : t.slots = s.slots ++ new
  text : t.text = s.text ++ fill shape (new.map mark)
  places : shape.count none = new.length

namespace Filled

variable {mark : Nat → String} {shape shape' : List (Option String)} {new new' : List Nat} {s t u : Pass}

theorem refl (s : Pass) : Filled mark [] [] s s := ⟨(List.append_nil _).symm, String.append_empty.symm, rfl⟩

theorem seq (first : Filled mark shape new s t) (rest : Filled mark shape' new' t u) :
    Filled mark (shape ++ shape') (new ++ new') s u where
  slots := by rw [rest.slots, first.slots, List.append_assoc]
  text := by
    rw [rest.text, first.text, List.map_append, fill_append (by rw [first.places, List.length_map]),
      String.append_assoc]
  places := by rw [List.count_append, first.places, rest.places, List.length_append]

theorem text_behind (t : String) : Filled mark [some t] [] s { s with text := s.text ++ t } :=
  ⟨(List.append_nil _).symm, by simp [fill], by simp⟩

/-- An occurrence that is played to the end fills in its mark, if it has a place. -/
theorem occurrence {d : Dialect} (marks : ∀ i name, d.placeholder i name = mark i) {o : Occurrence}
    (h : (o.play d).run s = (.ok (), t)) : ∃ new, Filled mark (Piece.shape d (.value o)) new s t := by
  obtain ⟨i, name, text, slots⟩ := (Occurrence.play_registers h).written
  rw [marks] at text
  refine ⟨_, slots, ?_, ?_⟩
  · rw [text]
    cases ho : o.isPlaced <;> simp [Piece.shape, fill, ho]
  · cases ho : o.isPlaced <;> simp [Piece.shape, ho]

end Filled

/-- **Plain pieces that are played to the end add their text with its places filled in**, by induction on the pieces:
the shape is the same from every pass. -/
theorem playAll_filled {d : Dialect} {mark : Nat → String} (marks : ∀ i name, d.placeholder i name = mark i)
    {xs : List Piece} (plain : PlainAll xs) {s t : Pass} (h : (playAll d xs).run s = (.ok (), t)) :
    ∃ new, Filled mark (collectAll (shape d) xs) new s t := by
  induction xs using Piece.listInduction generalizing s t with
  | nil =>
    cases h
    exact ⟨[], .refl s⟩
  | stop e xs _ => cases h
  | text t' xs ih | ident t' xs ih | literal t' xs ih =>
    obtain ⟨new, rest⟩ := ih plain.2 h
    exact ⟨new, (Filled.text_behind _).seq rest⟩
  | act a xs ih =>
    obtain ⟨⟨t', rfl⟩, plain⟩ := plain
    obtain ⟨new, rest⟩ := ih plain h
    exact ⟨new, (Filled.text_behind t').seq rest⟩
  | value o xs ih =>
    obtain ⟨_, u, hu, ht⟩ := Writing.run_bind_ok h
    obtain ⟨new, first⟩ := Filled.occurrence marks hu
    obtain ⟨new', rest⟩ := ih plain.2 ht
    exact ⟨_, first.seq rest⟩
  | frame opening body closing xs ihBody ih =>
    obtain ⟨⟨⟨rfl, rfl⟩, plainBody⟩, plain⟩ := plain
    obtain ⟨_, u, hu, ht⟩ := Writing.run_bind_ok h
    rw [play_frame] at hu
    obtain ⟨v, hv, -, rfl⟩ := Writing.run_inFrame_ok hu
    obtain ⟨_, w, ⟨⟩, hv⟩ := Writing.run_bind_ok hv
    obtain ⟨_, y, hy, hend⟩ := Writing.run_bind_ok hv
    cases hend
    obtain ⟨new, inside⟩ := ihBody plainBody hy
    obtain ⟨new', rest⟩ := ih plain ht
    -- the frames are no part of what is written
    have framed : Filled mark _ new s { v with frames := v.frames.tail } := ⟨inside.slots, inside.text, inside.places⟩
    exact ⟨_, framed.seq rest⟩

end Piece

/-- **Plain pieces that are played to the end add their text**: where placeholders are question marks, it is the same
from every pass. -/
theorem Piece.playAll_written {d : Dialect} (params : d.params = .positional) {xs : List Piece} (plain : PlainAll xs)
    {s t : Pass} (h : (playAll d xs).run s = (.ok (), t)) : t.text = s.text ++ written d xs := by
  have marks : ∀ i name, d.placeholder i name = "?" := fun i name => by rw [Dialect.placeholder, params]
  obtain ⟨slots, filled⟩ := playAll_filled marks plain h
  rw [filled.text, fill_const filled.places, written, texts_eq]

/-- **What is written is written at once.** A query is written unless its pieces hold a fault, and then its text is
that of its pieces. -/
theorem render_written {d : Dialect} (hd : d.Positional) (q : Query) (supply : Supply) :
    ((∃ r, (render d q supply).result = .ok r) ↔ Piece.faults (q.pieces d) = [])
      ∧ ∀ r, (render d q supply).result = .ok r → r.sql = Piece.written d (q.pieces d) := by
  have plain := hd.plain.query q
  have ends := Query.played_ends plain.orderly supply
  rcases hf : Piece.faults (q.pieces d) with _ | ⟨e, es⟩
  · rw [hf] at ends
    obtain ⟨t, ht, -⟩ := ends
    have played : q.played d supply = (.ok (), t) := ht
    rw [render_eq_played, played]
    refine ⟨⟨fun _ => rfl, fun _ => ⟨_, rfl⟩⟩, ?_⟩
    rintro r ⟨⟩
    exact (Piece.playAll_written hd.params plain ht).trans (String.empty_append ..)
  · rw [hf] at ends
    have failed : (q.played d supply).1 = .error e := ends
    rw [render_eq_played, failed]
    constructor
    · constructor
      · rintro ⟨r, ⟨⟩⟩
      · rintro ⟨⟩
    · rintro r ⟨⟩

/-! ## What is bound -/

/-- No occurrence in a query without deferred parameters asks a feed for its value. -/
theorem Query.occurrence_fixed {d : Dialect} {q : Query} (fixed : ∀ p ∈ q.parameters, p.isDeferred = false) :
    ∀ o ∈ q.occurrences d, o.isDeferred = false := by
  intro o ho
  cases o with
  | constant v => rfl
  | param p direction placed => exact fixed p (Query.parameter_mem ho rfl)

theorem Occurrence.value_eq {o : Occurrence} (h : o.isDeferred = false) (supply supply' : Supply)
    (before before' : List Occurrence) : o.value supply before = o.value supply' before' := by
  cases o with
  | constant v => rfl
  | param p direction placed =>
    obtain ⟨id, name, type, direction', source⟩ := p
    cases source with
    | fixed v => rfl
    | deferred feed => cases h

/-- **Values are bound in the order of the text**: for each placed occurrence, that of the first occurrence of the same
parameter. -/
theorem render_bindValues_eq {d : Dialect} {q : Query} {supply : Supply} {r : Rendered}
    (h : (render d q supply).result = .ok r) (fixed : ∀ o ∈ q.occurrences d, o.isDeferred = false) :
    r.bindValues = ((q.occurrences d).filter Occurrence.isPlaced).map fun o =>
      (o.firstIn d (q.occurrences d)).value supply [] := by
  obtain ⟨index, s, ledger, rfl⟩ := render_ledger h
  have own : (q.occurrences d).filter Occurrence.isPlaced
      = (((q.occurrences d).zip index).filter (·.1.isPlaced)).map (·.1) := by
    conv_lhs => rw [← List.map_fst_zip (Nat.le_of_eq ledger.numbered.length.symm), List.filter_map]
    rfl
  have slots : s.finish.slots = placedNumbers (q.occurrences d) index := ledger.slots
  rw [Rendered.bindValues, slots, placedNumbers, own, List.filterMap_map, List.map_map, ← List.filterMap_eq_map]
  refine List.filterMap_congr fun z hz => ?_
  obtain ⟨j, hj⟩ := List.mem_iff_getElem?.1 (List.mem_filter.1 hz).1
  obtain ⟨ho, hn⟩ := List.getElem?_zip_eq_some.1 hj
  have first := ledger.getElem?_index ho hn
  have param := List.getElem?_eq_getElem (ledger.length ▸ (List.getElem?_eq_some_iff.1 first).1)
  obtain ⟨k, there, -⟩ := ledger.numbered.order z.2 _ first
  have value := (ledger.params z.2 _ _ param first).value
  rw [Occurrence.value_eq (fixed _ (List.mem_of_getElem? there)) supply supply _ []] at value
  exact (congrArg (Option.map BoundParam.value) param).trans (congrArg some value)

/-- a value that is bound for an occurrence: its own, or that of another occurrence of the same parameter -/
def Occurrence.Gets (d : Dialect) (os : List Occurrence) (supply : Supply) (o : Occurrence) (v : Value) : Prop :=
  ∃ f ∈ os, (o = f ∨ o.SameAs d f) ∧ v = f.value supply []

theorem render_bindValues {d : Dialect} {q : Query} {supply : Supply} {r : Rendered}
    (h : (render d q supply).result = .ok r) (fixed : ∀ o ∈ q.occurrences d, o.isDeferred = false) :
    List.Forall₂ (Occurrence.Gets d (q.occurrences d) supply) ((q.occurrences d).filter Occurrence.isPlaced)
      r.bindValues := by
  rw [render_bindValues_eq h fixed, List.forall₂_map_right_iff, List.forall₂_same]
  intro o ho
  obtain ⟨mem, same⟩ := Occurrence.firstIn_spec d (List.mem_of_mem_filter ho)
  exact ⟨_, mem, same, rfl⟩

end SqlTree
