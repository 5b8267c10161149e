/-
A script is its statements, one after another.

The members of a script share its parameters, its names and its placeholders, and a statement written by itself starts
afresh. Where placeholders are question marks this cannot be seen: neither in the text nor in the values that are bound.

- `Dialect.Sequential`: a dialect that writes the members of a script as it writes them by themselves.
- `render_script`: on such a dialect, a script without deferred parameters, in which parameters of one name carry values
  that are alike, is written if its members are; then its text is theirs, and so are its values.
-/
import Mathlib.Tactic.Choose
import SqlTree.Proofs.Rendering.Positional

namespace SqlTree

/-- a positional dialect with scripts, which writes the members of a script one after another and as it would write
them by themselves -/
structure Dialect.Sequential (d : Dialect) : Prop extends d.Positional where
  capable : d.caps.scripts = true
  scripts : d.scripts = .sequence
  calls : d.calls = .call

/-! ## Pieces of a script -/

namespace Piece

theorem faults_separated (separator : String) (xss : List (List Piece)) :
    faults (separated separator xss) = xss.flatMap faults := by
  cases xss with
  | nil => rfl
  | cons xs rest =>
    rw [separated, faults_append, List.flatMap_cons]
    congr 1
    induction rest with
    | nil => rfl
    | cons ys rest ih =>
      rw [List.flatMap_cons, List.flatMap_cons, faults_append, ih]
      rfl

theorem written_separated (d : Dialect) (separator : String) (xss : List (List Piece)) :
    written d (separated separator xss) = separator.intercalate (xss.map (written d)) := by
  cases xss with
  | nil => rfl
  | cons xs rest =>
    rw [separated, written_append]
    induction rest generalizing xs with
    | nil => simp [written, collectAll]
    | cons ys rest ih =>
      have next := ih ys
      rw [List.map_cons] at next
      rw [List.map_cons, List.map_cons, String.intercalate_cons_cons, ← next, List.flatMap_cons, written_append,
        written_cons]
      simp [collect, texts, String.append_assoc]

end Piece

namespace Dialect.Sequential

variable {d : Dialect} (hd : d.Sequential)

include hd

/-- A statement is written alike inside a script and outside of it. -/
theorem pieces_eq (s : Statement) (inside : Bool) : s.pieces d inside = s.pieces d false := by
  cases s with
  | exec e => simp only [Statement.pieces, Piece.exec, hd.calls]
  | _ => rfl

theorem script_pieces (members : List Statement) :
    (Query.script members).pieces d
      = Piece.separated "\n" (members.map fun s => (Query.single s).pieces d ++ [.text ";"]) := by
  have capable : d.supports .scripts = true := hd.capable
  simp only [Query.pieces, Dialect.require, capable, if_true, Piece.ofResult, hd.scripts, Piece.sequence, hd.pieces_eq]

theorem script_faults (members : List Statement) :
    Piece.faults ((Query.script members).pieces d)
      = members.flatMap fun s => Piece.faults ((Query.single s).pieces d) := by
  rw [hd.script_pieces, Piece.faults_separated, List.flatMap_map]
  refine List.flatMap_congr fun s _ => ?_
  rw [Piece.faults_append]
  exact List.append_nil _

theorem script_written (members : List Statement) :
    Piece.written d ((Query.script members).pieces d)
      = "\n".intercalate (members.map fun s => Piece.written d ((Query.single s).pieces d) ++ ";") := by
  rw [hd.script_pieces, Piece.written_separated, List.map_map]
  congr 1
  refine List.map_congr_left fun s _ => ?_
  exact (Piece.written_append ..).trans (congrArg (_ ++ ·) (Piece.written_text d ";"))

end Dialect.Sequential

/-! ## Values that are bound -/

/-- parameters without deferred values, of which those of one identity are one parameter and those of one name carry
values that are alike -/
structure Concordant (R : Value → Value → Prop) (ps : List Parameter) : Prop where
  fixed : ∀ p ∈ ps, p.isDeferred = false
  coherent : Coherent ps
  named : ∀ p ∈ ps, ∀ p' ∈ ps, p.name ≠ none → p.name = p'.name → ∀ v v',
    p.source = .fixed v → p'.source = .fixed v' →
    R v v'

namespace Concordant

variable {R : Value → Value → Prop} {ps : List Parameter} {d : Dialect} {q : Query}

theorem occurrence_fixed (h : Concordant R q.parameters) : ∀ o ∈ q.occurrences d, o.isDeferred = false :=
  Query.occurrence_fixed h.fixed

/-- Parameters that a positional dialect binds as one carry values that are alike. -/
theorem keyed (h : Concordant R ps) (refl : ∀ v, R v v) (hd : d.Positional) {p p' : Parameter} (hp : p ∈ ps)
    (hp' : p' ∈ ps) (key : p.key d = p'.key d) (supply : Supply) (n n' : Nat) :
    R (p.value supply n) (p'.value supply n') := by
  have canonical : ∀ name, d.canonicalName name = name := fun name => by rw [Dialect.canonicalName, hd.params]
  have alike : (∀ v v', p.source = .fixed v → p'.source = .fixed v' → R v v') →
      R (p.value supply n) (p'.value supply n') := by
    intro hR
    have fixed := h.fixed p hp
    have fixed' := h.fixed p' hp'
    obtain ⟨id, name, type, direction, source⟩ := p
    obtain ⟨id', name', type', direction', source'⟩ := p'
    cases source with
    | deferred feed => cases fixed
    | fixed v =>
      cases source' with
      | deferred feed => cases fixed'
      | fixed v' => exact hR v v' rfl rfl
  rw [Parameter.key, Parameter.key] at key
  rcases hn : p.name with _ | name <;> rcases hn' : p'.name with _ | name' <;> rw [hn, hn'] at key
  · obtain rfl := h.coherent p hp p' hp' (ParamKey.shared.inj key)
    exact alike fun v v' hv hv' => by
      rw [hv] at hv'
      cases hv'
      exact refl v
  · cases key
  · cases key
  · have same : name = name' := by simpa only [canonical] using ParamKey.named.inj key
    exact alike (h.named p hp p' hp' (by simp [hn]) (by rw [hn, hn', same]))

/-- Two values that are bound for one occurrence are alike. -/
theorem gets (h : Concordant R q.parameters) (refl : ∀ v, R v v) (hd : d.Positional) {supply : Supply} {o : Occurrence}
    {v v' : Value} (hv : o.Gets d (q.occurrences d) supply v) (hv' : o.Gets d (q.occurrences d) supply v') :
    R v v' := by
  obtain ⟨f, hf, same, rfl⟩ := hv
  obtain ⟨f', hf', same', rfl⟩ := hv'
  have one : f = f' ∨ f.SameAs d f' := by
    rcases same with rfl | same <;> rcases same' with rfl | same'
    · exact .inl rfl
    · exact .inr same'
    · exact .inr same.symm
    · exact .inr (same.symm.trans same')
  rcases one with rfl | ⟨k, key, key'⟩
  · exact refl _
  · cases f with
    | constant => cases key
    | param p direction placed =>
      cases f' with
      | constant => cases key'
      | param p' direction' placed' =>
        have keys : p.key d = p'.key d := (Option.some.inj key).trans (Option.some.inj key').symm
        exact h.keyed refl hd (Query.parameter_mem hf rfl) (Query.parameter_mem hf' rfl) keys supply _ _

end Concordant

/-! ## Scripts -/

/-- Lists that go with one list go with one another. -/
theorem forall₂_through {α β γ : Type} {P : α → β → Prop} {Q : α → γ → Prop} {R : β → γ → Prop}
    (h : ∀ a b c, P a b → Q a c → R b c) {as : List α} {bs : List β} {cs : List γ} (hP : List.Forall₂ P as bs)
    (hQ : List.Forall₂ Q as cs) : List.Forall₂ R bs cs := by
  induction hP generalizing cs with
  | nil =>
    cases hQ
    exact .nil
  | cons hp _ ih =>
    cases hQ with
    | cons hq hQ => exact .cons (h _ _ _ hp hq) (ih hQ)

/-- a statement and its rendering by itself -/
def Statement.Rendered (d : Dialect) (supply : Supply) (s : Statement) (r : SqlTree.Rendered) : Prop :=
  (render d (.single s) supply).result = .ok r

/-- The values of the members of a script, one member after another, are values that the occurrences
in the script get. -/
theorem members_bindValues {d : Dialect} {supply : Supply} {members : List Statement} {rs : List Rendered}
    (h : List.Forall₂ (Statement.Rendered d supply) members rs)
    (fixed : ∀ o ∈ (Query.script members).occurrences d, o.isDeferred = false) :
    List.Forall₂ (Occurrence.Gets d ((Query.script members).occurrences d) supply)
      (((Query.script members).occurrences d).filter Occurrence.isPlaced) (rs.flatMap Rendered.bindValues) := by
  have single : ∀ s, (Query.single s).occurrences d = s.occurrences d := fun s => List.flatMap_singleton ..
  have known : List.Forall₂ (fun s r => s ∈ members ∧ s.Rendered d supply r) members rs :=
    (List.forall₂_and_left _ _).2 ⟨fun _ hs => hs, h⟩
  rw [Query.occurrences, Query.statements, List.filter_flatMap]
  refine List.rel_flatMap known ?_
  rintro s r ⟨hs, hr⟩
  have among : s.occurrences d ⊆ (Query.script members).occurrences d := fun o ho => List.mem_flatMap.2 ⟨s, hs, ho⟩
  have own := render_bindValues hr fun o ho => fixed o (among (single s ▸ ho))
  rw [single] at own
  refine own.imp ?_
  rintro o v ⟨f, hf, same⟩
  exact ⟨f, among hf, same⟩

/-- **A script is its statements, one after another.** Let its parameters be concordant. Then it is written if and
only if each statement is written by itself; its text is theirs, each closed by a semicolon, on lines of their own;
and its values are their values one after another, or alike: equal, if parameters of one name carry equal values. -/
theorem render_script {d : Dialect} (hd : d = .ansi ∨ d = .mysql) {R : Value → Value → Prop} (refl : ∀ v, R v v)
    {members : List Statement} (concordant : Concordant R (Query.script members).parameters) (supply : Supply) :
    ((∃ r, (render d (.script members) supply).result = .ok r)
        ↔ ∀ s ∈ members, ∃ r, (render d (.single s) supply).result = .ok r)
      ∧ ∀ r, (render d (.script members) supply).result = .ok r →
        ∃ rs, List.Forall₂ (fun s r => (render d (.single s) supply).result = .ok r) members rs
          ∧ r.sql = "\n".intercalate (rs.map fun r => r.sql ++ ";")
          ∧ List.Forall₂ R r.bindValues (rs.flatMap Rendered.bindValues) := by
  have sequential : d.Sequential := by
    rcases hd with rfl | rfl
    · exact ⟨.of_limitClause rfl rfl, rfl, rfl, rfl⟩
    · exact ⟨.of_limitClause rfl rfl, rfl, rfl, rfl⟩
  have positional := sequential.toPositional
  have together : (∃ r, (render d (.script members) supply).result = .ok r)
      ↔ ∀ s ∈ members, ∃ r, (render d (.single s) supply).result = .ok r := by
    rw [(render_written positional _ supply).1, sequential.script_faults, List.flatMap_eq_nil_iff]
    exact forall₂_congr fun s _ => (render_written positional (.single s) supply).1.symm
  refine ⟨together, fun r hr => ?_⟩
  have alone := together.1 ⟨r, hr⟩
  have : Nonempty Rendered := ⟨r⟩
  choose! own written using alone
  have hrs : List.Forall₂ (fun s r => (render d (.single s) supply).result = .ok r) members (members.map own) :=
    List.forall₂_map_right_iff.2 (List.forall₂_same.2 written)
  refine ⟨_, hrs, ?_, ?_⟩
  · have texts : (members.map own).map (fun r => r.sql ++ ";")
        = members.map fun s => Piece.written d ((Query.single s).pieces d) ++ ";" := by
      rw [List.map_map]
      exact List.map_congr_left fun s hs => congrArg (· ++ ";")
        ((render_written positional _ supply).2 _ (written s hs))
    rw [(render_written positional _ supply).2 r hr, sequential.script_written, texts]
  · have fixed := concordant.occurrence_fixed (d := d)
    refine forall₂_through ?_ (render_bindValues hr fixed) (members_bindValues hrs fixed)
    intro o v v' hv hv'
    exact concordant.gets refl positional hv hv'

/-- an update that gives a column a parameter of this identity, in the row that a named parameter tells -/
def assignOwner (owner row : Nat) : Statement :=
  .update ⟨⟨none, "account"⟩, [.assign (.field none "owner") (.param (.fixed owner (.int 7)))],
    some (.compare (.field none "id") .eq (.param { Parameter.fixed row (.int 5) with name := some "row" }))⟩

/-- One parameter that two updates share and two of one name are bound once in a script, and in each update by itself;
the values come out the same. -/
theorem render_script_assignOwner :
    Concordant Eq (Query.script [assignOwner 0 1, assignOwner 0 2]).parameters
      ∧ ∃ r rs, (render .mysql (.script [assignOwner 0 1, assignOwner 0 2]) fun _ _ => .null).result = .ok r
        ∧ r.params.length = 2
        ∧ List.Forall₂ (fun s r => (render .mysql (.single s) fun _ _ => .null).result = .ok r)
          [assignOwner 0 1, assignOwner 0 2] rs
        ∧ r.sql = "\n".intercalate (rs.map fun r => r.sql ++ ";")
        ∧ List.Forall₂ Eq r.bindValues (rs.flatMap Rendered.bindValues) := by
  have parameters : (Query.script [assignOwner 0 1, assignOwner 0 2]).parameters
      = [.fixed 0 (.int 7), { Parameter.fixed 1 (.int 5) with name := some "row" }, .fixed 0 (.int 7),
        { Parameter.fixed 2 (.int 5) with name := some "row" }] := rfl
  have concordant : Concordant Eq (Query.script [assignOwner 0 1, assignOwner 0 2]).parameters := by
    rw [parameters]
    refine ⟨?_, ?_, ?_⟩
    · simp [Parameter.fixed, Parameter.isDeferred, Parameter.feed?]
    · simp [Coherent, Parameter.fixed]
    · simp +contextual [Parameter.fixed]
  have shown : (render .mysql (.script [assignOwner 0 1, assignOwner 0 2]) fun _ _ => .null).result.toOption.map
      (·.params.length) = some 2 := by decide +kernel
  rcases hr : (render .mysql (.script [assignOwner 0 1, assignOwner 0 2]) fun _ _ => .null).result with e | r
  · rw [hr] at shown
    cases shown
  · rw [hr] at shown
    obtain ⟨rs, alone, text, values⟩ := (render_script (.inr rfl) Eq.refl concordant fun _ _ => .null).2 r hr
    exact ⟨concordant, r, rs, rfl, Option.some.inj shown, alone, text, values⟩

end SqlTree
