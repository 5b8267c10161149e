/-
Generated names can be told from the query.

Literals and parameters without a name get the numbers whose names no explicit name of the query takes, in turn. A pass
skips names that are in use as well as the explicit ones, but a name that is in use was generated before or is explicit.

- `Query.LeftFree`: the numbers whose names are no explicit name anywhere in the query.
- `Pass.Counted`: how far a pass has come with them. `Counted.generated` is the step that uses one more up.
- `render_generated`: the parameter that is the `k`-th one without a name to be registered is named by the `k`-th number
  left free.
-/
import Mathlib.Data.Nat.Nth
import Mathlib.Data.Set.Finite.Basic
import SqlTree.Dialect.Catalogue
import SqlTree.Proofs.Rendering.Naming

namespace SqlTree

/-! ## Numbers left free -/

/-- a positive number whose name is not taken -/
def FreeNumber (taken : List String) (i : Nat) : Prop := 0 < i ∧ generatedName i ∉ taken

instance (taken : List String) : DecidablePred (FreeNumber taken) := fun _ => instDecidableAnd

/-- a positive number whose name no parameter of the query has under the dialect -/
def Query.LeftFree (d : Dialect) (q : Query) (i : Nat) : Prop :=
  0 < i ∧ ∀ p ∈ q.parameters, ∀ name, p.name = some name → d.canonicalName name ≠ generatedName i

theorem Query.leftFree_eq (d : Dialect) (q : Query) : q.LeftFree d = FreeNumber (q.paramNames.map d.canonicalName) := by
  funext i
  rw [Query.LeftFree, FreeNumber, q.paramNames_eq]
  refine propext (and_congr_right fun _ => ⟨fun free taken => ?_, fun free p hp name hn same => ?_⟩)
  · obtain ⟨name, hname, same⟩ := List.mem_map.1 taken
    obtain ⟨p, hp, hn⟩ := List.mem_filterMap.1 hname
    exact free p hp name hn same
  · exact free (List.mem_map.2 ⟨name, List.mem_filterMap.2 ⟨p, hp, hn⟩, same⟩)

/-- Numbers are left free without end, since generated names differ. -/
theorem freeNumber_infinite (taken : List String) : {i | FreeNumber taken i}.Infinite := by
  have named : {i | generatedName i ∈ taken}.Finite :=
    Set.Finite.preimage (fun i _ j _ h => generatedName_injective h) taken.finite_toSet
  refine ((Set.finite_singleton 0).union named).infinite_compl.mono fun i hi => ?_
  rw [Set.mem_compl_iff, Set.mem_union, not_or] at hi
  exact ⟨Nat.pos_of_ne_zero hi.1, hi.2⟩

theorem le_firstFree (taken : List String) (tries n : Nat) : n ≤ firstFree taken tries n := by
  induction tries generalizing n with
  | zero => exact Nat.le_refl n
  | succ tries ih =>
    rw [firstFree]
    split
    · exact Nat.le_of_succ_le (ih (n + 1))
    · exact Nat.le_refl n

/-- What is passed over is taken. -/
theorem firstFree_least {taken : List String} {tries n i : Nat} (start : n ≤ i) (before : i < firstFree taken tries n) :
    generatedName i ∈ taken := by
  induction tries generalizing n with
  | zero => exact absurd before (Nat.not_lt.2 start)
  | succ tries ih =>
    rw [firstFree] at before
    split at before
    · rename_i used
      rcases Nat.eq_or_lt_of_le start with rfl | later
      · exact List.contains_iff_mem.1 used
      · exact ih later before
    · exact absurd before (Nat.not_lt.2 start)

/-! ## Names of registered parameters -/

/-- how many of the occurrences have no explicit name -/
def unnamed (os : List Occurrence) : Nat := os.countP (·.explicitName.isNone)

/-- the name of a first occurrence behind others: its explicit one, or that of the next number that is free -/
noncomputable def Occurrence.internalName (d : Dialect) (free : Nat → Prop) (before : List Occurrence)
    (o : Occurrence) : String :=
  match o.explicitName with
  | some name => d.canonicalName name
  | none => generatedName (Nat.nth free (unnamed before))

/-- a pass that has named first occurrences and used numbers up in turn, apart from those with these reserved names -/
structure Pass.Counted (d : Dialect) (taken : List String) (firsts : List Occurrence) (s : Pass) : Prop where
  reserved : s.reserved = taken
  used : Nat.count (FreeNumber taken) (s.generated + 1) = unnamed firsts
  /-- a name in use was generated before or is reserved -/
  behind : ∀ i, generatedName i ∈ s.names → i ≤ s.generated ∨ generatedName i ∈ taken
  length : s.names.length = firsts.length
  names : ∀ (n : Nat) (o : Occurrence), firsts[n]? = some o →
    s.names.reverse[n]? = some (o.internalName d (FreeNumber taken) (firsts.take n))

namespace Pass.Counted

variable {d : Dialect} {taken : List String} {firsts : List Occurrence} {o : Occurrence} {s t : Pass}

theorem start (d : Dialect) (supply : Supply) (names : List String) :
    ((Pass.start supply).reserve d names).Counted d (names.map d.canonicalName) [] where
  reserved := by simp [Pass.reserve, Pass.start]
  used := by simp [Pass.reserve, Pass.start, Nat.count_succ, FreeNumber, unnamed]
  behind := by simp [Pass.reserve, Pass.start]
  length := rfl
  names := by simp

theorem rewrite (h : s.Counted d taken firsts) (text : String) (frames : List (Option String)) :
    Pass.Counted d taken firsts { s with text := text, frames := frames } :=
  { h with }

/-- An occurrence that was registered before changes nothing. -/
theorem again (h : s.Counted d taken firsts) (i : Nat) : (o.behind d i s).Counted d taken firsts where
  reserved := by rw [Occurrence.reserved_behind, h.reserved]
  used := by rw [Occurrence.generated_behind, h.used]
  behind := by simpa using h.behind
  length := by rw [Occurrence.names_behind, h.length]
  names := by simpa using h.names

theorem names_snoc (h : s.Counted d taken firsts) {name : String}
    (named : name = o.internalName d (FreeNumber taken) firsts) (n : Nat) (o' : Occurrence)
    (ho : (firsts ++ [o])[n]? = some o') :
    (name :: s.names).reverse[n]? = some (o'.internalName d (FreeNumber taken) ((firsts ++ [o]).take n)) := by
  rw [List.reverse_cons]
  rcases getElem?_snoc.1 ho with old | ⟨rfl, rfl⟩
  · rw [List.take_append_of_le_length (Nat.le_of_lt (List.getElem?_eq_some_iff.1 old).1)]
    exact getElem?_snoc.2 (.inl (h.names n o' old))
  · rw [List.take_left' rfl]
    exact getElem?_snoc.2 (.inr ⟨by rw [List.length_reverse, h.length], named⟩)

/-- A parameter with a name of its own uses no number up. -/
theorem named (h : s.Counted d taken firsts) {name : String} (hn : o.explicitName = some name)
    (known : d.canonicalName name ∈ taken) (i : Nat) :
    (o.behind d i (o.entered d (d.canonicalName name) s)).Counted d taken (firsts ++ [o]) where
  reserved := by rw [Occurrence.reserved_behind, Occurrence.reserved_entered, h.reserved]
  used := by simp [h.used, unnamed, hn]
  behind j hj := by
    rw [Occurrence.names_behind, Occurrence.names_entered, List.mem_cons] at hj
    rw [Occurrence.generated_behind, Occurrence.generated_entered]
    rcases hj with same | hj
    · exact .inr (same ▸ known)
    · exact h.behind j hj
  length := by simp [h.length]
  names := by
    rw [Occurrence.names_behind, Occurrence.names_entered]
    exact h.names_snoc (by rw [Occurrence.internalName, hn])

/-- No number is passed over that is left free: its name would be in use, and was not generated before. -/
theorem count_nextNumber (h : s.Counted d taken firsts) :
    Nat.count (FreeNumber taken) s.nextNumber = unnamed firsts ∧ FreeNumber taken s.nextNumber
      ∧ s.generated < s.nextNumber := by
  have later : s.generated + 1 ≤ s.nextNumber := le_firstFree _ _ _
  have free : FreeNumber taken s.nextNumber :=
    ⟨Nat.lt_of_lt_of_le (Nat.succ_pos _) later, h.reserved ▸ s.nextNumber_free.2⟩
  refine ⟨?_, free, later⟩
  have none : ∀ m < s.nextNumber - (s.generated + 1), ¬ FreeNumber taken (s.generated + 1 + m) := by
    rintro m hm ⟨-, notTaken⟩
    have used : generatedName (s.generated + 1 + m) ∈ s.names ++ s.reserved :=
      firstFree_least (Nat.le_add_right _ _) (by show _ < s.nextNumber; omega)
    rcases List.mem_append.1 used with used | used
    · exact (h.behind _ used).elim (fun before => by omega) notTaken
    · exact notTaken (h.reserved ▸ used)
  have split : s.nextNumber = s.generated + 1 + (s.nextNumber - (s.generated + 1)) := by omega
  rw [split, Nat.count_add, Nat.count_of_forall_not none, Nat.add_zero, h.used]

/-- **The step of generating.** A parameter without a name uses up the next number that is left free. -/
theorem generated (h : s.Counted d taken firsts) (nameless : o.explicitName = none) (i : Nat) :
    (o.behind d i (o.entered d (generatedName s.nextNumber) { s with generated := s.nextNumber })).Counted d taken
      (firsts ++ [o]) := by
  obtain ⟨count, free, later⟩ := h.count_nextNumber
  have name : generatedName s.nextNumber = o.internalName d (FreeNumber taken) firsts := by
    rw [Occurrence.internalName, nameless, ← count, Nat.nth_count free]
  refine ⟨?_, ?_, fun j hj => ?_, ?_, ?_⟩
  · rw [Occurrence.reserved_behind, Occurrence.reserved_entered, h.reserved]
  · rw [Occurrence.generated_behind, Occurrence.generated_entered, Nat.count_succ, count, if_pos free]
    simp [unnamed, nameless]
  · rw [Occurrence.names_behind, Occurrence.names_entered, List.mem_cons] at hj
    rw [Occurrence.generated_behind, Occurrence.generated_entered]
    rcases hj with same | hj
    · exact .inl (Nat.le_of_eq (generatedName_injective same))
    · exact (h.behind j hj).imp (fun before => Nat.le_of_lt (Nat.lt_of_le_of_lt before later)) id
  · simp [h.length]
  · rw [Occurrence.names_behind, Occurrence.names_entered]
    exact h.names_snoc name

/-- An occurrence that is played to the end is named in turn, if its explicit name is reserved. -/
theorem play {supply : Supply} {os : List Occurrence} {index : List Nat} (ledger : Ledger d supply os index firsts s)
    (h : s.Counted d taken firsts) (known : ∀ name, o.explicitName = some name → d.canonicalName name ∈ taken)
    (ht : (o.play d).run s = (.ok (), t)) :
    ∃ index' firsts', Ledger d supply (os ++ [o]) index' firsts' t ∧ t.Counted d taken firsts' := by
  cases Occurrence.play_registers ht with
  | again key there => exact ⟨_, _, ledger.again key there, h.again _⟩
  | generated new unnamed => exact ⟨_, _, (ledger.withGenerated s.nextNumber).first new _, h.generated unnamed _⟩
  | @named name new hn _ => exact ⟨_, _, ledger.first new _, h.named hn (known name hn) _⟩

end Pass.Counted

/-! ## Whole statements -/

theorem Query.counted {d : Dialect} {q : Query} {supply : Supply} (h : (q.played d supply).1 = .ok ()) :
    ∃ index firsts, Ledger d supply (q.occurrences d) index firsts (q.played d supply).2
      ∧ (q.played d supply).2.Counted d (q.paramNames.map d.canonicalName) firsts := by
  refine Query.played_keeps
    (I := fun os s => (∀ o ∈ os, o ∈ q.occurrences d) → ∃ index firsts, Ledger d supply os index firsts s
      ∧ s.Counted d (q.paramNames.map d.canonicalName) firsts) ?_ ?_ ?_ h fun _ ho => ho
  · intro os s text frames kept within
    obtain ⟨index, firsts, ledger, counted⟩ := kept within
    exact ⟨index, firsts, ledger.rewrite text frames, counted.rewrite text frames⟩
  · intro os o s t kept ht within
    obtain ⟨index, firsts, ledger, counted⟩ := kept fun o' ho' => within o' (List.mem_append_left _ ho')
    have here := within o (List.mem_append_right _ List.mem_cons_self)
    exact counted.play ledger (fun name hn => List.mem_map.2 ⟨name, Query.explicitName_mem here hn, rfl⟩) ht
  · exact fun _ => ⟨[], [], .start d supply q.paramNames, .start d supply q.paramNames⟩

/-- **Generated names are predictable.** Of the parameters of a rendering, in the order in which they are registered,
each has its explicit name, or else is named by the number left free that comes after those used up by the parameters
without a name before it. The numbers are those whose names are no explicit name of the query, wherever in it the name
stands; they never run out. -/
theorem render_generated {d : Dialect} {q : Query} {supply : Supply} {r : Rendered}
    (h : (render d q supply).result = .ok r) :
    {i | q.LeftFree d i}.Infinite
      ∧ ∃ s index firsts, (Writing.query d q).run ((Pass.start supply).reserve d q.paramNames) = (.ok (), s)
        ∧ r = s.finish ∧ Numbered d (q.occurrences d) index firsts ∧ r.params.length = firsts.length
        ∧ ∀ (n : Nat) (o : Occurrence), firsts[n]? = some o →
          s.names.reverse[n]? = some (o.internalName d (q.LeftFree d) (firsts.take n))
            ∧ r.params[n]?.map BoundParam.name = some (d.boundName
              (o.internalName d (q.LeftFree d) (firsts.take n))) := by
  rw [render_eq_played] at h
  rcases hp : (q.played d supply).1 with e | _
  · rw [hp] at h
    cases h
  · rw [hp] at h
    cases h
    obtain ⟨index, firsts, ledger, counted⟩ := Query.counted hp
    rw [Query.leftFree_eq]
    refine ⟨freeNumber_infinite _, (q.played d supply).2, index, firsts, ?_, rfl, ledger.numbered, ledger.length,
      fun n o ho => ⟨counted.names n o ho, ?_⟩⟩
    · rw [query_eq_play d q _ rfl]
      exact Prod.ext hp rfl
    · show (q.played d supply).2.params[n]?.map BoundParam.name = _
      rw [← List.getElem?_map, (Query.named hp).bound, List.getElem?_map, counted.names n o ho]
      rfl

/-- a select of a nameless parameter, a literal and a named parameter, with a name in a list that is empty -/
def skippedNames : Query :=
  .single (.select (.mk false none
    [.param (.fixed 0 (.int 5)), .constant (.int 7), .param { Parameter.fixed 1 (.int 6) with name := some "@p2" }] []
    (some (.inList (.param { Parameter.fixed 2 (.int 8) with name := some "p1" }) [] false)) [] none []))

/-- One of the names that are skipped comes later, and the other is not written out. -/
theorem render_generated_skippedNames :
    ∃ r, (render .sqlServer skippedNames fun _ _ => .null).result = .ok r
      ∧ r.params.map BoundParam.name = ["@p3", "@p4", "@p2"]
      ∧ {i | skippedNames.LeftFree .sqlServer i}.Infinite
      ∧ ∃ s index firsts, (Writing.query .sqlServer skippedNames).run
          ((Pass.start fun _ _ => .null).reserve .sqlServer skippedNames.paramNames) = (.ok (), s)
        ∧ r = s.finish ∧ Numbered .sqlServer (skippedNames.occurrences .sqlServer) index firsts
        ∧ r.params.length = firsts.length
        ∧ ∀ (n : Nat) (o : Occurrence), firsts[n]? = some o →
          s.names.reverse[n]?
              = some (o.internalName .sqlServer (skippedNames.LeftFree .sqlServer) (firsts.take n))
            ∧ r.params[n]?.map BoundParam.name = some (Dialect.sqlServer.boundName
                (o.internalName .sqlServer (skippedNames.LeftFree .sqlServer) (firsts.take n))) := by
  have names : (render .sqlServer skippedNames fun _ _ => .null).result.toOption.map (·.params.map BoundParam.name)
      = some ["@p3", "@p4", "@p2"] := by decide +kernel
  rcases hr : (render .sqlServer skippedNames fun _ _ => .null).result with e | r
  · rw [hr] at names
    cases names
  · rw [hr] at names
    exact ⟨r, rfl, Option.some.inj names, render_generated hr⟩

end SqlTree
