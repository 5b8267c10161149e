/-
Where the names of bound parameters come from.

- `Query.explicitName_mem`: the explicit name of every occurrence is among the explicit names of the statement, which no
  generated name may equal.
- `Pass.nextNumber_free`: a generated name is new, and no explicit name of the statement.
- `Query.named`: the names in use are different, and each is a generated or an explicit one.
- `render_names`: so a bound parameter has a generated name or an explicit one, as the dialect binds it.
-/
import Mathlib.Data.List.Nodup
import Mathlib.Data.List.Perm.Subperm
import SqlTree.Proofs.Rendering.Ledger
import SqlTree.Proofs.Rendering.Parameters
import SqlTree.Proofs.Text.Decimal

namespace SqlTree

def explicitNames (os : List Occurrence) : List String := os.filterMap Occurrence.explicitName

theorem explicitNames_append (os os' : List Occurrence) :
    explicitNames (os ++ os') = explicitNames os ++ explicitNames os' := List.filterMap_append

theorem Query.explicitName_mem {d : Dialect} {q : Query} {o : Occurrence} (ho : o ∈ q.occurrences d) {n : String}
    (hn : o.explicitName = some n) : n ∈ q.paramNames := by
  rw [q.paramNames_eq]
  cases o with
  | constant v => cases hn
  | param p direction placed => exact List.mem_filterMap.2 ⟨p, Query.parameter_mem ho rfl, hn⟩

/-! ## Generated names -/

theorem generatedName_injective {m n : Nat} (h : generatedName m = generatedName n) : m = n := by
  have chars := congrArg String.toList h
  simp only [generatedName, String.toList_append] at chars
  exact Decimal.ofNat_injective (String.toList_injective (List.append_cancel_left chars))

/-- The name found is free, or as many names are taken as were tried, and one more. -/
theorem firstFree_free_or (taken : List String) (tries n : Nat) :
    generatedName (firstFree taken tries n) ∉ taken ∨ ∀ i ≤ tries, generatedName (n + i) ∈ taken := by
  induction tries generalizing n with
  | zero =>
    by_cases h : generatedName n ∈ taken
    · refine .inr fun i hi => ?_
      rwa [Nat.le_zero.1 hi]
    · exact .inl h
  | succ tries ih =>
    by_cases h : generatedName n ∈ taken
    · rw [firstFree, if_pos (List.contains_iff_mem.2 h)]
      refine (ih (n + 1)).imp id fun later i hi => ?_
      cases i with
      | zero => exact h
      | succ i =>
        have := later i (Nat.le_of_succ_le_succ hi)
        rwa [Nat.add_right_comm] at this
    · rw [firstFree, if_neg (by simpa using h)]
      exact .inl h

/-- With as many tries as names are taken a free name is found, since generated names differ. -/
theorem firstFree_free (taken : List String) (n : Nat) : generatedName (firstFree taken taken.length n) ∉ taken := by
  refine (firstFree_free_or taken taken.length n).resolve_right fun all => ?_
  have distinct : ((List.range (taken.length + 1)).map fun i => generatedName (n + i)).Nodup :=
    List.Nodup.map (fun i j h => Nat.add_left_cancel (generatedName_injective h)) List.nodup_range
  have tried : (List.range (taken.length + 1)).map (fun i => generatedName (n + i)) ⊆ taken := by
    intro name hname
    obtain ⟨i, hi, rfl⟩ := List.mem_map.1 hname
    exact all i (Nat.le_of_lt_succ (List.mem_range.1 hi))
  have bound := (List.subperm_of_subset distinct tried).length_le
  rw [List.length_map, List.length_range] at bound
  exact Nat.not_succ_le_self _ bound

theorem Pass.nextNumber_free (s : Pass) :
    generatedName s.nextNumber ∉ s.names ∧ generatedName s.nextNumber ∉ s.reserved := by
  have free : generatedName s.nextNumber ∉ s.names ++ s.reserved := firstFree_free _ _
  rwa [List.mem_append, not_or] at free

/-! ## Bound parameters -/

/-- where a name in use comes from: it was generated, or it is an explicit name of these occurrences -/
def NameFrom (d : Dialect) (os : List Occurrence) (name : String) : Prop :=
  (∃ n, name = generatedName n) ∨ ∃ o ∈ os, ∃ n, o.explicitName = some n ∧ name = d.canonicalName n

theorem NameFrom.mono {d : Dialect} {os os' : List Occurrence} {name : String} (h : NameFrom d os name)
    (hs : os ⊆ os') :
    NameFrom d os' name := by
  rcases h with h | ⟨o, ho, h⟩
  · exact .inl h
  · exact .inr ⟨o, hs ho, h⟩

/-- the names in use behind occurrences are different, come from there, and are what the parameters are bound under -/
structure Pass.Named (d : Dialect) (os : List Occurrence) (s : Pass) : Prop where
  distinct : s.names.Nodup
  source : ∀ n ∈ s.names, NameFrom d os n
  bound : s.params.map BoundParam.name = s.names.reverse.map d.boundName

namespace Pass.Named

variable {d : Dialect} {os : List Occurrence} {o : Occurrence} {s t : Pass}

theorem start (d : Dialect) (supply : Supply) (names : List String) :
    ((Pass.start supply).reserve d names).Named d [] :=
  ⟨List.nodup_nil, by simp [Pass.start, Pass.reserve], rfl⟩

theorem again (h : s.Named d os) (i : Nat) : (o.behind d i s).Named d (os ++ [o]) :=
  ⟨by simpa using h.distinct, fun n hn => (h.source n (by simpa using hn)).mono (List.subset_append_left _ _),
    by simpa using h.bound⟩

theorem first (h : s.Named d os) {name : String} (new : name ∉ s.names) (source : NameFrom d (os ++ [o]) name)
    (i : Nat) : (o.behind d i (o.entered d name s)).Named d (os ++ [o]) where
  distinct := by
    rw [Occurrence.names_behind, Occurrence.names_entered]
    exact List.nodup_cons.2 ⟨new, h.distinct⟩
  source := by
    rw [Occurrence.names_behind, Occurrence.names_entered]
    exact List.forall_mem_cons.2 ⟨source, fun n hn => (h.source n hn).mono (List.subset_append_left _ _)⟩
  bound := by
    obtain ⟨b, params, hb⟩ := Occurrence.params_entered d name s o
    rw [Occurrence.params_behind, Occurrence.names_behind, Occurrence.names_entered, params, List.map_append, h.bound,
      List.reverse_cons, List.map_append, List.map_singleton, hb, List.map_singleton]

theorem withGenerated (h : s.Named d os) (n : Nat) : Pass.Named d os { s with generated := n } :=
  ⟨h.distinct, h.source, h.bound⟩

/-- **The step of naming.** An occurrence that is played to the end binds at most one parameter, under a generated
name or under the explicit one. -/
theorem play (h : s.Named d os) (ht : (o.play d).run s = (.ok (), t)) : t.Named d (os ++ [o]) := by
  cases Occurrence.play_registers ht with
  | again => exact h.again _
  | generated => exact (h.withGenerated s.nextNumber).first s.nextNumber_free.1 (.inl ⟨_, rfl⟩) _
  | @named name _ hn free =>
    have source : NameFrom d (os ++ [o]) (d.canonicalName name) :=
      .inr ⟨o, List.mem_append_right _ List.mem_cons_self, name, hn, rfl⟩
    exact h.first free source _

end Pass.Named

theorem Query.named {d : Dialect} {q : Query} {supply : Supply} (h : (q.played d supply).1 = .ok ()) :
    (q.played d supply).2.Named d (q.occurrences d) := by
  refine Query.played_keeps (I := fun os s => s.Named d os) ?_ ?_ (.start d supply q.paramNames) h
  · intro os s text frames named
    exact ⟨named.distinct, named.source, named.bound⟩
  · intro os o s t named ht
    exact named.play ht

/-- **Bound parameters have generated names or explicit names of the statement**, as the dialect binds them. -/
theorem render_names {d : Dialect} {q : Query} {supply : Supply} {r : Rendered}
    (h : (render d q supply).result = .ok r) {b : BoundParam} (hb : b ∈ r.params) :
    (∃ n, b.name = d.boundName (generatedName n)) ∨ ∃ n ∈ q.paramNames, b.name = d.boundName (d.canonicalName n) := by
  obtain ⟨played, rfl⟩ := Query.played_of_render h
  have named := Query.named played
  have mem : b.name ∈ (q.played d supply).2.names.reverse.map d.boundName :=
    named.bound ▸ List.mem_map.2 ⟨b, hb, rfl⟩
  obtain ⟨name, hname, hbound⟩ := List.mem_map.1 mem
  rcases named.source name (List.mem_reverse.1 hname) with ⟨n, rfl⟩ | ⟨o, ho, n, hn, rfl⟩
  · exact .inl ⟨n, hbound.symm⟩
  · exact .inr ⟨n, Query.explicitName_mem ho hn, hbound.symm⟩

end SqlTree
