/-
Numbered placeholders and results.

A dialect with numbered placeholders numbers its parameters as they are registered, those that receive
results among them. A result that has no placeholder leaves a gap in the numbers of the text, unless nothing
new is numbered behind it.

- `Rendered.NumbersIntact`: the numbers still hold when the results are taken out of the list of parameters.
- `render_numbers`: the number in a placeholder is that of its parameter in the whole list, and the numbers are intact
  if and only if results come last.
-/
import SqlTree.Dialect.Catalogue
import SqlTree.Proofs.Rendering.Parameters
import SqlTree.Proofs.Rendering.Positional
import SqlTree.Proofs.Rendering.Receiver

namespace SqlTree

/-! ## Numbers without results -/

/-- the parameters that are left without the results, each with the index it has among all -/
def Rendered.remaining (r : Rendered) : List (BoundParam × Nat) :=
  r.params.zipIdx.filter (·.1.direction ≠ .result)

/-- numbers that hold when results are taken out -/
structure Rendered.NumbersIntact (r : Rendered) : Prop where
  /-- a slot is the index of its parameter among those that are left -/
  refers : ∀ i ∈ r.slots, ∃ b, r.params[i]? = some b ∧ r.remaining[i]? = some (b, i)
  /-- the numbers appear first in their order, without gaps, and each of what is left has one -/
  contiguous : r.slots.eraseDups = List.range r.remaining.length

/-- Whenever a parameter occurs first to receive a result, every placeholder from there on is of a parameter that has
occurred before. -/
def ResultsLast (d : Dialect) (os : List Occurrence) : Prop :=
  ∀ (j : Nat) (o : Occurrence), os[j]? = some o → o.direction = .result → ¬ o.isKnown d (os.take j) →
    ∀ o' ∈ os.drop j, o'.isPlaced → o'.isKnown d (os.take j)

/-- A member that is left has its index from those left in front of it. -/
theorem getElem?_of_filter {α : Type} {keep : α → Bool} {xs : List α} {i : Nat} {x : α}
    (h : (xs.filter keep)[i]? = some x) : ∃ j, xs[j]? = some x ∧ ((xs.take j).filter keep).length = i := by
  induction xs generalizing i with
  | nil => cases h
  | cons a xs ih =>
    cases ha : keep a with
    | true =>
      rw [List.filter_cons_of_pos ha] at h
      cases i with
      | zero => exact ⟨0, h, rfl⟩
      | succ i =>
        obtain ⟨j, hj, front⟩ := ih h
        exact ⟨j + 1, hj, by rw [List.take_succ_cons, List.filter_cons_of_pos ha, List.length_cons, front]⟩
    | false =>
      rw [List.filter_cons_of_neg (by simp [ha])] at h
      obtain ⟨j, hj, front⟩ := ih h
      exact ⟨j + 1, hj, by rw [List.take_succ_cons, List.filter_cons_of_neg (by simp [ha]), front]⟩

theorem Rendered.remaining_getElem? {r : Rendered} {i : Nat} :
    (∃ b, r.params[i]? = some b ∧ r.remaining[i]? = some (b, i))
      ↔ i < r.params.length ∧ ∀ n ≤ i, ∀ b, r.params[n]? = some b → b.direction ≠ .result := by
  have indexed : ∀ n b, r.params[n]? = some b → r.params.zipIdx[n]? = some (b, n) := fun n b hb => by
    rw [List.getElem?_zipIdx, hb, Option.map_some, Nat.zero_add]
  constructor
  · rintro ⟨b, hb, left⟩
    refine ⟨(List.getElem?_eq_some_iff.1 hb).1, fun n hn b' hb' => ?_⟩
    obtain ⟨j, hj, front⟩ := getElem?_of_filter left
    obtain ⟨-, rfl⟩ : r.params[j]? = some b ∧ j = i := by simpa [List.getElem?_zipIdx] using hj
    rcases Nat.lt_or_eq_of_le hn with lt | rfl
    · have lengths : (r.params.zipIdx.take j).length = j :=
        List.length_take_of_le (Nat.le_of_lt (List.getElem?_eq_some_iff.1 hj).1)
      have all := List.length_filter_eq_length_iff.1 (front.trans lengths.symm)
      have mem : (b', n) ∈ r.params.zipIdx.take j :=
        List.mem_of_getElem? ((List.getElem?_take_of_lt lt).trans (indexed n b' hb'))
      simpa using all _ mem
    · obtain rfl := Option.some.inj (hb.symm.trans hb')
      simpa using (List.mem_filter.1 (List.mem_of_getElem? left)).2
  · rintro ⟨lt, all⟩
    have param := List.getElem?_eq_getElem lt
    refine ⟨_, param, ?_⟩
    have front : (r.params.zipIdx.take (i + 1)).filter (·.1.direction ≠ .result) = r.params.zipIdx.take (i + 1) := by
      rw [List.filter_eq_self]
      rintro ⟨b, n⟩ mem
      obtain ⟨m, hm, at_m⟩ := List.mem_take_iff_getElem.1 mem
      have param' : r.params[m]? = some b := by
        rw [List.getElem_zipIdx, Prod.mk.injEq] at at_m
        rw [← at_m.1, List.getElem?_eq_getElem]
      simpa using all m (by omega) b param'
    rw [Rendered.remaining, ← List.take_append_drop (i + 1) r.params.zipIdx, List.filter_append, front,
      List.getElem?_append_left (by simp; omega), List.getElem?_take_of_lt (Nat.lt_succ_self i)]
    exact indexed i _ param

/-! ## Results among the occurrences -/

theorem mem_placedNumbers {os : List Occurrence} {index : List Nat} {i : Nat} :
    i ∈ placedNumbers os index ↔ ∃ (k : Nat) (o : Occurrence), os[k]? = some o ∧ index[k]? = some i ∧ o.isPlaced := by
  rw [placedNumbers, List.mem_map]
  constructor
  · rintro ⟨⟨o, _⟩, mem, rfl⟩
    obtain ⟨mem, placed⟩ := List.mem_filter.1 mem
    obtain ⟨k, hk⟩ := List.mem_iff_getElem?.1 mem
    obtain ⟨ho, hi⟩ := List.getElem?_zip_eq_some.1 hk
    exact ⟨k, o, ho, hi, placed⟩
  · rintro ⟨k, o, ho, hi, placed⟩
    have mem : (o, i) ∈ os.zip index := List.mem_of_getElem? (List.getElem?_zip_eq_some.2 ⟨ho, hi⟩)
    exact ⟨(o, i), List.mem_filter.2 ⟨mem, placed⟩, rfl⟩

theorem Occurrence.isKnown_take {d : Dialect} {os : List Occurrence} {j : Nat} {o : Occurrence} :
    o.isKnown d (os.take j) ↔ ∃ i < j, ∃ o', os[i]? = some o' ∧ o'.SameAs d o := by
  rw [isKnown, Option.any_eq_true]
  constructor
  · rintro ⟨k, hk, known⟩
    obtain ⟨o', mem, isOf⟩ := List.any_eq_true.1 known
    obtain ⟨i, hi⟩ := List.mem_iff_getElem?.1 mem
    have lt : i < j := by
      have := (List.getElem?_eq_some_iff.1 hi).1
      rw [List.length_take] at this
      omega
    exact ⟨i, lt, o', (List.getElem?_take_of_lt lt).symm.trans hi, k, isOf_iff.1 isOf, hk⟩
  · rintro ⟨i, lt, o', ho', k, key, hk⟩
    have mem : o' ∈ os.take j := List.mem_of_getElem? ((List.getElem?_take_of_lt lt).trans ho')
    exact ⟨k, hk, List.any_eq_true.2 ⟨o', mem, isOf_iff.2 key⟩⟩

namespace Numbered

variable {d : Dialect} {os firsts : List Occurrence} {index : List Nat} (h : Numbered d os index firsts)

include h

theorem exists_number {j : Nat} {o : Occurrence} (ho : os[j]? = some o) :
    ∃ n f, index[j]? = some n ∧ firsts[n]? = some f := by
  have lt : j < index.length := h.length ▸ (List.getElem?_eq_some_iff.1 ho).1
  have number := List.getElem?_eq_getElem lt
  exact ⟨_, _, number, List.getElem?_eq_getElem (h.bound _ (List.mem_of_getElem? number))⟩

/-- What has not occurred before is the first occurrence with its number, behind smaller numbers. -/
theorem first_place {j n : Nat} {o f : Occurrence} (ho : os[j]? = some o) (hn : index[j]? = some n)
    (hf : firsts[n]? = some f) (new : ¬ o.isKnown d (os.take j)) :
    f = o ∧ ∀ k < j, ∀ i, index[k]? = some i → i < n := by
  obtain ⟨j', hf', hn', smaller⟩ := h.order n f hf
  rcases Nat.lt_trichotomy j' j with lt | rfl | lt
  · rcases (h.same j' j f o n n hf' ho hn' hn).1 rfl with same | same
    · omega
    · exact absurd (Occurrence.isKnown_take.2 ⟨j', lt, f, hf', same⟩) new
  · exact ⟨Option.some.inj (hf'.symm.trans ho), smaller⟩
  · exact absurd (smaller j lt n hn) (Nat.lt_irrefl n)

/-- Behind the first place of a number, it is the smaller numbers that have been used before. -/
theorem isKnown_iff_lt {j k n i : Nat} {o : Occurrence} (hn : index[j]? = some n)
    (smaller : ∀ k < j, ∀ i, index[k]? = some i → i < n) (le : j ≤ k) (ho : os[k]? = some o) (hi : index[k]? = some i) :
    o.isKnown d (os.take j) ↔ i < n := by
  rw [Occurrence.isKnown_take]
  constructor
  · rintro ⟨k', lt, o', ho', same⟩
    obtain ⟨i', -, hi', -⟩ := h.exists_number ho'
    obtain rfl := (h.same k' k o' o i' i ho' ho hi' hi).2 (.inr same)
    exact smaller k' lt i' hi'
  · intro lt
    obtain ⟨i', f, hi', hf⟩ := h.exists_number ho
    obtain rfl := Option.some.inj (hi.symm.trans hi')
    obtain ⟨j', hf', there, below⟩ := h.order i f hf
    have before : j' < j := by
      rcases Nat.lt_trichotomy j' j with lt' | rfl | lt'
      · exact lt'
      · obtain rfl := Option.some.inj (hn.symm.trans there)
        omega
      · have := below j lt' n hn
        omega
    refine ⟨j', before, f, hf', ((h.same j' k f o i i hf' ho there hi).1 rfl).resolve_left (by omega)⟩

/-- Results come last if and only if no number in a placeholder is behind the number of a result. -/
theorem resultsLast_iff : ResultsLast d os
    ↔ ∀ i ∈ placedNumbers os index, ∀ n ≤ i, ∀ f, firsts[n]? = some f → f.direction ≠ .result := by
  constructor
  · intro last i hi n le f hf result
    obtain ⟨k, o, ho, hk, placed⟩ := mem_placedNumbers.1 hi
    obtain ⟨j, hf', hn, smaller⟩ := h.order n f hf
    have behind : j ≤ k := by
      by_contra lt
      have := smaller k (by omega) i hk
      omega
    have new : ¬ f.isKnown d (os.take j) := by
      rw [h.isKnown_iff_lt hn smaller (Nat.le_refl j) hf' hn]
      exact Nat.lt_irrefl n
    have mem : o ∈ os.drop j := by
      refine List.mem_iff_getElem?.2 ⟨k - j, ?_⟩
      rw [List.getElem?_drop, Nat.add_sub_cancel' behind, ho]
    have := (h.isKnown_iff_lt hn smaller behind ho hk).1 (last j f hf' result new o mem placed)
    omega
  · intro numbers j o ho result new o' mem placed
    obtain ⟨n, f, hn, hf⟩ := h.exists_number ho
    obtain ⟨rfl, smaller⟩ := h.first_place ho hn hf new
    obtain ⟨m, hm⟩ := List.mem_iff_getElem?.1 mem
    rw [List.getElem?_drop] at hm
    obtain ⟨i, -, hi, -⟩ := h.exists_number hm
    rw [h.isKnown_iff_lt hn smaller (Nat.le_add_right j m) hm hi]
    by_contra ge
    exact numbers i (mem_placedNumbers.2 ⟨j + m, o', hm, hi, placed⟩) n (by omega) f hf result

end Numbered

/-! ## Numbers in a rendering -/

namespace Ledger

variable {d : Dialect} {supply : Supply} {os firsts : List Occurrence} {index : List Nat} {s : Pass}
  (h : Ledger d supply os index firsts s)

include h

theorem result_iff {n : Nat} : (∀ b, s.params[n]? = some b → b.direction ≠ .result)
    ↔ ∀ f, firsts[n]? = some f → f.direction ≠ .result := by
  rcases Nat.lt_or_ge n firsts.length with lt | ge
  · have first := List.getElem?_eq_getElem lt
    have param := List.getElem?_eq_getElem (h.length ▸ lt)
    rw [first, param]
    simp only [Option.some.injEq, forall_eq']
    rw [(h.params n _ _ param first).direction]
  · rw [List.getElem?_eq_none ge, List.getElem?_eq_none (h.length ▸ ge)]
    exact ⟨fun _ f hf => (by cases hf), fun _ b hb => (by cases hb)⟩

/-- Slots keep referring to their parameters if and only if no number in a placeholder is behind that of a result. -/
theorem refers_iff : (∀ i ∈ s.finish.slots, ∃ b, s.finish.params[i]? = some b ∧ s.finish.remaining[i]? = some (b, i))
    ↔ ∀ i ∈ placedNumbers os index, ∀ n ≤ i, ∀ f, firsts[n]? = some f → f.direction ≠ .result := by
  have slots : s.finish.slots = placedNumbers os index := h.slots
  rw [slots]
  refine forall₂_congr fun i hi => ?_
  rw [Rendered.remaining_getElem?]
  have lt : i < s.params.length := h.length ▸ h.numbered.bound i (mem_of_mem_placedNumbers hi)
  exact (and_iff_right lt).trans (forall₂_congr fun n _ => h.result_iff)

variable (numbers : ∀ i ∈ placedNumbers os index, ∀ n ≤ i, ∀ f, firsts[n]? = some f → f.direction ≠ .result)
  (unplaced : ∀ o ∈ os, ¬ o.isPlaced → o.direction = .result)

include unplaced

/-- A number that is not that of a result has a placeholder where it is used first. -/
theorem exists_placeholder {n : Nat} {f : Occurrence} (hf : firsts[n]? = some f) (kept : f.direction ≠ .result) :
    ∃ j : Nat, os[j]? = some f ∧ index[j]? = some n ∧ (∀ k < j, ∀ i, index[k]? = some i → i < n) ∧ f.isPlaced := by
  obtain ⟨j, there, number, smaller⟩ := h.numbered.order n f hf
  refine ⟨j, there, number, smaller, ?_⟩
  by_contra placed
  exact kept (unplaced f (List.mem_of_getElem? there) placed)

include numbers

/-- The numbers of the first places, each told once, are the first numbers, by induction on how
many places there are. -/
theorem eraseDups_take (k : Nat) : ∃ m, (placedNumbers (os.take k) (index.take k)).eraseDups = List.range m := by
  induction k with
  | zero => exact ⟨0, rfl⟩
  | succ k ih =>
    obtain ⟨m, ih⟩ := ih
    rcases ho : os[k]? with _ | o
    · have ge := List.getElem?_eq_none_iff.1 ho
      have ge' : index.length ≤ k := h.numbered.length ▸ ge
      rw [List.take_of_length_le ge, List.take_of_length_le ge'] at ih
      rw [List.take_of_length_le (by omega), List.take_of_length_le (by omega)]
      exact ⟨m, ih⟩
    · obtain ⟨i, -, hi, -⟩ := h.numbered.exists_number ho
      have lengths : (index.take k).length = (os.take k).length := by simp [h.numbered.length]
      rw [List.take_add_one, List.take_add_one, ho, hi, Option.toList_some, Option.toList_some,
        placedNumbers_snoc lengths]
      cases placed : o.isPlaced with
      | false => exact ⟨m, by simpa using ih⟩
      | true =>
        have mem : ∀ n, n ∈ placedNumbers (os.take k) (index.take k) ↔ n < m := fun n => by
          rw [← List.mem_eraseDups, ih, List.mem_range]
        rw [if_pos rfl, List.eraseDups_append, ih]
        rcases Nat.lt_trichotomy i m with lt | rfl | gt
        · exact ⟨m, by simp [List.removeAll, (mem i).2 lt]⟩
        · refine ⟨i + 1, ?_⟩
          have new : i ∉ placedNumbers (os.take k) (index.take k) := fun hmem => Nat.lt_irrefl i ((mem i).1 hmem)
          simp [List.removeAll, new, List.range_succ, List.eraseDups_cons]
        · -- the number in between has its first place here or behind, though it is smaller
          exfalso
          have used : i ∈ placedNumbers os index := mem_placedNumbers.2 ⟨k, o, ho, hi, placed⟩
          have lt : m < firsts.length := Nat.lt_trans gt (h.numbered.bound i (List.mem_of_getElem? hi))
          have first := List.getElem?_eq_getElem lt
          obtain ⟨j, there, number, smaller, placed'⟩ :=
            h.exists_placeholder unplaced first (numbers i used m (Nat.le_of_lt gt) _ first)
          have before : j < k := by
            rcases Nat.lt_trichotomy j k with lt' | rfl | lt'
            · exact lt'
            · obtain rfl := Option.some.inj (number.symm.trans hi)
              omega
            · have := smaller k lt' i hi
              omega
          have mem' := mem_placedNumbers.2 ⟨j, _, (List.getElem?_take_of_lt before).trans there,
            (List.getElem?_take_of_lt before).trans number, placed'⟩
          exact Nat.lt_irrefl m ((mem m).1 mem')

/-- The numbers in the text are those of the parameters that are left, in order. -/
theorem contiguous : s.finish.slots.eraseDups = List.range s.finish.remaining.length := by
  have slots : s.finish.slots = placedNumbers os index := h.slots
  obtain ⟨m, range⟩ := h.eraseDups_take numbers unplaced os.length
  rw [List.take_length, ← h.numbered.length, List.take_length] at range
  have left : (s.finish.remaining.map (·.2)).Nodup := by
    refine List.Nodup.sublist (List.filter_sublist.map _) ?_
    rw [List.zipIdx_map_snd]
    exact List.nodup_range'
  have same : ∀ n, n ∈ List.range m ↔ n ∈ s.finish.remaining.map (·.2) := by
    intro n
    rw [← range, List.mem_eraseDups]
    constructor
    · intro mem
      have bound := h.numbered.bound n (mem_of_mem_placedNumbers mem)
      have param := List.getElem?_eq_getElem (h.length ▸ bound)
      have kept := h.result_iff.2 (numbers n mem n (Nat.le_refl n)) _ param
      exact List.mem_map.2 ⟨_, List.mem_filter.2 ⟨List.mk_mem_zipIdx_iff_getElem?.2 param, by simpa using kept⟩, rfl⟩
    · intro mem
      obtain ⟨⟨b, m⟩, mem', rfl⟩ := List.mem_map.1 mem
      obtain ⟨there, kept⟩ := List.mem_filter.1 mem'
      have param : s.params[m]? = some b := List.mk_mem_zipIdx_iff_getElem?.1 there
      have first := List.getElem?_eq_getElem (h.length ▸ (List.getElem?_eq_some_iff.1 param).1)
      have direction := (h.params m b _ param first).direction
      obtain ⟨j, there, number, -, placed⟩ := h.exists_placeholder unplaced first (by simpa [← direction] using kept)
      exact mem_placedNumbers.2 ⟨j, _, there, number, placed⟩
  have length := ((List.perm_ext_iff_of_nodup List.nodup_range left).2 same).length_eq
  rw [List.length_range, List.length_map] at length
  rw [slots, range, length]

end Ledger

/-! ## Places and results -/

/-- In clauses and selects every parameter has a placeholder, by induction on the tree. -/
theorem Clause.occurrences_placed :
    (∀ c : Clause, ∀ o ∈ c.occurrences, o.isPlaced) ∧ ∀ s : Select, ∀ o ∈ s.occurrences, o.isPlaced := by
  refine Clause.operandInduction (fun c operands query o ho => ?_) fun s clauses o ho => ?_
  · cases c with
    | param p =>
      obtain rfl := List.mem_singleton.1 ho
      rfl
    | constant v =>
      rw [occurrences] at ho
      split at ho
      · cases ho
      · obtain rfl := List.mem_singleton.1 ho
        rfl
    | _ =>
      rcases List.mem_append.1 (occurrences_subset _ (by simp [kind]) (by simp [kind]) ho) with ho | ho
      · obtain ⟨c, hc, ho⟩ := List.mem_flatMap.1 ho
        exact operands c hc o ho
      · obtain ⟨s, hs, ho⟩ := List.mem_flatMap.1 ho
        exact query s (Option.mem_toList.1 hs) o ho
  · rw [s.occurrences_eq] at ho
    obtain ⟨c, hc, ho⟩ := List.mem_flatMap.1 ho
    exact clauses c hc o ho

/-- An occurrence without a placeholder is the parameter that receives the result of a call. -/
theorem Query.occurrence_unplaced {d : Dialect} {q : Query} {o : Occurrence} (ho : o ∈ q.occurrences d)
    (unplaced : ¬ o.isPlaced) : o.direction = .result := by
  have list : ∀ cs, o ∉ Clause.occurrencesAll cs := by
    intro cs mem
    rw [Clause.occurrencesAll_eq] at mem
    obtain ⟨c, -, mem⟩ := List.mem_flatMap.1 mem
    exact unplaced (Clause.occurrences_placed.1 c o mem)
  have option : ∀ c, o ∉ Clause.occurrencesOption c := by
    intro c mem
    rw [Clause.occurrencesOption_eq] at mem
    obtain ⟨c, -, mem⟩ := List.mem_flatMap.1 mem
    exact unplaced (Clause.occurrences_placed.1 c o mem)
  have receiver : ∀ (e : Exec) placed, o ∈ e.receiver placed → o.direction = .result := by
    intro e placed mem
    obtain ⟨p, -, rfl⟩ := List.mem_map.1 mem
    rfl
  obtain ⟨s, -, mem⟩ := List.mem_flatMap.1 ho
  cases s with
  | select s => exact absurd (Clause.occurrences_placed.2 s o mem) unplaced
  | insert i =>
    rcases List.mem_append.1 mem with mem | mem
    · exact absurd mem (list _)
    · cases hs : i.source with
      | none =>
        rw [hs] at mem
        exact absurd mem (list _)
      | some query =>
        rw [hs] at mem
        exact absurd (Clause.occurrences_placed.2 query o mem) unplaced
  | update u =>
    rcases List.mem_append.1 mem with mem | mem
    · exact absurd mem (list _)
    · exact absurd mem (option _)
  | delete s => exact absurd mem (option _)
  | exec e =>
    rw [Statement.occurrences] at mem
    cases hc : d.calls with
    | call =>
      rw [hc] at mem
      exact (List.mem_append.1 mem).elim (fun mem => absurd mem (list _)) (receiver e _)
    | exec | block =>
      rw [hc] at mem
      exact (List.mem_append.1 mem).elim (receiver e _) fun mem => absurd mem (list _)
  | createTable t => cases mem
  | dropTable t => cases mem

/-- A result without a placeholder at the very end is behind all numbers, whatever stands in front of it. -/
theorem ResultsLast.snoc (d : Dialect) {os : List Occurrence} {o : Occurrence}
    (others : ∀ o' ∈ os, o'.direction ≠ .result) (unplaced : ¬ o.isPlaced) : ResultsLast d (os ++ [o]) := by
  intro j o' ho' result _ p hp placed
  rcases getElem?_snoc.1 ho' with ho' | ⟨rfl, rfl⟩
  · exact absurd result (others o' (List.mem_of_getElem? ho'))
  · rw [List.drop_left, List.mem_singleton] at hp
    exact absurd (hp ▸ placed) unplaced

/-! ## Renderings with numbered placeholders -/

/-- the text of a query with places for its placeholders -/
def Query.shape (d : Dialect) (q : Query) : List (Option String) := Piece.collectAll (Piece.shape d) (q.pieces d)

/-- **Numbers count results.** The placeholders of a rendering are the numbers of its slots, counted from one in the
whole list of parameters. They are intact without the results if and only if the results come last. -/
theorem render_numbers {q : Query} {supply : Supply} {r : Rendered} (h : (render .postgres q supply).result = .ok r) :
    r.sql = Piece.fill (q.shape .postgres) (r.slots.map fun i => "$" ++ Decimal.ofNat (i + 1))
      ∧ (q.shape .postgres).count none = r.slots.length ∧ (∀ i ∈ r.slots, i < r.params.length)
      ∧ (r.NumbersIntact ↔ ResultsLast .postgres (q.occurrences .postgres)) := by
  have marks : ∀ i name, Dialect.postgres.placeholder i name = "$" ++ Decimal.ofNat (i + 1) := fun _ _ => rfl
  have plain : Dialect.postgres.hooks.Plain := SelectHooks.limitClause_plain
  obtain ⟨ended, rfl⟩ := Query.played_of_render h
  obtain ⟨index, ledger⟩ := Query.ledger_first ended
  have played : (Piece.playAll .postgres (q.pieces .postgres)).run ((Pass.start supply).reserve .postgres q.paramNames)
      = (.ok (), (q.played .postgres supply).2) := Prod.ext ended rfl
  obtain ⟨slots, filled⟩ := Piece.playAll_filled marks (plain.query q) played
  obtain rfl : (q.played .postgres supply).2.slots = slots := filled.slots
  refine ⟨filled.text.trans (String.empty_append ..), filled.places, fun i hi => ?_, ?_⟩
  · have used : i ∈ placedNumbers (q.occurrences .postgres) index := ledger.slots ▸ hi
    exact ledger.length ▸ ledger.numbered.bound i (mem_of_mem_placedNumbers used)
  · rw [ledger.numbered.resultsLast_iff, ← ledger.refers_iff]
    refine ⟨fun intact => intact.refers, fun refers => ⟨refers, ?_⟩⟩
    exact ledger.contiguous (ledger.refers_iff.1 refers) fun o ho => Query.occurrence_unplaced ho

/-- a row that is removed, and a call that returns a rounded amount -/
def removeThenRound : Query :=
  .script [.delete ⟨⟨none, "charge"⟩, some (.compare (.field none "id") .eq (.param (.fixed 3 (.int 5))))⟩,
    .exec (roundInto (.fixed 0 (.int 7)) (.output 1 .int))]

/-- The only result is registered behind all placeholders. -/
theorem render_numbers_removeThenRound :
    ∃ r, (render .postgres removeThenRound fun _ _ => .null).result = .ok r
      ∧ r.params.map BoundParam.direction = [.input, .input, .result]
      ∧ r.sql = Piece.fill (removeThenRound.shape .postgres) (r.slots.map fun i => "$" ++ Decimal.ofNat (i + 1))
      ∧ r.NumbersIntact := by
  have shown : (render .postgres removeThenRound fun _ _ => .null).result.toOption.map
      (·.params.map BoundParam.direction) = some [.input, .input, .result] := by decide +kernel
  rcases hr : (render .postgres removeThenRound fun _ _ => .null).result with e | r
  · rw [hr] at shown
    cases shown
  · rw [hr] at shown
    have others : ∀ o ∈ [Occurrence.param (.fixed 3 (.int 5)) .input true, .param (.fixed 0 (.int 7)) .input true],
        o.direction ≠ .result := by decide
    have last : ResultsLast .postgres (removeThenRound.occurrences .postgres) :=
      ResultsLast.snoc .postgres others (o := .param (.output 1 .int) .result false) (by decide)
    obtain ⟨text, -, -, intact⟩ := render_numbers hr
    exact ⟨r, rfl, Option.some.inj shown, text, intact.2 last⟩

/-- Behind the first of two calls that return, the parameter that receives the result has a number of its own, which no
placeholder has. -/
theorem numbers_skip_result :
    ∃ r, (render .postgres roundTwice fun _ _ => .null).result = .ok r
      ∧ r.sql = "SELECT \"billing\".\"round\"($1);\nSELECT \"billing\".\"round\"($3);"
      ∧ r.params.map BoundParam.direction = [.input, .result, .input] ∧ ¬ r.NumbersIntact := by
  have shown : (render .postgres roundTwice fun _ _ => .null).result.toOption.map (fun r =>
      (r.sql, r.params.map BoundParam.direction, r.slots.eraseDups, r.remaining.length))
        = some ("SELECT \"billing\".\"round\"($1);\nSELECT \"billing\".\"round\"($3);", [.input, .result, .input],
          [0, 2], 2)
      := by decide +kernel
  rcases hr : (render .postgres roundTwice fun _ _ => .null).result with e | r
  · rw [hr] at shown
    cases shown
  · rw [hr] at shown
    simp only [Except.toOption, Option.map_some, Option.some.injEq, Prod.mk.injEq] at shown
    obtain ⟨text, directions, slots, left⟩ := shown
    refine ⟨r, rfl, text, directions, fun intact => ?_⟩
    have contiguous := intact.contiguous
    rw [slots, left] at contiguous
    exact absurd contiguous (by decide)

end SqlTree
