/-
Where each parameter occurs first.

A pass registers a parameter where it writes its first occurrence and knows it from there on, so what it has
registered is a function of what it has written.

- `firstOccurrences`: the occurrences at which something is registered, in order.
- `Query.ledger_first`: they are those of the ledger behind a query, so the number of a parameter in a rendering is
  `Query.numberOf?`, and what is bound there is told by `Query.firstOf?`.
-/
import Mathlib.Data.List.Induction
import SqlTree.Proofs.Rendering.Ledger

namespace SqlTree

/-- whether an occurrence is one of a parameter that a dialect knows by this key -/
def Occurrence.isOf (d : Dialect) (k : ParamKey) (o : Occurrence) : Bool := o.key? d == some k

def Occurrence.isKnown (d : Dialect) (before : List Occurrence) (o : Occurrence) : Bool :=
  (o.key? d).any fun k => before.any (isOf d k)

/-- the literals, and of the occurrences of each parameter the first -/
def firstOccurrences (d : Dialect) (os : List Occurrence) : List Occurrence :=
  os.foldl (fun firsts o => if o.isKnown d firsts then firsts else firsts ++ [o]) []

/-- the first occurrence of what occurs: of the same parameter, or the literal itself -/
def Occurrence.firstIn (d : Dialect) (os : List Occurrence) (o : Occurrence) : Occurrence :=
  ((o.key? d).bind fun k => os.find? (isOf d k)).getD o

section
variable {d : Dialect} {os : List Occurrence} {o : Occurrence}

theorem Occurrence.isOf_iff {k : ParamKey} : o.isOf d k ↔ o.key? d = some k := beq_iff_eq

/-- The first occurrence of what occurs is it, or one of the same parameter. -/
theorem Occurrence.firstIn_spec (d : Dialect) (ho : o ∈ os) :
    o.firstIn d os ∈ os ∧ (o = o.firstIn d os ∨ o.SameAs d (o.firstIn d os)) := by
  rw [firstIn]
  rcases key : o.key? d with _ | k
  · exact ⟨ho, .inl rfl⟩
  · rw [Option.bind_some]
    rcases hf : os.find? (isOf d k) with _ | f
    · exact ⟨ho, .inl rfl⟩
    · exact ⟨List.mem_of_find?_eq_some hf, .inr ⟨k, key, isOf_iff.1 (List.find?_some hf)⟩⟩

theorem firstOccurrences_snoc (d : Dialect) (os : List Occurrence) (o : Occurrence) :
    firstOccurrences d (os ++ [o])
      = if o.isKnown d (firstOccurrences d os) then firstOccurrences d os else firstOccurrences d os ++ [o] := by
  rw [firstOccurrences, List.foldl_append, List.foldl_cons, List.foldl_nil, ← firstOccurrences]

/-- The first occurrence of a parameter is found among the first occurrences as it is found among all. -/
theorem find?_firstOccurrences (d : Dialect) (os : List Occurrence) (k : ParamKey) :
    (firstOccurrences d os).find? (Occurrence.isOf d k) = os.find? (Occurrence.isOf d k) := by
  induction os using List.reverseRecOn with
  | nil => rfl
  | append_singleton os o ih =>
    rw [firstOccurrences_snoc, List.find?_append, ← ih]
    split
    · rename_i known
      -- the occurrence is none of this parameter, or else an earlier one has been found
      cases ho : o.isOf d k with
      | false => rw [List.find?_cons_of_neg (by simp [ho]), List.find?_nil, Option.or_none]
      | true =>
        rw [Occurrence.isKnown, Occurrence.isOf_iff.1 ho, Option.any_some, List.any_eq_true] at known
        obtain ⟨f, hf, same⟩ := known
        rcases hfound : (firstOccurrences d os).find? (Occurrence.isOf d k) with _ | g
        · exact absurd same (List.find?_eq_none.1 hfound f hf)
        · rfl
    · rw [List.find?_append]

end

/-! ## The ledger -/

/-- the number that a parameter of this key has in a rendering of a query -/
def Query.numberOf? (d : Dialect) (q : Query) (k : ParamKey) : Option Nat :=
  (firstOccurrences d (q.occurrences d)).findIdx? (Occurrence.isOf d k)

def Query.firstOf? (d : Dialect) (q : Query) (k : ParamKey) : Option Occurrence :=
  (q.occurrences d).find? (Occurrence.isOf d k)

namespace Ledger

variable {d : Dialect} {supply : Supply} {os firsts : List Occurrence} {index : List Nat} {s : Pass}

theorem any_isOf (h : Ledger d supply os index firsts s) (k : ParamKey) :
    firsts.any (Occurrence.isOf d k) = (s.index? k).isSome := by
  rw [h.keys, List.findIdx?_isSome]
  rfl

/-- **The step of the ledger, with its first occurrences.** What is registered was not known before. -/
theorem play_first (h : Ledger d supply os index (firstOccurrences d os) s) {o : Occurrence} {t : Pass}
    (ht : (o.play d).run s = (.ok (), t)) :
    ∃ index', Ledger d supply (os ++ [o]) index' (firstOccurrences d (os ++ [o])) t := by
  have unknown : (∀ k, o.key? d = some k → s.index? k = none) → o.isKnown d (firstOccurrences d os) = false := by
    intro new
    rw [Occurrence.isKnown]
    rcases hk : o.key? d with _ | k
    · rfl
    · rw [Option.any_some, h.any_isOf, new k hk, Option.isSome_none]
  rw [firstOccurrences_snoc]
  cases Occurrence.play_registers ht with
  | again key known =>
    have isKnown : o.isKnown d (firstOccurrences d os) := by
      rw [Occurrence.isKnown, key, Option.any_some, h.any_isOf, known, Option.isSome_some]
    rw [if_pos isKnown]
    exact ⟨_, h.again key known⟩
  | generated new =>
    rw [unknown new]
    exact ⟨_, (h.withGenerated s.nextNumber).first new _⟩
  | named new =>
    rw [unknown new]
    exact ⟨_, h.first new _⟩

end Ledger

theorem Numbered.find?_firsts {d : Dialect} {os firsts : List Occurrence} {index : List Nat}
    (h : Numbered d os index firsts) {n : Nat} {f : Occurrence} {k : ParamKey} (hf : firsts[n]? = some f)
    (hk : f.key? d = some k) : firsts.find? (Occurrence.isOf d k) = some f := by
  rcases hg : firsts.find? (Occurrence.isOf d k) with _ | g
  · exact absurd (Occurrence.isOf_iff.2 hk) (List.find?_eq_none.1 hg f (List.mem_of_getElem? hf))
  · obtain ⟨m, lt, rfl⟩ := List.mem_iff_getElem.1 (List.mem_of_find?_eq_some hg)
    have isOf := Occurrence.isOf_iff.1 (List.find?_some hg)
    obtain ⟨i, there, number, -⟩ := h.order n f hf
    obtain ⟨j, there', number', -⟩ := h.order m _ (List.getElem?_eq_getElem lt)
    obtain rfl := (h.same i j f _ n m there there' number number').2 (.inr ⟨k, hk, isOf⟩)
    rw [← hf, List.getElem?_eq_getElem lt]

/-- An occurrence is numbered as the first occurrence of what it is. -/
theorem Ledger.getElem?_index {d : Dialect} {supply : Supply} {os : List Occurrence} {index : List Nat} {s : Pass}
    (h : Ledger d supply os index (firstOccurrences d os) s) {j n : Nat} {o : Occurrence} (ho : os[j]? = some o)
    (hn : index[j]? = some n) : (firstOccurrences d os)[n]? = some (o.firstIn d os) := by
  have first := List.getElem?_eq_getElem (h.numbered.bound n (List.mem_of_getElem? hn))
  rw [first, Occurrence.firstIn]
  rcases h.numbered.sameAs_first ho hn first with same | ⟨k, key, key'⟩
  · rw [← same] at first ⊢
    rcases key : o.key? d with _ | k
    · rfl
    · rw [Option.bind_some, ← find?_firstOccurrences, h.numbered.find?_firsts first key, Option.getD_some]
  · rw [key, Option.bind_some, ← find?_firstOccurrences, h.numbered.find?_firsts first key', Option.getD_some]

/-- **What a query registers is its first occurrences.** -/
theorem Query.ledger_first {d : Dialect} {q : Query} {supply : Supply} (h : (q.played d supply).1 = .ok ()) :
    ∃ index, Ledger d supply (q.occurrences d) index (firstOccurrences d (q.occurrences d)) (q.played d supply).2 := by
  refine Query.played_keeps (I := fun os s => ∃ index, Ledger d supply os index (firstOccurrences d os) s) ?_ ?_ ?_ h
  · rintro os s text frames ⟨index, ledger⟩
    exact ⟨index, ledger.rewrite text frames⟩
  · rintro os o s t ⟨index, ledger⟩ ht
    exact ledger.play_first ht
  · exact ⟨[], .start d supply q.paramNames⟩

theorem render_ledger {d : Dialect} {q : Query} {supply : Supply} {r : Rendered}
    (h : (render d q supply).result = .ok r) :
    ∃ index s, Ledger d supply (q.occurrences d) index (firstOccurrences d (q.occurrences d)) s ∧ s.finish = r := by
  obtain ⟨played, finish⟩ := Query.played_of_render h
  obtain ⟨index, ledger⟩ := Query.ledger_first played
  exact ⟨index, _, ledger, finish⟩

/-- A parameter that occurs in a query has a number, and is bound there as its first occurrence has it. -/
theorem render_numberOf {d : Dialect} {q : Query} {supply : Supply} {r : Rendered}
    (h : (render d q supply).result = .ok r) {k : ParamKey} {f : Occurrence} (hf : q.firstOf? d k = some f) :
    ∃ n b, q.numberOf? d k = some n ∧ r.params[n]? = some b
      ∧ b.From supply ((firstOccurrences d (q.occurrences d)).take n) f := by
  obtain ⟨index, s, ledger, rfl⟩ := render_ledger h
  rw [Query.firstOf?, ← find?_firstOccurrences] at hf
  rcases hn : q.numberOf? d k with _ | n
  · have isOf := List.findIdx?_eq_none_iff.1 hn f (List.mem_of_find?_eq_some hf)
    rw [List.find?_some hf] at isOf
    cases isOf
  · obtain ⟨lt, isOf, before⟩ := List.findIdx?_eq_some_iff_getElem.1 hn
    have found := List.find?_eq_some_iff_getElem.2 ⟨isOf, n, lt, rfl, fun j hj => by simp [before j hj]⟩
    obtain rfl := Option.some.inj (hf.symm.trans found)
    have bound := List.getElem?_eq_getElem (ledger.length ▸ lt)
    exact ⟨n, _, rfl, bound, ledger.params n _ _ bound (List.getElem?_eq_getElem lt)⟩

end SqlTree
