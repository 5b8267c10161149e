/-
Arithmetic reads back as it was.

`Clause.calculation` is the calculation that a clause is: arithmetic is a tree of operators, and what stands below
them, a name, a placeholder, a call or a query in parentheses, counts as one token. A `Leaf` is such a clause with a
text that it is written with.

- `Writing.Sets`: what is known of the marks that writing adds.
- `calculation_reads_back`: a calculation is written if its leaves are, and what is written is read as this
  calculation, on every dialect.
-/
import SqlTree.Proofs.Grouping.Calculation
import SqlTree.Proofs.Rendering.Added

namespace SqlTree

/-- the calculation that a clause is; what is no arithmetic itself is a leaf -/
def Clause.calculation : Clause → Calculation Clause
  | .calc left op right => .node left.calculation op right.calculation
  | c => .leaf c

/-- a clause and a text that writing it adds -/
structure Leaf (d : Dialect) where
  clause : Clause
  text : String
  gives : (Writing.clause d clause).Gives text

/-- the characters of marks, each leaf having its own text -/
def Leaf.chars {d : Dialect} (ms : List (Mark (Leaf d))) : List Char := ms.flatMap (Mark.chars d Leaf.text)

theorem Leaf.chars_append {d : Dialect} (xs ys : List (Mark (Leaf d))) : chars (xs ++ ys) = chars xs ++ chars ys :=
  List.flatMap_append

/-! ## Writing marks -/

namespace Writing

/-- writing that adds marks of which something is known, wherever it runs to the end -/
def Sets (d : Dialect) (w : Writing Unit) (P : List (Mark (Leaf d)) → Prop) : Prop :=
  ∀ s t, w.run s = (.ok (), t) → ∃ ms, P ms ∧ t.text.toList = s.text.toList ++ Leaf.chars ms

namespace Sets

variable {d : Dialect} {w v : Writing Unit} {P Q : List (Mark (Leaf d)) → Prop}

theorem mono (h : w.Sets d P) (hPQ : ∀ ms, P ms → Q ms) : w.Sets d Q := fun s t ran => by
  obtain ⟨ms, hms, text⟩ := h s t ran
  exact ⟨ms, hPQ ms hms, text⟩

theorem emit (text : String) : (emit text).Sets d (· = [.text text]) := by
  rintro s t ⟨⟩
  refine ⟨_, rfl, ?_⟩
  show (s.text ++ text).toList = _
  rw [String.toList_append, Leaf.chars, List.flatMap_singleton]
  rfl

theorem silent : (Writing.emit "").Sets d (· = []) := by
  rintro s t ⟨⟩
  refine ⟨_, rfl, ?_⟩
  show (s.text ++ "").toList = _
  rw [String.append_empty, Leaf.chars, List.flatMap_nil, List.append_nil]

theorem seq (hw : w.Sets d P) (hv : v.Sets d Q) :
    (do w; v : Writing Unit).Sets d fun ms => ∃ xs ys, P xs ∧ Q ys ∧ ms = xs ++ ys := by
  intro s u ran
  obtain ⟨_, t, first, second⟩ := run_bind_ok ran
  obtain ⟨xs, hxs, before⟩ := hw s t first
  obtain ⟨ys, hys, behind⟩ := hv t u second
  exact ⟨xs ++ ys, ⟨xs, ys, hxs, hys, rfl⟩, by rw [behind, before, Leaf.chars_append, List.append_assoc]⟩

theorem wrapped (wrap : Bool) (hw : w.Sets d P) :
    (Writing.wrapped wrap w).Sets d fun ms => ∃ xs, P xs ∧ ms = Calculation.wrapped wrap xs := by
  cases wrap with
  | false => exact hw.mono fun ms hms => ⟨ms, hms, rfl⟩
  | true =>
    refine ((emit "(").seq (hw.seq (emit ")"))).mono ?_
    rintro _ ⟨_, _, rfl, ⟨xs, _, hxs, rfl, rfl⟩, rfl⟩
    exact ⟨xs, hxs, rfl⟩

/-- A clause that counts as one token is a mark. -/
theorem leaf (hooks : d.hooks.Orderly) (c : Clause) :
    (clause d c).Sets d fun ms => ∃ a : Leaf d, a.clause = c ∧ ms = [.placeholder a] := by
  intro s t ran
  obtain ⟨text, added⟩ := clause_adds hooks c s t ran
  refine ⟨_, ⟨⟨c, text, added.gives⟩, rfl, rfl⟩, ?_⟩
  rw [added.text, String.toList_append, Leaf.chars, List.flatMap_singleton]
  rfl

end Sets
end Writing

open Writing (Sets)

/-! ## Clauses -/

theorem Clause.calculation_alike (c : Clause) :
    c.calculation.isNode = Writing.isCalc c ∧ ∀ op, c.calculation.bindsLooser op = Writing.bindsLooser op c := by
  cases c with
  | «calc» left inner right =>
    refine ⟨rfl, fun op => ?_⟩
    rw [calculation]
    rfl
  | _ => exact ⟨rfl, fun _ => rfl⟩

theorem Calculation.map_alike {α β : Type} (f : α → β) (x : Calculation α) :
    (x.map f).isNode = x.isNode ∧ ∀ op, (x.map f).bindsLooser op = x.bindsLooser op := by
  cases x <;> exact ⟨rfl, fun _ => rfl⟩

/-- **A clause sets the marks of its calculation**, by induction on the clause. -/
theorem Clause.calculation_sets {d : Dialect} (hooks : d.hooks.Orderly) (c : Clause) :
    (Writing.clause d c).Sets d fun ms =>
      ∃ found : Calculation (Leaf d), found.map Leaf.clause = c.calculation ∧ ms = found.marks := by
  induction c using Clause.calculation.induct with
  | case1 left op right hl hr =>
    refine ((hl.wrapped _).seq ((Sets.emit _).seq (hr.wrapped _))).mono ?_
    rintro _ ⟨_, _, ⟨_, ⟨found, same, rfl⟩, rfl⟩, ⟨_, _, rfl, ⟨_, ⟨found', same', rfl⟩, rfl⟩, rfl⟩, rfl⟩
    refine ⟨.node found op found', by rw [Calculation.map, same, same', calculation], ?_⟩
    rw [Calculation.marks, ← (found.map_alike Leaf.clause).2, ← (found'.map_alike Leaf.clause).1, same, same',
      left.calculation_alike.2, right.calculation_alike.1]
    rfl
  | case2 c other =>
    refine (Sets.leaf hooks c).mono ?_
    rintro _ ⟨a, rfl, rfl⟩
    refine ⟨.leaf a, ?_, rfl⟩
    rw [calculation]
    · rfl
    · exact other

/-- A calculation asks for what its leaves ask for. -/
theorem Clause.demands_leaves (c : Clause) : c.demands = c.calculation.leaves.flatMap demands := by
  induction c using Clause.calculation.induct with
  | case1 left op right hl hr => rw [calculation, Calculation.leaves, List.flatMap_append, ← hl, ← hr, demands]
  | case2 c other =>
    rw [calculation]
    · exact (List.flatMap_singleton ..).symm
    · exact other

/-- What occurs in a calculation occurs in its leaves. -/
theorem Clause.occurrences_leaves (c : Clause) : c.occurrences = c.calculation.leaves.flatMap occurrences := by
  induction c using Clause.calculation.induct with
  | case1 left op right hl hr => rw [calculation, Calculation.leaves, List.flatMap_append, ← hl, ← hr, occurrences]
  | case2 c other =>
    rw [calculation]
    · exact (List.flatMap_singleton ..).symm
    · exact other

/-- **The grouping of arithmetic survives writing.** A clause is written if and only if its leaves are, if its
explicit names are reserved. What is written is the text of marks, each leaf standing there as a text that it is
written with; and the marks are read as the calculation that the clause is. -/
theorem calculation_reads_back {d : Dialect} (hd : d ∈ Dialect.all) (c : Clause) (s : Pass) :
    (s.Keyed → (∀ n ∈ explicitNames c.occurrences, d.canonicalName n ∈ s.reserved) →
        ((∃ t, (Writing.clause d c).run s = (.ok (), t))
          ↔ ∀ leaf ∈ c.calculation.leaves, ∃ t, (Writing.clause d leaf).run s = (.ok (), t)))
      ∧ ∀ t, (Writing.clause d c).run s = (.ok (), t) →
        ∃ (ms : List (Mark (Leaf d))) (found : Calculation (Leaf d)), t.text.toList = s.text.toList ++ Leaf.chars ms
          ∧ Calculation.ofMarks? ms = some found ∧ found.map Leaf.clause = c.calculation := by
  have hooks := (Dialect.readable_of_mem hd).hooks.orderly
  refine ⟨clause_written_iff_all hooks c.demands_leaves c.occurrences_leaves, fun t h => ?_⟩
  obtain ⟨_, ⟨found, same, rfl⟩, text⟩ := c.calculation_sets hooks s t h
  exact ⟨_, found, text, found.ofMarks?_marks, same⟩

/-- a sum that is multiplied, and a difference that is taken away from it -/
def netPrice : Clause :=
  .calc (.calc (.calc (.field none "a") .add (.field none "b")) .mul (.field none "c")) .sub
    (.calc (.aggregate .sum (some (.field none "d")) false) .sub (.constant (.int 1)))

/-- The parentheses around a sum in a product, and around a difference on the right, are there. -/
theorem calculation_reads_back_netPrice :
    ∃ (t : Pass) (ms : List (Mark (Leaf .sqlServer))) (found : Calculation (Leaf .sqlServer)),
      (Writing.clause .sqlServer netPrice).run (.start fun _ _ => .null) = (.ok (), t)
        ∧ t.text = "([a] + [b]) * [c] - (SUM([d]) - @p1)" ∧ t.text.toList = Leaf.chars ms
        ∧ Calculation.ofMarks? ms = some found ∧ found.map Leaf.clause = netPrice.calculation := by
  have shown : ((Writing.clause .sqlServer netPrice).run (.start fun _ _ => .null)).2.text
      = "([a] + [b]) * [c] - (SUM([d]) - @p1)" := by decide +kernel
  obtain ⟨t, ran⟩ : ∃ t, (Writing.clause .sqlServer netPrice).run (.start fun _ _ => .null) = (.ok (), t) := ⟨_, rfl⟩
  have known : Dialect.sqlServer ∈ Dialect.all := by simp [Dialect.all]
  obtain ⟨ms, found, text, read, same⟩ := (calculation_reads_back known netPrice _).2 t ran
  rw [ran] at shown
  exact ⟨t, ms, found, ran, shown, text, read, same⟩

end SqlTree
