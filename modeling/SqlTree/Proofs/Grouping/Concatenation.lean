/-
What concatenations are read as.

SQL Server concatenates with the sign of addition, and a part that is arithmetic is written without parentheses. So a
part that is a sum or a difference runs on into what stands before it, and every other part is an operand by itself.

- `Calculation.graft`: a calculation with another one written behind it as a summand.
- `concat_reads_back`: a concatenation is written if its parts are, and read as these, each grafted onto those before
  it; they are its operands if and only if no part behind the first is a sum or a difference.
- `concat_regrouped`: a part that is a difference loses its first term to the part before it.
-/
import SqlTree.Proofs.Grouping.Arithmetic

namespace SqlTree

open Arithmetic (sums)
open Writing (Sets)

namespace Calculation

variable {α β : Type}

/-- a calculation with another one behind it as a summand, but without parentheses: what that begins with is added,
and the rest of its chain goes on from there -/
def graft (x : Calculation α) : Calculation α → Calculation α
  | .leaf a => .node x .add (.leaf a)
  | .node left op right => if op ∈ sums then .node (graft x left) op right else .node x .add (.node left op right)

theorem graft_of_not_isSum (x : Calculation α) {y : Calculation α} (h : y.isSum = false) :
    graft x y = .node x .add y := by
  cases y with
  | leaf => rfl
  | node left op right => exact if_neg (of_decide_eq_false h)

theorem graft_ne (x z : Calculation α) {y : Calculation α} (h : y.isSum = true) : graft x y ≠ .node z .add y := by
  cases y with
  | leaf => cases h
  | node left op right =>
    rw [graft, if_pos (of_decide_eq_true h)]
    intro same
    have larger := congrArg sizeOf (node.inj same).2.2
    simp at larger

theorem map_graft (f : α → β) (x y : Calculation α) : (graft x y).map f = graft (x.map f) (y.map f) := by
  induction y with
  | leaf => rfl
  | node left op right hl =>
    rw [graft, map, graft]
    split
    · rw [map, hl]
    · rfl

theorem map_foldl_graft (f : α → β) (x : Calculation α) (xs : List (Calculation α)) :
    (xs.foldl graft x).map f = (xs.map (map f)).foldl graft (x.map f) := by
  induction xs generalizing x with
  | nil => rfl
  | cons y ys ih => rw [List.foldl_cons, ih, map_graft, List.map_cons, List.foldl_cons]

/-- **Grafting keeps parts apart if and only if none of them is a sum**, by induction on the parts from
the last one back. -/
theorem foldl_graft_eq_iff (x : Calculation α) (xs : List (Calculation α)) :
    xs.foldl graft x = xs.foldl (.node · .add ·) x ↔ ∀ y ∈ xs, y.isSum = false := by
  induction xs using List.reverseRecOn with
  | nil => simp
  | append_singleton xs y ih =>
    rw [List.foldl_append, List.foldl_append, List.forall_mem_append, List.forall_mem_singleton, ← ih]
    cases h : y.isSum with
    | true =>
      refine iff_of_false (graft_ne _ _ h) ?_
      rintro ⟨-, ⟨⟩⟩
    | false =>
      show graft _ y = _ ↔ _
      rw [graft_of_not_isSum _ h]
      simp

/-- calculations with the sign of addition between them -/
def concatenated (x : Calculation α) (xs : List (Calculation α)) : List (Mark α) :=
  x.marks ++ xs.flatMap fun y => between .add :: y.marks

/-- A chain goes on with what is written behind it, by induction on that. -/
theorem chain_graft {n : Nat} {ts : List (Token α)} {x y : Calculation α} (h : Chain sums (term n) closers ts x)
    (hn : y.layout.length ≤ n) : Chain sums (term n) closers (ts ++ .fixed "+" :: y.layout) (graft x y) := by
  -- what is no sum is one term
  have apart : ∀ y : Calculation α, y.isSum = false → y.layout.length ≤ n →
      Chain sums (term n) closers (ts ++ .fixed "+" :: y.layout) (.node x .add y) := by
    intro y single hn
    rw [← asTerm_of_not_isSum single] at hn ⊢
    exact h.more .add (by decide) (y.readBack.term_gives hn)
  induction y with
  | leaf a => exact apart (.leaf a) rfl hn
  | node left op right hl _ =>
    by_cases sum : op ∈ sums
    · rw [layout_sum sum, List.length_append, List.length_cons] at hn
      have whole := (hl (by omega)).more op sum (right.readBack.factor_gives (by omega))
      rw [graft, if_pos sum, layout_sum sum]
      rwa [List.append_assoc] at whole
    · rw [graft, if_neg sum]
      exact apart _ (decide_eq_false sum) hn

theorem tokens_concatenated (x : Calculation α) (xs : List (Calculation α)) :
    (concatenated x xs).flatMap Mark.tokens = x.layout ++ xs.flatMap fun y => .fixed "+" :: y.layout := by
  have behind : ∀ y : Calculation α, (between .add :: y.marks).flatMap Mark.tokens = .fixed "+" :: y.layout :=
    fun y => by
    rw [List.flatMap_cons, tokens_between, tokens_marks]
    rfl
  rw [concatenated, List.flatMap_append, tokens_marks, List.flatMap_assoc]
  simp only [behind]

/-- Concatenated calculations are a chain, by induction on what is behind the first from the last one back. -/
theorem chain_concatenated {n : Nat} (x : Calculation α) (xs : List (Calculation α))
    (hn : (x.layout ++ xs.flatMap fun y => .fixed "+" :: y.layout).length ≤ n) :
    Chain sums (term n) closers (x.layout ++ xs.flatMap fun y => .fixed "+" :: y.layout) (xs.foldl graft x) := by
  induction xs using List.reverseRecOn with
  | nil =>
    rw [List.flatMap_nil, List.append_nil] at hn ⊢
    exact x.readBack.whole n hn
  | append_singleton xs y ih =>
    rw [List.flatMap_append, List.flatMap_singleton, ← List.append_assoc] at hn ⊢
    rw [List.length_append, List.length_cons] at hn
    rw [List.foldl_append]
    exact chain_graft (ih (by omega)) (by omega)

/-- **Concatenated calculations are read as grafted onto one another.** -/
theorem ofMarks?_concatenated (x : Calculation α) (xs : List (Calculation α)) :
    ofMarks? (concatenated x xs) = some (xs.foldl graft x) := by
  rw [ofMarks?, tokens_concatenated]
  exact ofTokens?_chain (chain_concatenated x xs (Nat.le_refl _))

end Calculation

/-! ## Clauses -/

mutual

/-- the parts of a clause as a part of a concatenation: those of a concatenation that stands
directly there are its own -/
def Clause.concatParts : Clause → List Clause
  | .concat cs => Clause.concatPartsAll cs
  | c => [c]

def Clause.concatPartsAll : List Clause → List Clause
  | [] => []
  | c :: cs => c.concatParts ++ Clause.concatPartsAll cs

end

/-- What a concatenation gathers from its parts, it gathers from the parts that it has when those inside it
are taken apart too. -/
theorem Clause.flatMap_concatParts {γ : Type} {f : Clause → List γ} (gathers : ∀ cs, f (.concat cs) = cs.flatMap f)
    (c : Clause) : f c = c.concatParts.flatMap f := by
  refine Clause.concatParts.induct (fun c => f c = c.concatParts.flatMap f)
    (fun cs => cs.flatMap f = (concatPartsAll cs).flatMap f) ?_ ?_ ?_ ?_ c
  · intro cs ih
    rw [gathers, concatParts, ih]
  · intro c other
    rw [concatParts]
    · exact (List.flatMap_singleton ..).symm
    · exact other
  · rfl
  · intro c cs hc hcs
    rw [List.flatMap_cons, concatPartsAll, List.flatMap_append, hc, hcs]

mutual

/-- whether a clause as a part of a concatenation is something: a concatenation is not if it, or one directly inside it,
has no parts -/
def Clause.isFilled : Clause → Bool
  | .concat cs => !cs.isEmpty && Clause.areFilled cs
  | _ => true

/-- whether each of some clauses is something as a part of a concatenation -/
def Clause.areFilled : List Clause → Bool
  | [] => true
  | c :: cs => c.isFilled && Clause.areFilled cs

end

theorem Clause.isFilled_of_mem {cs : List Clause} (h : areFilled cs) {c : Clause} (hc : c ∈ cs) : c.isFilled := by
  induction cs with
  | nil => cases hc
  | cons x xs ih =>
    rw [areFilled, Bool.and_eq_true] at h
    rcases List.mem_cons.1 hc with rfl | hc
    · exact h.1
    · exact ih h.2 hc

/-- marks of concatenated calculations that clauses are -/
def ConcatMarks (d : Dialect) (cs : List Clause) (ms : List (Mark (Leaf d))) : Prop :=
  ∃ (x : Calculation (Leaf d)) (xs : List (Calculation (Leaf d))),
    (x :: xs).map (Calculation.map Leaf.clause) = cs.map Clause.calculation ∧ ms = Calculation.concatenated x xs

/-- What is written behind other parts, each behind the sign of addition. -/
theorem ConcatMarks.behind {d : Dialect} {cs cs' : List Clause} {ms ms' : List (Mark (Leaf d))}
    (h : ConcatMarks d cs ms)
    (h' : ConcatMarks d cs' ms') : ConcatMarks d (cs ++ cs') (ms ++ Calculation.between .add :: ms') := by
  obtain ⟨x, xs, same, rfl⟩ := h
  obtain ⟨y, ys, same', rfl⟩ := h'
  refine ⟨x, xs ++ y :: ys, ?_, ?_⟩
  · rw [List.map_append, ← same, ← same', ← List.map_append]
    rfl
  · simp [Calculation.concatenated]

theorem Writing.separated_cons (separator : String) (w v : Writing Unit) (ws : List (Writing Unit)) :
    separated separator (w :: v :: ws) = (do
      w
      emit separator
      separated separator (v :: ws)) := by
  simp [separated]

/-- Parts with the sign between them set the marks of all their parts, by induction on them. -/
theorem separated_sets {c : Clause} {cs : List Clause}
    (h : ∀ x ∈ c :: cs, (Writing.clause .sqlServer x).Sets .sqlServer (ConcatMarks .sqlServer x.concatParts)) :
    (Writing.separated " + " ((c :: cs).map (Writing.clause .sqlServer))).Sets .sqlServer
      (ConcatMarks .sqlServer (Clause.concatPartsAll (c :: cs))) := by
  induction cs generalizing c with
  | nil =>
    have whole := h c (List.mem_singleton.2 rfl)
    simpa [Writing.separated, Clause.concatPartsAll] using whole
  | cons c' cs ih =>
    rw [List.forall_mem_cons] at h
    rw [List.map_cons, List.map_cons, Writing.separated_cons, Clause.concatPartsAll]
    refine (h.1.seq ((Sets.emit " + ").seq (ih h.2))).mono ?_
    rintro _ ⟨_, _, first, ⟨_, _, rfl, rest, rfl⟩, rfl⟩
    exact first.behind rest

/-- **A part of a concatenation sets the marks of its parts**, by induction on the clause. -/
theorem parts_sets :
    (∀ c : Clause, c.isFilled → (Writing.clause .sqlServer c).Sets .sqlServer (ConcatMarks .sqlServer c.concatParts))
      ∧ ∀ _ : Select, True := by
  have hooks := (Dialect.readable_of_mem (d := .sqlServer) (by simp [Dialect.all])).hooks.orderly
  have single : ∀ c : Clause, c.concatParts = [c] →
      (Writing.clause .sqlServer c).Sets .sqlServer (ConcatMarks .sqlServer c.concatParts) := by
    intro c alone
    refine (c.calculation_sets hooks).mono ?_
    rintro _ ⟨found, same, rfl⟩
    exact ⟨found, [], by rw [alone, List.map_singleton, List.map_singleton, same], by simp [Calculation.concatenated]⟩
  refine Clause.operandInduction (fun c parts _ filled => ?_) fun _ _ => trivial
  cases c with
  | concat cs =>
    rw [Clause.isFilled, Bool.and_eq_true] at filled
    obtain ⟨some, all⟩ := filled
    have operand : ∀ c, Writing.asOperand .sqlServer c (Writing.node .sqlServer c) = Writing.clause .sqlServer c := by
      intro c
      rw [Writing.asOperand, show Dialect.sqlServer.caps.booleanExpressions = false from rfl, Bool.and_false]
      rfl
    have written : Writing.clause .sqlServer (.concat cs) = (do
        Writing.emit ""
        Writing.separated " + " (cs.map (Writing.clause .sqlServer))
        Writing.emit "") := by
      rw [← List.map_congr_left fun c _ => operand c, ← Piece.zipWith_nodes]
      rfl
    rcases cs with _ | ⟨c, cs⟩
    · cases some
    · have each := separated_sets fun x hx => parts x hx (Clause.isFilled_of_mem all hx)
      rw [written]
      refine (Sets.silent.seq (each.seq Sets.silent)).mono ?_
      rintro _ ⟨_, _, rfl, ⟨ms, _, set, rfl, rfl⟩, rfl⟩
      rw [List.nil_append, List.append_nil, Clause.concatParts]
      exact set
  | _ => exact single _ rfl

/-- **What a concatenation is read as.** It is written if and only if its parts are, if its explicit names are
reserved. Its parts are read from the left, each grafted onto those before it; they are the operands of the
concatenation if and only if no part behind the first is a sum or a difference. -/
theorem concat_reads_back {parts : List Clause} (filled : (Clause.concat parts).isFilled) (s : Pass) :
    (s.Keyed → (∀ n ∈ explicitNames (Clause.concat parts).occurrences, Dialect.sqlServer.canonicalName n ∈ s.reserved) →
        ((∃ t, (Writing.clause .sqlServer (.concat parts)).run s = (.ok (), t))
          ↔ ∀ part ∈ (Clause.concat parts).concatParts, ∃ t, (Writing.clause .sqlServer part).run s = (.ok (), t)))
      ∧ ∀ t, (Writing.clause .sqlServer (.concat parts)).run s = (.ok (), t) →
        ∃ (x : Calculation Clause) (xs : List (Calculation Clause)) (ms : List (Mark (Leaf .sqlServer)))
          (found : Calculation (Leaf .sqlServer)), (Clause.concat parts).concatParts.map Clause.calculation = x :: xs
            ∧ t.text.toList = s.text.toList ++ Leaf.chars ms ∧ Calculation.ofMarks? ms = some found
            ∧ found.map Leaf.clause = xs.foldl Calculation.graft x
            ∧ (found.map Leaf.clause = xs.foldl (.node · .add ·) x ↔ ∀ y ∈ xs, y.isSum = false) := by
  have hooks := (Dialect.readable_of_mem (d := .sqlServer) (by simp [Dialect.all])).hooks.orderly
  have demands := Clause.flatMap_concatParts (f := Clause.demands) (fun cs => Clause.demandsAll_eq cs) (.concat parts)
  have occurrences := Clause.flatMap_concatParts (f := Clause.occurrences) (fun cs => Clause.occurrencesAll_eq cs)
    (.concat parts)
  refine ⟨clause_written_iff_all hooks demands occurrences, fun t h => ?_⟩
  obtain ⟨_, ⟨x, xs, same, rfl⟩, text⟩ := parts_sets.1 _ filled s t h
  have found : (xs.foldl Calculation.graft x).map Leaf.clause
      = (xs.map (Calculation.map Leaf.clause)).foldl Calculation.graft (x.map Leaf.clause) :=
    Calculation.map_foldl_graft _ _ _
  refine ⟨_, _, _, _, same.symm, text, Calculation.ofMarks?_concatenated x xs, found, ?_⟩
  rw [found]
  exact Calculation.foldl_graft_eq_iff _ _

def labelled : List Clause :=
  [.field none "a", .concat [.calc (.field none "b") .mul (.field none "c"), .field none "d"]]

/-- A product and a concatenation keep apart from what stands around them. -/
theorem concat_reads_back_labelled :
    ∃ (t : Pass) (ms : List (Mark (Leaf .sqlServer))) (found : Calculation (Leaf .sqlServer)),
      (Writing.clause .sqlServer (.concat labelled)).run (.start fun _ _ => .null) = (.ok (), t)
        ∧ t.text = "[a] + [b] * [c] + [d]" ∧ t.text.toList = Leaf.chars ms ∧ Calculation.ofMarks? ms = some found
        ∧ found.map Leaf.clause
          = .node (.node (.leaf (.field none "a")) .add
              (.node (.leaf (.field none "b")) .mul (.leaf (.field none "c")))) .add (.leaf (.field none "d")) := by
  have ran : ((Writing.clause .sqlServer (.concat labelled)).run (.start fun _ _ => .null)).1 = .ok () := rfl
  have shown : ((Writing.clause .sqlServer (.concat labelled)).run (.start fun _ _ => .null)).2.text
      = "[a] + [b] * [c] + [d]" := by decide +kernel
  have filled : (Clause.concat labelled).isFilled := rfl
  obtain ⟨_, _, ms, found, parts, text, read, same, -⟩ := (concat_reads_back filled _).2 _ (Prod.ext ran rfl)
  cases parts
  exact ⟨_, ms, found, Prod.ext ran rfl, shown, text, read, same⟩

/-- the token of a name as that of a leaf -/
def Token.asLeaf : Token String → Token String
  | .ident name => .placeholder name
  | t => t

/-- the calculation that a text is, names being its leaves -/
def Calculation.ofText? (d : Dialect) (text : List Char) : Option (Calculation String) := do
  let ts ← tokens d text
  ofTokens? (ts.map Token.asLeaf)

def shortened : List Clause := [.field none "a", .calc (.field none "b") .sub (.field none "c")]

/-- **A part that is a difference is not kept apart.** This concatenation is accepted, and its text is read as a
difference whose left side is a sum of the first part and of what the second part begins with. -/
theorem concat_regrouped :
    (Clause.concat shortened).check = .ok ()
      ∧ ∃ t : Pass, (Writing.clause .sqlServer (.concat shortened)).run (.start fun _ _ => .null) = (.ok (), t)
        ∧ t.text = "[a] + [b] - [c]"
        ∧ Calculation.ofText? .sqlServer t.text.toList
          = some (.node (.node (.leaf "a") .add (.leaf "b")) .sub (.leaf "c"))
        ∧ Calculation.ofText? .sqlServer t.text.toList
          ≠ some (.node (.leaf "a") .add (.node (.leaf "b") .sub (.leaf "c"))) := by
  have read : Calculation.ofText? .sqlServer "[a] + [b] - [c]".toList
      = some (.node (.node (.leaf "a") .add (.leaf "b")) .sub (.leaf "c")) := by decide +kernel
  have shown : ((Writing.clause .sqlServer (.concat shortened)).run (.start fun _ _ => .null)).2.text
      = "[a] + [b] - [c]" := by decide +kernel
  obtain ⟨t, ran⟩ : ∃ t, (Writing.clause .sqlServer (.concat shortened)).run (.start fun _ _ => .null) = (.ok (), t) :=
    ⟨_, rfl⟩
  rw [ran] at shown
  refine ⟨rfl, t, ran, shown, ?_, ?_⟩
  · rw [shown, read]
  · rw [shown, read]
    decide

end SqlTree
