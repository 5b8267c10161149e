/-
Calculations, and reading them from tokens.

A `Calculation` is arithmetic on leaves, each of which counts as one token. `Calculation.reader` reads one as is usual
in SQL: products bind more tightly than sums, operators that bind alike are read from the left, parentheses come
first. `Calculation.marks` puts parentheses where the writing of clauses puts them.

- `Calculation.Chain`: tokens that are a chain of operators which bind alike.
- `Calculation.readBack`: every calculation is read back in each place where its tokens may stand. By induction on the
  calculation; a step of a chain is an operator and a factor.
- `Calculation.ofMarks?_marks`: so the marks of a calculation are read as this calculation.
-/
import SqlTree.Proofs.Grouping.Mark
import SqlTree.Proofs.Grouping.ReadBack

namespace SqlTree

/-- arithmetic on leaves -/
inductive Calculation (α : Type) where
  | leaf (a : α)
  | node (left : Calculation α) (op : Arithmetic) (right : Calculation α)
  deriving DecidableEq, Repr

/-- how SQL spells an operator, whatever the writer makes of it -/
def Arithmetic.token : Arithmetic → String
  | .add => "+" | .sub => "-" | .mul => "*" | .div => "/" | .mod => "%"

def Arithmetic.sums : List Arithmetic := [.add, .sub]

def Arithmetic.products : List Arithmetic := [.mul, .div, .mod]

theorem Arithmetic.level (op : Arithmetic) : op ∈ sums ∧ op ∉ products ∨ op ∉ sums ∧ op ∈ products := by
  cases op <;> decide

namespace Calculation

open Arithmetic (sums products)
open Reader (next skip? expect Gives Stop after? run_there run_absent run_bind_of run_expect after?_fixedAll
  after?_stop)

variable {α β : Type}

/-- the same calculation on other leaves -/
def map (f : α → β) : Calculation α → Calculation β
  | .leaf a => .leaf (f a)
  | .node left op right => .node (map f left) op (map f right)

def leaves : Calculation α → List α
  | .leaf a => [a]
  | .node left _ right => left.leaves ++ right.leaves

/-! ## Reading -/

/-- reads the first of these operators that is there -/
def operator? : List Arithmetic → Reader α (Option Arithmetic)
  | [] => return none
  | op :: ops => do
    if ← skip? [op.token] then return some op else operator? ops

/-- reads a leaf, or a calculation in parentheses -/
def operand (nested : Reader α (Calculation α)) : Reader α (Calculation α) := do
  match ← next with
  | .placeholder a => return .leaf a
  | .fixed text =>
    if text = "(" then
      let x ← nested
      expect [")"]
      return x
    else failure
  | .ident _ => failure

/-- reads on behind a calculation as long as one of these operators follows, as often as given at most -/
def extended (ops : List Arithmetic) (member : Reader α (Calculation α)) : Nat → Calculation α →
    Reader α (Calculation α)
  | 0, _ => failure
  | n + 1, x => do
    match ← operator? ops with
    | some op =>
      let y ← member
      extended ops member n (.node x op y)
    | none => return x

/-- reads members with these operators between them, from the left -/
def chain (ops : List Arithmetic) (n : Nat) (member : Reader α (Calculation α)) : Reader α (Calculation α) := do
  let x ← member
  extended ops member n x

/-- Reads a calculation. A number larger than that of the tokens is enough. -/
def reader : Nat → Reader α (Calculation α)
  | 0 => failure
  | n + 1 => chain sums (n + 1) (chain products (n + 1) (operand (reader n)))

/-- the calculation that tokens are -/
def ofTokens? (ts : List (Token α)) : Option (Calculation α) :=
  match (reader (ts.length + 1)).run ts with
  | some (x, []) => some x
  | _ => none

def ofMarks? (ms : List (Mark α)) : Option (Calculation α) := ofTokens? (ms.flatMap Mark.tokens)

/-! ## Layout -/

/-- whether a calculation is arithmetic that binds less tightly than an operator -/
def bindsLooser (op : Arithmetic) : Calculation α → Bool
  | .leaf _ => false
  | .node _ inner _ => inner.precedence < op.precedence

def isNode : Calculation α → Bool
  | .leaf _ => false
  | .node .. => true

def isSum : Calculation α → Bool
  | .leaf _ => false
  | .node _ op _ => op ∈ sums

/-- marks in parentheses, if asked for -/
def wrapped (wrap : Bool) (ms : List (Mark α)) : List (Mark α) :=
  if wrap then .text "(" :: ms ++ [.text ")"] else ms

/-- an operator as the writer sets it, with what stands around it -/
def between (op : Arithmetic) : Mark α := .text (" " ++ op.sql ++ " ")

def marks : Calculation α → List (Mark α)
  | .leaf a => [.placeholder a]
  | .node left op right =>
    wrapped (bindsLooser op left) (marks left) ++ between op :: wrapped right.isNode (marks right)

def layout : Calculation α → List (Token α)
  | .leaf a => [.placeholder a]
  | .node left op right =>
    Token.wrapped (bindsLooser op left) (layout left) ++ .fixed op.token :: Token.wrapped right.isNode (layout right)

theorem tokens_between (op : Arithmetic) : (between op : Mark α).tokens = [.fixed op.token] := by
  have cut : ∀ op : Arithmetic, fixedTexts (" " ++ op.sql ++ " ").toList = [op.token] := by
    intro op
    cases op <;> decide +kernel
  rw [between, Mark.tokens, cut]
  rfl

theorem tokens_wrapped (wrap : Bool) (ms : List (Mark α)) :
    (wrapped wrap ms).flatMap Mark.tokens = Token.wrapped wrap (ms.flatMap Mark.tokens) := by
  cases wrap with
  | false => rfl
  | true =>
    have opening : fixedTexts "(".toList = ["("] := by decide +kernel
    have closing : fixedTexts ")".toList = [")"] := by decide +kernel
    have opened : (Mark.text "(" : Mark α).tokens = [.fixed "("] := congrArg Token.fixedAll opening
    have closed : (Mark.text ")" : Mark α).tokens = [.fixed ")"] := congrArg Token.fixedAll closing
    simp [wrapped, Token.wrapped, opened, closed]

theorem tokens_marks (x : Calculation α) : x.marks.flatMap Mark.tokens = x.layout := by
  induction x with
  | leaf => rfl
  | node left op right hl hr =>
    rw [marks, layout, List.flatMap_append, List.flatMap_cons, tokens_wrapped, tokens_wrapped, tokens_between, hl, hr]
    rfl

/-! ## Chains -/

/-- Tokens that are a chain: a member, and operators with members behind them. What may follow a member is one of the
operators, or what may follow the chain. -/
inductive Chain (ops : List Arithmetic) (member : Reader α (Calculation α)) (stop : List String) :
    List (Token α) → Calculation α → Prop where
  | one {ts x} : member.Gives (ops.map Arithmetic.token ++ stop) ts x → Chain ops member stop ts x
  | more {ts x us y} (op : Arithmetic) : Chain ops member stop ts x → op ∈ ops →
    member.Gives (ops.map Arithmetic.token ++ stop) us y →
      Chain ops member stop (ts ++ .fixed op.token :: us) (.node x op y)

theorem operator?_there {ops : List Arithmetic} {op : Arithmetic} (h : op ∈ ops) (ts : List (Token α)) :
    (operator? ops).run (.fixed op.token :: ts) = some (some op, ts) := by
  induction ops with
  | nil => cases h
  | cons o ops ih =>
    rcases eq_or_ne o op with rfl | other
    · exact run_there (if_pos rfl)
    · have differs : op.token ≠ o.token := by cases o <;> cases op <;> first | decide | exact absurd rfl other
      have absent : after? [o.token] (.fixed op.token :: ts) = none := if_neg differs
      exact (run_absent absent).trans (ih ((List.mem_cons.1 h).resolve_left (Ne.symm other)))

theorem operator?_stop {ops : List Arithmetic} {stop : List String} (apart : ∀ op ∈ ops, op.token ∉ stop)
    {ts : List (Token α)} (hs : Stop stop ts) : (operator? ops).run ts = some (none, ts) := by
  induction ops with
  | nil => rfl
  | cons op ops ih =>
    rw [List.forall_mem_cons] at apart
    exact (run_absent (after?_stop hs apart.1 [])).trans (ih apart.2)

namespace Chain

variable {ops : List Arithmetic} {member : Reader α (Calculation α)} {stop : List String} {ts : List (Token α)}
  {x : Calculation α}

/-- A chain is read up to its last member, with a try for each operator, by induction on the chain. -/
theorem run (h : Chain ops member stop ts x) :
    ∃ used ≤ ts.length, ∀ n rest, Stop (ops.map Arithmetic.token ++ stop) rest →
      (chain ops (n + used) member).run (ts ++ rest) = (extended ops member n x).run rest := by
  induction h with
  | one hx => exact ⟨0, Nat.zero_le _, fun n rest hs => run_bind_of (hx rest hs)⟩
  | @more ts x us y op _ hop hy ih =>
    obtain ⟨used, few, reads⟩ := ih
    refine ⟨used + 1, by rw [List.length_append, List.length_cons]; omega, fun n rest hs => ?_⟩
    have begins : Stop (ops.map Arithmetic.token ++ stop) (.fixed op.token :: us ++ rest) :=
      Reader.stop_cons (List.mem_append_left _ (List.mem_map_of_mem hop)) _
    rw [List.append_assoc, Nat.add_comm used, ← Nat.add_assoc, reads (n + 1) _ begins]
    exact (run_bind_of (operator?_there hop (us ++ rest))).trans (run_bind_of (hy rest hs))

/-- **A chain is read to its end**, if none of its operators follows. -/
theorem gives (h : Chain ops member stop ts x) (apart : ∀ op ∈ ops, op.token ∉ stop) {n : Nat} (hn : ts.length < n) :
    (chain ops n member).Gives stop ts x := by
  obtain ⟨used, few, reads⟩ := h.run
  obtain ⟨k, rfl⟩ : ∃ k, n = k + 1 + used := ⟨n - 1 - used, by omega⟩
  intro rest hs
  rw [reads (k + 1) rest (hs.mono (List.subset_append_right _ _))]
  exact run_bind_of (operator?_stop apart hs)

end Chain

/-! ## Reading back -/

/-- the fixed tokens that may follow a calculation -/
def closers : List String := [")"]

def behindTerm : List String := sums.map Arithmetic.token ++ closers

def behindFactor : List String := products.map Arithmetic.token ++ behindTerm

def factor (n : Nat) : Reader α (Calculation α) := operand (reader n)

def term (n : Nat) : Reader α (Calculation α) := chain products (n + 1) (factor n)

def asFactor (x : Calculation α) : List (Token α) := Token.wrapped x.isNode x.layout

def asTerm (x : Calculation α) : List (Token α) := Token.wrapped x.isSum x.layout

/-- What stands on the left of a sum needs no parentheses; on the left of a product, a sum does. -/
theorem bindsLooser_eq (op : Arithmetic) (x : Calculation α) :
    bindsLooser op x = (decide (op ∈ products) && x.isSum) := by
  cases x with
  | leaf => cases op <;> rfl
  | node _ inner _ => cases op <;> cases inner <;> rfl

theorem layout_sum {op : Arithmetic} (h : op ∈ sums) (left right : Calculation α) :
    (node left op right).layout = left.layout ++ .fixed op.token :: right.asFactor := by
  have noProduct : op ∉ products := (op.level.resolve_right fun h' => h'.1 h).2
  rw [layout, bindsLooser_eq, decide_eq_false noProduct]
  rfl

theorem layout_product {op : Arithmetic} (h : op ∈ products) (left right : Calculation α) :
    (node left op right).layout = left.asTerm ++ .fixed op.token :: right.asFactor := by
  rw [layout, bindsLooser_eq, decide_eq_true h, Bool.true_and]
  rfl

theorem asTerm_of_not_isSum {x : Calculation α} (h : x.isSum = false) : x.asTerm = x.layout := by
  rw [asTerm, h]
  rfl

/-- a calculation that is read back in each place where its tokens may stand, with tries enough -/
structure ReadBack (x : Calculation α) : Prop where
  whole : ∀ n, x.layout.length ≤ n → Chain sums (term n) closers x.layout x
  term : ∀ n, x.asTerm.length ≤ n → Chain products (factor n) behindTerm x.asTerm x
  factor : ∀ n, x.asFactor.length ≤ n → (factor n).Gives behindFactor x.asFactor x

theorem ReadBack.term_gives {x : Calculation α} (h : x.ReadBack) {n : Nat} (hn : x.asTerm.length ≤ n) :
    (Calculation.term n).Gives behindTerm x.asTerm x :=
  (h.term n hn).gives (by decide) (Nat.lt_succ_of_le hn)

theorem ReadBack.factor_gives {x : Calculation α} (h : x.ReadBack) {n : Nat} (hn : x.asFactor.length ≤ n) :
    (Calculation.term n).Gives behindTerm x.asFactor x :=
  (Chain.one (h.factor n hn)).gives (by decide) (Nat.lt_succ_of_le hn)

theorem reader_gives {x : Calculation α} {n : Nat} (h : Chain sums (term n) closers x.layout x)
    (hn : x.layout.length ≤ n) :
    (reader (n + 1)).Gives closers x.layout x :=
  h.gives (by decide) (Nat.lt_succ_of_le hn)

theorem factor_wrapped {x : Calculation α} (whole : ∀ n, x.layout.length ≤ n → Chain sums (term n) closers x.layout x)
    {n : Nat} (hn : (Token.wrapped true x.layout).length ≤ n) :
    (factor n).Gives behindFactor (Token.wrapped true x.layout) x := by
  simp only [Token.wrapped, if_true, List.length_append, List.length_cons, List.length_nil] at hn
  obtain ⟨n, rfl⟩ : ∃ m, n = m + 1 := ⟨n - 1, by omega⟩
  intro rest _
  have read := reader_gives (whole n (by omega)) (by omega) (.fixed ")" :: rest)
    (Reader.stop_cons (List.mem_singleton.2 rfl) _)
  have closed := run_expect [")"] rest
  have tokens : Token.wrapped true x.layout ++ rest = .fixed "(" :: (x.layout ++ .fixed ")" :: rest) := by
    simp [Token.wrapped]
  rw [tokens]
  show (do
    let x ← reader (n + 1)
    expect [")"]
    return x : Reader α (Calculation α)).run (x.layout ++ .fixed ")" :: rest) = _
  exact (run_bind_of read).trans (run_bind_of closed)

/-- **Every calculation is read back**, by induction on the calculation. -/
theorem readBack (x : Calculation α) : x.ReadBack := by
  induction x with
  | leaf a =>
    have factor : ∀ n, (Calculation.factor n).Gives behindFactor [.placeholder a] (.leaf a) := fun _ _ _ => rfl
    have term : ∀ n, Chain products (Calculation.factor n) behindTerm [.placeholder a] (.leaf a) :=
      fun n => .one (factor n)
    exact ⟨fun n hn => .one ((term n).gives (by decide) (Nat.lt_succ_of_le hn)), fun n _ => term n, fun n _ => factor n⟩
  | node left op right hl hr =>
    rcases op.level with ⟨sum, -⟩ | ⟨noSum, product⟩
    · have whole : ∀ n, (node left op right).layout.length ≤ n →
          Chain sums (Calculation.term n) closers (node left op right).layout (node left op right) := by
        intro n hn
        rw [layout_sum sum] at hn ⊢
        rw [List.length_append, List.length_cons] at hn
        exact .more op (hl.whole n (by omega)) sum (hr.factor_gives (by omega))
      have factor : ∀ n, (Token.wrapped true (node left op right).layout).length ≤ n →
          (Calculation.factor n).Gives behindFactor (Token.wrapped true (node left op right).layout)
            (node left op right) :=
        fun n hn => factor_wrapped whole hn
      have asTerm : (node left op right).asTerm = Token.wrapped true (node left op right).layout := by
        rw [Calculation.asTerm, isSum, decide_eq_true sum]
      exact ⟨whole, fun n hn => asTerm ▸ .one (factor n (asTerm ▸ hn)), factor⟩
    · have term : ∀ n, (node left op right).layout.length ≤ n →
          Chain products (Calculation.factor n) behindTerm (node left op right).layout (node left op right) := by
        intro n hn
        rw [layout_product product] at hn ⊢
        rw [List.length_append, List.length_cons] at hn
        exact .more op (hl.term n (by omega)) product (hr.factor n (by omega))
      have whole : ∀ n, (node left op right).layout.length ≤ n →
          Chain sums (Calculation.term n) closers (node left op right).layout (node left op right) := fun n hn =>
        .one ((term n hn).gives (by decide) (Nat.lt_succ_of_le hn))
      have asTerm : (node left op right).asTerm = (node left op right).layout :=
        asTerm_of_not_isSum (decide_eq_false noSum)
      exact ⟨whole, fun n hn => asTerm ▸ term n (asTerm ▸ hn), fun n hn => factor_wrapped whole hn⟩

theorem ofTokens?_chain {ts : List (Token α)} {x : Calculation α} (h : Chain sums (term ts.length) closers ts x) :
    ofTokens? ts = some x := by
  have read := h.gives (by decide) (Nat.lt_succ_self _) [] (Reader.stop_nil _)
  rw [List.append_nil] at read
  rw [ofTokens?, reader]
  show (match (chain sums (ts.length + 1) (term ts.length)).run ts with | some (x, []) => some x | _ => none) = _
  rw [read]

/-- **The marks of a calculation are read as this calculation.** -/
theorem ofMarks?_marks (x : Calculation α) : ofMarks? x.marks = some x := by
  rw [ofMarks?, tokens_marks]
  exact ofTokens?_chain (x.readBack.whole _ (Nat.le_refl _))

end Calculation

end SqlTree
