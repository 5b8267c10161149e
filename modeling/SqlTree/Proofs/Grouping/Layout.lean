/-
Conditions laid out as tokens.

`Condition.layout` puts parentheses where the writing of clauses puts them: around a side of a connective that is
joined by the other one, and around a predicate that is an operand, where a dialect without truth values has a CASE
instead. The members of a chain of one connective stand in a row, whatever the grouping of the chain.

- `Condition.layout_members`: the layout of a chain is that of its members with the connective between them.
- `Condition.regroup_foldl`: a chain of conditions that are regroupings of the members is a regrouping of the chain.
-/
import SqlTree.Proofs.Grouping.Condition

namespace SqlTree

open Token (fixedAll)

/-! ## Layout -/

namespace Token

variable {α : Type}

/-- tokens in parentheses, if asked for -/
def wrapped (wrap : Bool) (ts : List (Token α)) : List (Token α) :=
  if wrap then .fixed "(" :: ts ++ [.fixed ")"] else ts

/-- parts with a fixed token between them -/
def joined (separator : String) : List (List (Token α)) → List (Token α)
  | [] => []
  | [ts] => ts
  | ts :: rest => ts ++ .fixed separator :: joined separator rest

theorem joined_cons (separator : String) (ts : List (Token α)) {rest : List (List (Token α))} (h : rest ≠ []) :
    joined separator (ts :: rest) = ts ++ .fixed separator :: joined separator rest := by
  cases rest with
  | nil => exact absurd rfl h
  | cons => rfl

theorem joined_append (separator : String) {xs ys : List (List (Token α))} (hx : xs ≠ []) (hy : ys ≠ []) :
    joined separator (xs ++ ys) = joined separator xs ++ .fixed separator :: joined separator ys := by
  induction xs with
  | nil => exact absurd rfl hx
  | cons x xs ih =>
    by_cases hxs : xs = []
    · subst hxs
      exact joined_cons separator x hy
    · rw [List.cons_append, joined_cons separator x (List.append_ne_nil_of_left_ne_nil hxs ys),
        joined_cons separator x hxs,
        ih hxs, List.append_assoc, List.cons_append]

/-- There is a separator for each part behind the first. -/
theorem length_joined (separator : String) (ts : List (Token α)) (rest : List (List (Token α))) :
    ts.length + rest.length ≤ (joined separator (ts :: rest)).length := by
  induction rest generalizing ts with
  | nil => exact Nat.le_refl _
  | cons x xs ih =>
    have behind := ih x
    rw [joined_cons separator ts (List.cons_ne_nil x xs), List.length_append, List.length_cons, List.length_cons]
    omega

theorem length_le_joined (separator : String) {ts : List (Token α)} {parts : List (List (Token α))} (h : ts ∈ parts) :
    ts.length ≤ (joined separator parts).length := by
  induction parts with
  | nil => cases h
  | cons x xs ih =>
    by_cases hxs : xs = []
    · subst hxs
      rw [List.mem_singleton.1 h]
      exact Nat.le_refl _
    · rw [joined_cons separator x hxs, List.length_append, List.length_cons]
      rcases List.mem_cons.1 h with rfl | h
      · omega
      · have := ih h
        omega

end Token

namespace Condition

variable {α : Type}

def isPredicate : Condition α → Bool
  | .column .. | .placeholder _ | .null | .number _ => false
  | _ => true

/-- a condition where a value is expected; `booleans` says whether a truth value is one -/
def asValue (booleans : Bool) (c : Condition α) (ts : List (Token α)) : List (Token α) :=
  if c.isPredicate && !booleans then
    fixedAll ["CASE", "WHEN"] ++ ts ++ fixedAll ["THEN", "1", "ELSE", "0", "END"]
  else ts

def asOperand (booleans : Bool) (c : Condition α) (ts : List (Token α)) : List (Token α) :=
  Token.wrapped (c.isPredicate && booleans) (asValue booleans c ts)

/-- whether a side of a connective is joined by the other one -/
def mixes (op : Connective) : Condition α → Bool
  | .logic _ inner _ => inner != op
  | _ => false

mutual

/-- the tokens of a condition -/
def layout (booleans : Bool) : Condition α → List (Token α)
  | .column none name => [.ident name]
  | .column (some of) name => [.ident of, .fixed ".", .ident name]
  | .placeholder a => [.placeholder a]
  | .null => [.fixed "NULL"]
  | .number n => [.fixed (Decimal.ofNat n)]
  | .compare left op right =>
    asOperand booleans left (layout booleans left) ++ fixedAll op.words
      ++ asOperand booleans right (layout booleans right)
  | .isNull subject negated =>
    asOperand booleans subject (layout booleans subject)
      ++ fixedAll (if negated then ["IS", "NOT", "NULL"] else ["IS", "NULL"])
  | .inList subject item items negated =>
    asOperand booleans subject (layout booleans subject)
        ++ fixedAll (if negated then ["NOT", "IN", "("] else ["IN", "("])
      ++ Token.joined "," (asValue booleans item (layout booleans item) :: layoutAll booleans items) ++ [.fixed ")"]
  | .between subject low high =>
    asOperand booleans subject (layout booleans subject)
        ++ .fixed "BETWEEN" :: asOperand booleans low (layout booleans low)
      ++ .fixed "AND" :: asOperand booleans high (layout booleans high)
  | .not inner => fixedAll ["NOT", "("] ++ layout booleans inner ++ [.fixed ")"]
  | .logic left op right =>
    Token.wrapped (mixes op left) (layout booleans left)
      ++ .fixed op.word :: Token.wrapped (mixes op right) (layout booleans right)

def layoutAll (booleans : Bool) : List (Condition α) → List (List (Token α))
  | [] => []
  | c :: cs => asValue booleans c (layout booleans c) :: layoutAll booleans cs

end

theorem layout_ne_nil (b : Bool) (c : Condition α) : layout b c ≠ [] := by
  cases c with
  | column of name => cases of <;> exact List.cons_ne_nil _ _
  | placeholder | null | number => exact List.cons_ne_nil _ _
  | compare l op r =>
    cases op <;> exact List.append_ne_nil_of_left_ne_nil (List.append_ne_nil_of_right_ne_nil _ (List.cons_ne_nil _ _)) _
  | isNull c negated => cases negated <;> exact List.append_ne_nil_of_right_ne_nil _ (List.cons_ne_nil _ _)
  | inList c x xs negated => exact List.append_ne_nil_of_right_ne_nil _ (List.cons_ne_nil _ _)
  | between c l h => exact List.append_ne_nil_of_right_ne_nil _ (List.cons_ne_nil _ _)
  | not c => exact List.append_ne_nil_of_right_ne_nil _ (List.cons_ne_nil _ _)
  | logic l op r => exact List.append_ne_nil_of_right_ne_nil _ (List.cons_ne_nil _ _)

/-! ## Chains -/

/-- a side of a connective -/
def asSide (b : Bool) (op : Connective) (c : Condition α) : List (Token α) := Token.wrapped (mixes op c) (layout b c)

def members (op : Connective) : Condition α → List (Condition α)
  | .logic l o r => if o = op then members op l ++ members op r else [.logic l o r]
  | c => [c]

theorem members_self (op : Connective) (l r : Condition α) :
    members op (.logic l op r) = members op l ++ members op r :=
  if_pos rfl

theorem members_of_mixes {op : Connective} {c : Condition α} (h : mixes op c) : members op c = [c] := by
  cases c with
  | logic l o r => exact if_neg (by simpa [mixes] using h)
  | _ => cases h

theorem members_ne_nil (op : Connective) (c : Condition α) : members op c ≠ [] := by
  induction c using Condition.induction with
  | logic l o r hl hr =>
    rw [members]
    split
    · exact List.append_ne_nil_of_left_ne_nil hl _
    · exact List.cons_ne_nil _ _
  | _ => exact List.cons_ne_nil _ _

/-- A side of a connective is laid out as the members of its chain with the connective between them. -/
theorem layout_members (b : Bool) (op : Connective) (c : Condition α) :
    asSide b op c = Token.joined op.word ((members op c).map (asSide b op)) := by
  induction c using Condition.induction with
  | logic l o r hl hr =>
    by_cases ho : o = op
    · subst ho
      have some : ∀ c : Condition α, (members o c).map (asSide b o) ≠ [] := fun c => by simpa using members_ne_nil o c
      have apart := Token.joined_append o.word (some l) (some r)
      rw [members_self, List.map_append, apart, ← hl, ← hr, asSide, mixes, bne_self_eq_false]
      rfl
    · rw [members_of_mixes (by simpa [mixes] using ho)]
      rfl
  | _ => rfl

theorem join_assoc (op : Connective) (x y z : Condition α) : join op (join op x y) z = join op x (join op y z) := by
  induction x using Condition.induction with
  | logic l o r _ hr =>
    by_cases ho : o = op
    · subst ho
      simp only [join, if_true, hr]
    · simp only [join, if_neg ho, if_true]
  | _ => simp only [join, if_true]

/-- Joining a condition is joining the members of its chain. -/
theorem join_regroup (op : Connective) (x c : Condition α) :
    join op x c.regroup = ((members op c).map regroup).foldl (join op) x := by
  induction c using Condition.induction generalizing x with
  | logic l o r hl hr =>
    by_cases ho : o = op
    · subst ho
      rw [regroup, ← join_assoc, members_self, List.map_append, List.foldl_append, ← hl, ← hr]
    · rw [members_of_mixes (by simpa [mixes] using ho)]
      rfl
  | _ => rfl

theorem regroup_members {op : Connective} {c y : Condition α} {ys : List (Condition α)} (h : members op c = y :: ys) :
    c.regroup = (ys.map regroup).foldl (join op) y.regroup := by
  induction c using Condition.induction generalizing y ys with
  | logic l o r hl hr =>
    by_cases ho : o = op
    · subst ho
      rcases hm : members o l with _ | ⟨z, zs⟩
      · exact absurd hm (members_ne_nil o l)
      · rw [members_self, hm, List.cons_append, List.cons.injEq] at h
        obtain ⟨rfl, rfl⟩ := h
        rw [regroup, join_regroup, hl hm, List.map_append, List.foldl_append]
    · rw [members_of_mixes (by simpa [mixes] using ho)] at h
      obtain ⟨rfl, rfl⟩ := h
      rfl
  | _ =>
    obtain ⟨rfl, rfl⟩ := h
    rfl

/-- **A chain of regroupings of the members regroups the chain**, whatever the grouping of the chain was. -/
theorem regroup_foldl {op : Connective} {c x : Condition α} {xs : List (Condition α)}
    (h : (x :: xs).map regroup = (members op c).map regroup) : (xs.foldl (logic · op ·) x).regroup = c.regroup := by
  have folded : ∀ (ys : List (Condition α)) (y : Condition α),
      (ys.foldl (logic · op ·) y).regroup = (ys.map regroup).foldl (join op) y.regroup := by
    intro ys
    induction ys with
    | nil => exact fun _ => rfl
    | cons z zs ih => exact fun y => ih (y.logic op z)
  rcases hm : members op c with _ | ⟨y, ys⟩
  · exact absurd hm (members_ne_nil op c)
  · rw [hm, List.map_cons, List.map_cons, List.cons.injEq] at h
    rw [folded, regroup_members hm, h.1, h.2]

end Condition

end SqlTree
