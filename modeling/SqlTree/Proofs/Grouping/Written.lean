/-
The tokens that clauses write.

`Clause.condition?` is the condition that a clause is, if it is made of comparisons, tests for null, lists, ranges,
negations and connectives over columns, literals and parameters. An empty list makes a constant condition.

- `Laid`: pieces that are tidy marks, with the tokens of those.
- `Clause.laid`: a clause that is a condition lays out the tokens of that condition.
-/
import Mathlib.Data.List.Forall2
import SqlTree.Proofs.Grouping.Layout
import SqlTree.Proofs.Grouping.Placed

namespace SqlTree

open Token (fixedAll)

mutual

/-- the condition that a clause is, if it is one -/
def Clause.condition? : Clause → Option (Condition Occurrence)
  | .field of name => some (.column of name)
  | .constant v => some (if v.isNull then .null else .placeholder (.constant v))
  | .param p => some (.placeholder (.param p p.direction true))
  | .compare left op right => do return .compare (← left.condition?) op (← right.condition?)
  | .isNull subject negated => do return .isNull (← subject.condition?) negated
  | .inList _ [] negated => some (.compare (.number 1) .eq (.number (if negated then 1 else 0)))
  | .inList subject (item :: items) negated => do
    return .inList (← subject.condition?) (← item.condition?) (← Clause.conditions? items) negated
  | .between subject low high => do return .between (← subject.condition?) (← low.condition?) (← high.condition?)
  | .logic left op right => do return .logic (← left.condition?) op (← right.condition?)
  | .not inner => do return .not (← inner.condition?)
  | _ => none

def Clause.conditions? : List Clause → Option (List (Condition Occurrence))
  | [] => some []
  | c :: cs => do return (← c.condition?) :: (← Clause.conditions? cs)

end

/-! ## Pieces and their tokens -/

/-- pieces that are tidy marks, and the tokens of those -/
def Laid (xs : List Piece) (ts : List (Token Occurrence)) : Prop :=
  ∃ ms : List (Mark Occurrence), xs = ms.map Mark.piece ∧ Mark.Tidy ms ∧ (∀ m ∈ ms, m.isPlaced)
      ∧ ms.flatMap Mark.tokens = ts

/-- the texts that conditions are written with, and their tokens -/
def fixedWords : List (String × List String) :=
  [("(", ["("]), (")", [")"]), (", ", [","]), (".", ["."]), ("NULL", ["NULL"]), ("NOT (", ["NOT", "("]),
    ("CASE WHEN ", ["CASE", "WHEN"]), (" THEN 1 ELSE 0 END", ["THEN", "1", "ELSE", "0", "END"]),
    (" IS NULL", ["IS", "NULL"]), (" IS NOT NULL", ["IS", "NOT", "NULL"]), (" IN (", ["IN", "("]),
    (" NOT IN (", ["NOT", "IN", "("]), ("1 = 1", ["1", "=", "1"]), ("1 = 0", ["1", "=", "0"]),
    (" BETWEEN ", ["BETWEEN"]), (" AND ", ["AND"]), (" OR ", ["OR"]), (" = ", ["="]), (" <> ", ["<>"]), (" > ", [">"]),
    (" >= ", [">="]), (" < ", ["<"]), (" <= ", ["<="]), (" LIKE ", ["LIKE"]), (" NOT LIKE ", ["NOT", "LIKE"])]

theorem fixedTexts_of_mem {t : String} {words : List String} (h : (t, words) ∈ fixedWords) :
    fixedTexts t.toList = words := by
  have all : ∀ p ∈ fixedWords, fixedTexts p.1.toList = p.2 := by decide +kernel
  exact all _ h

namespace Laid

variable {xs ys : List Piece} {ts us : List (Token Occurrence)}

/-- whether a text without quotes and marks ends with a gap -/
def endsApart (t : String) : Bool := isPlainText t && t.toList.getLast?.any isGap

theorem ident (name : String) : Laid [.ident name] [.ident name] :=
  ⟨[.ident name], rfl, .single rfl, List.forall_mem_singleton.2 rfl, rfl⟩

theorem value {o : Occurrence} (ho : o.isPlaced) : Laid [.value o] [.placeholder o] :=
  ⟨[.placeholder o], rfl, .single rfl, List.forall_mem_singleton.2 ho, rfl⟩

theorem text (t : String) (words : List String) (plain : isPlainText t) (cut : fixedTexts t.toList = words) :
    Laid [.text t] (fixedAll words) :=
  ⟨[.text t], rfl, .single plain, List.forall_mem_singleton.2 rfl, by rw [List.flatMap_singleton, Mark.tokens, cut]⟩

/-- Text that ends with a gap may stand in front of anything. -/
theorem opened (t : String) (words : List String) (ends : endsApart t) (cut : fixedTexts t.toList = words)
    (h : Laid xs ts) : Laid (.text t :: xs) (fixedAll words ++ ts) := by
  obtain ⟨ms, rfl, tidy, placed, rfl⟩ := h
  rw [endsApart, Bool.and_eq_true] at ends
  refine ⟨.text t :: ms, rfl, ⟨ends.1, .inl ends.2, tidy⟩, List.forall_mem_cons.2 ⟨rfl, placed⟩, ?_⟩
  rw [List.flatMap_cons, Mark.tokens, cut]

/-- What begins with text that begins with a gap may stand behind anything. -/
theorem behind {t : String} (apart : isApart t) (hx : Laid xs ts) (hy : Laid (.text t :: ys) us) :
    Laid (xs ++ .text t :: ys) (ts ++ us) := by
  obtain ⟨ms, rfl, tidy, placed, rfl⟩ := hx
  obtain ⟨ns, eq, tidy', placed', rfl⟩ := hy
  rw [isApart, Bool.and_eq_true] at apart
  refine ⟨ms ++ ns, by rw [List.map_append, eq], tidy.append tidy' fun m hm => ?_,
    List.forall_mem_append.2 ⟨placed, placed'⟩,
    List.flatMap_append⟩
  rcases ns with _ | ⟨n, ns⟩
  · cases hm
  · obtain rfl : n = m := Option.some.inj hm
    cases n with
    | text t' =>
      obtain ⟨rfl, -⟩ : t = t' ∧ _ := by simpa [Mark.piece] using eq
      exact apart.2
    | ident | placeholder => simp [Mark.piece] at eq

/-- Two parts with text between them that keeps apart from both. -/
theorem joined (t : String) (words : List String) (apart : isApart t) (ends : endsApart t)
    (cut : fixedTexts t.toList = words) (hx : Laid xs ts) (hy : Laid ys us) :
    Laid (xs ++ .text t :: ys) (ts ++ (fixedAll words ++ us)) :=
  hx.behind apart (hy.opened t words ends cut)

theorem closed (t : String) (words : List String) (apart : isApart t) (cut : fixedTexts t.toList = words)
    (h : Laid xs ts) : Laid (xs ++ [.text t]) (ts ++ fixedAll words) := by
  have plain : isPlainText t := by
    rw [isApart, Bool.and_eq_true] at apart
    exact apart.1
  exact h.behind apart (text t words plain cut)

theorem wrapped (wrap : Bool) (h : Laid xs ts) : Laid (Piece.wrapped wrap xs) (Token.wrapped wrap ts) := by
  cases wrap with
  | false => exact h
  | true =>
    exact (h.closed ")" [")"] (by decide) (fixedTexts_of_mem (by decide))).opened "(" ["("] (by decide)
      (fixedTexts_of_mem (by decide))

theorem separated {parts : List (List Piece)} {tss : List (List (Token Occurrence))} (h : List.Forall₂ Laid parts tss)
    (some : parts ≠ []) : Laid (Piece.separated ", " parts) (Token.joined "," tss) := by
  induction h with
  | nil => exact absurd rfl some
  | @cons xs ts rest tss hx hrest ih =>
    rcases hrest with _ | ⟨hy, hys⟩
    · simpa [Piece.separated, Token.joined] using hx
    · rename_i y us rest tss
      have tail := ih (List.cons_ne_nil y rest)
      have whole : Piece.separated ", " (xs :: y :: rest) = xs ++ .text ", " :: Piece.separated ", " (y :: rest) := by
        simp [Piece.separated]
      rw [whole, Token.joined_cons "," ts (List.cons_ne_nil us tss)]
      exact hx.joined ", " [","] (by decide) (by decide) (fixedTexts_of_mem (by decide)) tail

section
variable {d : Dialect} {c : Clause} {x : Condition Occurrence} (same : x.isPredicate = c.isPredicate)

include same

theorem asValue (h : Laid xs ts) : Laid (Piece.asValue d c xs) (Condition.asValue d.caps.booleanExpressions x ts) := by
  rw [Piece.asValue, Condition.asValue, same]
  split
  · have opening := h.opened "CASE WHEN " ["CASE", "WHEN"] (by decide) (fixedTexts_of_mem (by decide))
    exact opening.closed " THEN 1 ELSE 0 END" ["THEN", "1", "ELSE", "0", "END"] (by decide)
      (fixedTexts_of_mem (by decide))
  · exact h

theorem asOperand (h : Laid xs ts) : Laid (Piece.asOperand d c xs)
    (Condition.asOperand d.caps.booleanExpressions x ts) := by
  rw [Piece.asOperand, Condition.asOperand, same]
  exact (asValue same h).wrapped _

end

end Laid

/-! ## Clauses -/

theorem Comparison.spelled (op : Comparison) : isApart (" " ++ op.sql ++ " ") ∧ Laid.endsApart (" " ++ op.sql ++ " ")
    ∧ fixedTexts (" " ++ op.sql ++ " ").toList = op.words := by
  cases op <;> exact ⟨by decide, by decide, fixedTexts_of_mem (by decide)⟩

theorem Connective.spelled (op : Connective) : isApart (" " ++ op.sql ++ " ") ∧ Laid.endsApart (" " ++ op.sql ++ " ")
    ∧ fixedTexts (" " ++ op.sql ++ " ").toList = [op.word] := by
  cases op <;> exact ⟨by decide, by decide, fixedTexts_of_mem (by decide)⟩

namespace Clause

variable {l r c m : Clause} {cs : List Clause} {x : Condition Occurrence}

/-- a clause that is a condition, by what is right below it -/
inductive Conditional : Clause → Condition Occurrence → Prop
  | column (of : Option String) (name : String) : Conditional (.field of name) (.column of name)
  | null {v : Value} (h : v.isNull = true) : Conditional (.constant v) .null
  | literal {v : Value} (h : v.isNull = false) : Conditional (.constant v) (.placeholder (.constant v))
  | param (p : Parameter) : Conditional (.param p) (.placeholder (.param p p.direction true))
  | compare {l r : Clause} {y z : Condition Occurrence} (op : Comparison) (hl : l.condition? = some y)
    (hr : r.condition? = some z) : Conditional (.compare l op r) (.compare y op z)
  | isNull {c : Clause} {y : Condition Occurrence} (negated : Bool) (h : c.condition? = some y) :
    Conditional (.isNull c negated) (.isNull y negated)
  | inNone (c : Clause) (negated : Bool) :
    Conditional (.inList c [] negated) (.compare (.number 1) .eq (.number (if negated then 1 else 0)))
  | inSome {c m : Clause} {cs : List Clause} {y z : Condition Occurrence} {zs : List (Condition Occurrence)}
    (negated : Bool) (h : c.condition? = some y) (hs : conditions? (m :: cs) = some (z :: zs)) :
    Conditional (.inList c (m :: cs) negated) (.inList y z zs negated)
  | between {c l r : Clause} {y z w : Condition Occurrence} (h : c.condition? = some y) (hl : l.condition? = some z)
    (hr : r.condition? = some w) : Conditional (.between c l r) (.between y z w)
  | logic {l r : Clause} {y z : Condition Occurrence} (op : Connective) (hl : l.condition? = some y)
    (hr : r.condition? = some z) : Conditional (.logic l op r) (.logic y op z)
  | not {c : Clause} {y : Condition Occurrence} (h : c.condition? = some y) : Conditional (.not c) (.not y)

/-- The condition of a clause comes from the conditions right below it. -/
theorem conditional (h : c.condition? = some x) : Conditional c x := by
  cases c with
  | field of name =>
    cases h
    exact .column of name
  | param p =>
    cases h
    exact .param p
  | constant v =>
    rw [condition?] at h
    cases hv : v.isNull with
    | true =>
      rw [hv] at h
      cases h
      exact .null hv
    | false =>
      rw [hv] at h
      cases h
      exact .literal hv
  | compare | logic =>
    obtain ⟨y, hl, h⟩ := Option.bind_eq_some_iff.1 h
    obtain ⟨z, hr, ⟨⟩⟩ := Option.bind_eq_some_iff.1 h
    constructor
    · exact hl
    · exact hr
  | isNull | not =>
    obtain ⟨y, hc, ⟨⟩⟩ := Option.bind_eq_some_iff.1 h
    constructor
    exact hc
  | between =>
    obtain ⟨y, hc, h⟩ := Option.bind_eq_some_iff.1 h
    obtain ⟨z, hl, h⟩ := Option.bind_eq_some_iff.1 h
    obtain ⟨w, hr, ⟨⟩⟩ := Option.bind_eq_some_iff.1 h
    exact .between hc hl hr
  | inList c cs negated =>
    cases cs with
    | nil =>
      cases h
      exact .inNone c negated
    | cons m cs =>
      obtain ⟨y, hc, h⟩ := Option.bind_eq_some_iff.1 h
      obtain ⟨z, hm, h⟩ := Option.bind_eq_some_iff.1 h
      obtain ⟨zs, hcs, ⟨⟩⟩ := Option.bind_eq_some_iff.1 h
      exact .inSome negated hc (by rw [conditions?, hm, hcs]; rfl)
  | _ => cases h

theorem alike (h : c.condition? = some x) :
    x.isPredicate = c.isPredicate ∧ ∀ op, Condition.mixes op x = Writing.mixes op c := by
  cases conditional h <;> exact ⟨rfl, fun _ => rfl⟩

variable {d : Dialect}

theorem laid_operand (h : c.condition? = some x) (hc : Laid (c.pieces d) (x.layout d.caps.booleanExpressions)) :
    Laid (Piece.asOperand d c (c.pieces d))
      (Condition.asOperand d.caps.booleanExpressions x (x.layout d.caps.booleanExpressions)) :=
  hc.asOperand (alike h).1

theorem laid_side (h : c.condition? = some x) (hc : Laid (c.pieces d) (x.layout d.caps.booleanExpressions))
    (op : Connective) :
    Laid (Piece.wrapped (Writing.mixes op c) (c.pieces d))
      (Token.wrapped (Condition.mixes op x) (x.layout d.caps.booleanExpressions)) := by
  rw [(alike h).2]
  exact hc.wrapped _

theorem laid_items {xs : List (Condition Occurrence)} (h : conditions? cs = some xs)
    (hcs : ∀ c ∈ cs, ∀ x, c.condition? = some x → Laid (c.pieces d) (x.layout d.caps.booleanExpressions)) :
    List.Forall₂ Laid ((piecesAll d cs).map fun (c, body) => Piece.asValue d c body)
      (Condition.layoutAll d.caps.booleanExpressions xs) := by
  induction cs generalizing xs with
  | nil =>
    cases h
    exact .nil
  | cons c cs ih =>
    obtain ⟨y, hc, h⟩ := Option.bind_eq_some_iff.1 h
    obtain ⟨ys, hys, ⟨⟩⟩ := Option.bind_eq_some_iff.1 h
    rw [List.forall_mem_cons] at hcs
    exact .cons ((hcs.1 y hc).asValue (alike hc).1) (ih hys hcs.2)

/-- **A clause that is a condition lays out its tokens**, by induction on the clause. -/
theorem laid (d : Dialect) :
    (∀ c : Clause, ∀ x, c.condition? = some x → Laid (c.pieces d) (x.layout d.caps.booleanExpressions))
      ∧ ∀ _ : Select, True := by
  refine operandInduction (fun c parts _ x h => ?_) fun _ _ => trivial
  cases conditional h with
  | column of name =>
    cases of with
    | none => exact .ident name
    | some of =>
      exact (Laid.ident of).joined "." ["."] (by decide) (by decide) (fixedTexts_of_mem (by decide)) (.ident name)
  | null hv =>
    rw [pieces, hv]
    exact .text "NULL" ["NULL"] (by decide) (fixedTexts_of_mem (by decide))
  | literal hv =>
    rw [pieces, hv]
    exact .value rfl
  | param p => exact .value rfl
  | compare op hl hr =>
    have left := laid_operand hl (parts _ (by simp [operands]) _ hl)
    have right := laid_operand hr (parts _ (by simp [operands]) _ hr)
    obtain ⟨apart, ends, cut⟩ := op.spelled
    rw [pieces, Condition.layout, List.append_assoc]
    exact left.joined _ _ apart ends cut right
  | logic op hl hr =>
    have left := laid_side hl (parts _ (by simp [operands]) _ hl) op
    have right := laid_side hr (parts _ (by simp [operands]) _ hr) op
    obtain ⟨apart, ends, cut⟩ := op.spelled
    exact left.joined _ _ apart ends cut right
  | isNull negated hc =>
    have subject := laid_operand hc (parts _ (by simp [operands]) _ hc)
    cases negated with
    | true => exact subject.closed " IS NOT NULL" _ (by decide) (fixedTexts_of_mem (by decide))
    | false => exact subject.closed " IS NULL" _ (by decide) (fixedTexts_of_mem (by decide))
  | inNone c negated =>
    cases negated with
    | true => exact .text "1 = 1" ["1", "=", "1"] (by decide) (fixedTexts_of_mem (by decide))
    | false => exact .text "1 = 0" ["1", "=", "0"] (by decide) (fixedTexts_of_mem (by decide))
  | inSome negated hc hs =>
    have subject := laid_operand hc (parts _ (by simp [operands]) _ hc)
    have items := Laid.separated (laid_items hs fun c hc => parts c (List.mem_cons_of_mem _ hc)) (List.cons_ne_nil _ _)
    have words : fixedTexts (if negated then " NOT IN (" else " IN (").toList
        = if negated then ["NOT", "IN", "("] else ["IN", "("] := by
      cases negated <;> exact fixedTexts_of_mem (by decide)
    have whole := subject.joined (if negated then " NOT IN (" else " IN (") _ (by cases negated <;> decide)
      (by cases negated <;> decide) words (items.closed ")" [")"] (by decide) (fixedTexts_of_mem (by decide)))
    rw [pieces, Condition.layout]
    simpa [fixedAll, Piece.values, Condition.layoutAll] using whole
  | between hc hl hr =>
    have subject := laid_operand hc (parts _ (by simp [operands]) _ hc)
    have low := laid_operand hl (parts _ (by simp [operands]) _ hl)
    have high := laid_operand hr (parts _ (by simp [operands]) _ hr)
    have bounds := low.joined " AND " ["AND"] (by decide) (by decide) (fixedTexts_of_mem (by decide)) high
    have whole := subject.joined " BETWEEN " ["BETWEEN"] (by decide) (by decide) (fixedTexts_of_mem (by decide)) bounds
    rw [pieces, Condition.layout]
    simpa [fixedAll] using whole
  | not hc =>
    have inner := parts _ (by simp [operands]) _ hc
    have opening := inner.opened "NOT (" ["NOT", "("] (by decide) (fixedTexts_of_mem (by decide))
    exact opening.closed ")" [")"] (by decide) (fixedTexts_of_mem (by decide))

end Clause

end SqlTree
