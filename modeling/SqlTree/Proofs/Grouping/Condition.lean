/-
Conditions, and reading them from tokens.

A `Condition` is a predicate, or a value that predicates are made of. `Condition.reader` reads one with the precedence
that is usual in SQL: OR binds less tightly than AND, AND less than NOT, NOT less than comparisons and the other tests,
and the AND of a BETWEEN belongs to it. Chains of AND or OR are read from the left. Where a value is expected,
`CASE WHEN p THEN 1 ELSE 0 END` is read as the predicate `p`.

- `Condition.regroup`: two conditions are regroupings of each other if this makes them equal.
- `Condition.reader_alike`: what is read does not depend on what stands for the placeholders.
-/
import SqlTree.Proofs.Grouping.Token

namespace SqlTree

/-- a predicate or a value that predicates are made of, with `α` for placeholders -/
inductive Condition (α : Type) where
  | column (of : Option String) (name : String)
  | placeholder (a : α)
  | null
  | number (n : Nat)
  | compare (left : Condition α) (op : Comparison) (right : Condition α)
  | isNull (subject : Condition α) (negated : Bool)
  /-- membership in a list, which has an item at least -/
  | inList (subject item : Condition α) (items : List (Condition α)) (negated : Bool)
  | between (subject low high : Condition α)
  | not (inner : Condition α)
  | logic (left : Condition α) (op : Connective) (right : Condition α)

namespace Condition

variable {α β : Type}

/-- what holds of every condition, if each constructor hands it on from its parts -/
theorem induction {P : Condition α → Prop} (column : ∀ of name, P (.column of name))
    (placeholder : ∀ a, P (.placeholder a))
    (null : P .null) (number : ∀ n, P (.number n)) (compare : ∀ l op r, P l → P r → P (.compare l op r))
    (isNull : ∀ c negated, P c → P (.isNull c negated))
    (inList : ∀ c x xs negated, P c → P x → (∀ y ∈ xs, P y) → P (.inList c x xs negated))
    (between : ∀ c l h, P c → P l → P h → P (.between c l h)) (not : ∀ c, P c → P (.not c))
    (logic : ∀ l op r, P l → P r → P (.logic l op r)) (c : Condition α) : P c := by
  have cons : ∀ x xs, P x → (∀ y ∈ xs, P y) → ∀ y ∈ x :: xs, P y := fun x xs hx hxs y hy => by
    rcases List.mem_cons.1 hy with rfl | hy
    · exact hx
    · exact hxs y hy
  exact @Condition.rec α P (fun cs => ∀ x ∈ cs, P x) column placeholder null number compare isNull inList between
    not logic (by simp) cons c

mutual

/-- the same condition with something else for its placeholders -/
def map (f : α → β) : Condition α → Condition β
  | .column of name => .column of name
  | .placeholder a => .placeholder (f a)
  | .null => .null
  | .number n => .number n
  | .compare left op right => .compare (map f left) op (map f right)
  | .isNull subject negated => .isNull (map f subject) negated
  | .inList subject item items negated => .inList (map f subject) (map f item) (mapAll f items) negated
  | .between subject low high => .between (map f subject) (map f low) (map f high)
  | .not inner => .not (map f inner)
  | .logic left op right => .logic (map f left) op (map f right)

def mapAll (f : α → β) : List (Condition α) → List (Condition β)
  | [] => []
  | c :: cs => map f c :: mapAll f cs

end

theorem mapAll_eq (f : α → β) (cs : List (Condition α)) : mapAll f cs = cs.map (map f) := by
  induction cs with
  | nil => rfl
  | cons c cs ih => rw [mapAll, ih, List.map_cons]

/-! ## Regrouping -/

/-- a condition joined to another one behind it, the chain of the first running on into the second -/
def join (op : Connective) : Condition α → Condition α → Condition α
  | .logic x o y, c => if o = op then .logic x op (join op y c) else .logic (.logic x o y) op c
  | x, c => .logic x op c

mutual

/-- the condition with every chain of one connective grouped to the right -/
def regroup : Condition α → Condition α
  | .column of name => .column of name
  | .placeholder a => .placeholder a
  | .null => .null
  | .number n => .number n
  | .compare left op right => .compare (regroup left) op (regroup right)
  | .isNull subject negated => .isNull (regroup subject) negated
  | .inList subject item items negated => .inList (regroup subject) (regroup item) (regroupAll items) negated
  | .between subject low high => .between (regroup subject) (regroup low) (regroup high)
  | .not inner => .not (regroup inner)
  | .logic left op right => join op (regroup left) (regroup right)

def regroupAll : List (Condition α) → List (Condition α)
  | [] => []
  | c :: cs => regroup c :: regroupAll cs

end

theorem regroupAll_eq (cs : List (Condition α)) : regroupAll cs = cs.map regroup := by
  induction cs with
  | nil => rfl
  | cons c cs ih => rw [regroupAll, ih, List.map_cons]

end Condition

/-! ## Readers -/

/-- reading something at the front of tokens -/
abbrev Reader (α β : Type) := StateT (List (Token α)) Option β

namespace Reader

variable {α β γ δ : Type}

def next : Reader α (Token α)
  | [] => none
  | t :: ts => some (t, ts)

/-- what follows fixed tokens -/
def after? : List String → List (Token α) → Option (List (Token α))
  | [], ts => some ts
  | w :: ws, .fixed text :: ts => if text = w then after? ws ts else none
  | _ :: _, _ => none

/-- reads fixed tokens, if they are there, and tells whether they are -/
def skip? (words : List String) : Reader α Bool := fun ts =>
  match after? words ts with
  | some rest => some (true, rest)
  | none => some (false, ts)

/-- reads fixed tokens, which have to be there -/
def expect (words : List String) : Reader α Unit := do
  if ← skip? words then return () else failure

/-- reads one thing or several with fixed tokens between them, at most as many as given -/
def separatedBy (separator : String) (member : Reader α β) : Nat → Reader α (β × List β)
  | 0 => failure
  | n + 1 => do
    let x ← member
    if ← skip? [separator] then
      let (y, ys) ← separatedBy separator member n
      return (x, y :: ys)
    else
      return (x, [])

end Reader

/-- how SQL spells a comparison, whatever the writer makes of it -/
def Comparison.words : Comparison → List String
  | .eq => ["="] | .ne => ["<>"] | .gt => [">"] | .gte => [">="] | .lt => ["<"] | .lte => ["<="]
  | .like => ["LIKE"] | .notLike => ["NOT", "LIKE"]

def Connective.word : Connective → String
  | .and => "AND" | .or => "OR"

namespace Condition

open Reader (next skip? expect separatedBy)

variable {α β : Type}

/-- reads the first of these comparisons that is there -/
def comparison? : List Comparison → Reader α (Option Comparison)
  | [] => return none
  | op :: ops => do
    if ← skip? op.words then return some op else comparison? ops

def columnNamed (name : String) : Reader α (Condition α) := do
  if ← skip? ["."] then
    match ← next with
    | .ident member => return .column (some name) member
    | _ => failure
  else
    return .column none name

/-- reads what a fixed token begins: NULL, a condition in parentheses, one that CASE makes a number of, or a number -/
def begunBy (nested : Reader α (Condition α)) (text : String) : Reader α (Condition α) :=
  if text = "NULL" then return .null
  else if text = "(" then do
    let c ← nested
    expect [")"]
    return c
  else if text = "CASE" then do
    expect ["WHEN"]
    let c ← nested
    expect ["THEN", "1", "ELSE", "0", "END"]
    return c
  else
    match Decimal.nat? text.toList with
    | some n => return .number n
    | none => failure

/-- reads a value: a column, a placeholder, or what a fixed token begins -/
def operand (nested : Reader α (Condition α)) : Reader α (Condition α) := do
  match ← next with
  | .ident name => columnNamed name
  | .placeholder a => return .placeholder a
  | .fixed text => begunBy nested text

def items (n : Nat) (nested : Reader α (Condition α)) (subject : Condition α) (negated : Bool) :
    Reader α (Condition α) := do
  let (x, xs) ← separatedBy "," nested n
  expect [")"]
  return .inList subject x xs negated

/-- reads what is said of an operand, if anything is -/
def said (n : Nat) (nested : Reader α (Condition α)) (c : Condition α) : Reader α (Condition α) := do
  if ← skip? ["IS", "NULL"] then
    return .isNull c false
  else if ← skip? ["IS", "NOT", "NULL"] then
    return .isNull c true
  else if ← skip? ["IN", "("] then
    items n nested c false
  else if ← skip? ["NOT", "IN", "("] then
    items n nested c true
  else if ← skip? ["BETWEEN"] then
    let low ← operand nested
    expect ["AND"]
    let high ← operand nested
    return .between c low high
  else
    match ← comparison? Comparison.all with
    | some op => return .compare c op (← operand nested)
    | none => return c

/-- reads an operand and what is said of it -/
def test (n : Nat) (nested : Reader α (Condition α)) : Reader α (Condition α) := do
  said n nested (← operand nested)

/-- reads a test behind any number of NOT -/
def negation (member : Reader α (Condition α)) : Nat → Reader α (Condition α)
  | 0 => failure
  | n + 1 => do
    if ← skip? ["NOT"] then return .not (← negation member n) else member

/-- reads a chain of one connective -/
def chain (op : Connective) (n : Nat) (member : Reader α (Condition α)) : Reader α (Condition α) := do
  let (c, cs) ← separatedBy op.word member n
  return cs.foldl (.logic · op ·) c

/-- Reads a condition. A number as large as that of the tokens is enough. -/
def reader : Nat → Reader α (Condition α)
  | 0 => failure
  | n + 1 => chain .or n (chain .and n (negation (test n (reader n)) n))

/-- the condition that a text is -/
def ofText? (d : Dialect) (text : List Char) : Option (Condition String) := do
  let ts ← tokens d text
  match (reader (ts.length + 1)).run ts with
  | some (c, []) => some c
  | _ => none

end Condition


/-! ## Placeholders do not matter -/

namespace Reader

variable {α β γ δ ε ζ : Type} {f : α → β} {g : γ → δ} {h : ε → ζ}

/-- readers that read the same, whatever stands for the placeholders -/
def Alike (f : α → β) (g : γ → δ) (r : Reader α γ) (r' : Reader β δ) : Prop :=
  ∀ ts, r'.run (ts.map (Token.map f)) = (r.run ts).map (Prod.map g (List.map (Token.map f)))

theorem after?_map (words : List String) (ts : List (Token α)) :
    after? words (ts.map (Token.map f)) = (after? words ts).map (List.map (Token.map f)) := by
  induction words generalizing ts with
  | nil => rfl
  | cons w ws ih =>
    rcases ts with _ | ⟨name | a | text, ts⟩
    · rfl
    · rfl
    · rfl
    · simp only [List.map_cons, Token.map, after?]
      split
      · exact ih ts
      · rfl

namespace Alike

theorem pure (x : γ) : Alike f g (Pure.pure x) (Pure.pure (g x)) := fun _ => rfl

theorem failure : Alike f g Alternative.failure Alternative.failure := fun _ => rfl

theorem bind {r : Reader α γ} {r' : Reader β δ} {k : γ → Reader α ε} {k' : δ → Reader β ζ} (hr : Alike f g r r')
    (hk : ∀ x, Alike f h (k x) (k' (g x))) : Alike f h (r >>= k) (r' >>= k') := by
  intro ts
  rw [StateT.run_bind, StateT.run_bind, hr ts]
  cases r.run ts with
  | none => rfl
  | some read => exact hk read.1 read.2

theorem next : Alike f (Token.map f) Reader.next Reader.next := by
  rintro (_ | ⟨t, ts⟩) <;> rfl

theorem skip? (words : List String) : Alike f id (Reader.skip? words) (Reader.skip? words) := by
  intro ts
  show Reader.skip? words (ts.map (Token.map f)) = (Reader.skip? words ts).map _
  rw [Reader.skip?, Reader.skip?, after?_map]
  cases after? words ts <;> rfl

theorem ifSkipped {words : List String} {r s : Reader α γ} {r' s' : Reader β δ} (hr : Alike f g r r')
    (hs : Alike f g s s') :
    Alike f g (do if ← Reader.skip? words then r else s) (do if ← Reader.skip? words then r' else s') := by
  refine (skip? words).bind fun b => ?_
  cases b with
  | true => exact hr
  | false => exact hs

theorem expect (words : List String) : Alike f id (Reader.expect words) (Reader.expect words) :=
  ifSkipped (.pure _) .failure

theorem separatedBy (separator : String) {r : Reader α γ} {r' : Reader β δ} (hr : Alike f g r r') (n : Nat) :
    Alike f (Prod.map g (List.map g)) (Reader.separatedBy separator r n) (Reader.separatedBy separator r' n) := by
  induction n with
  | zero => exact .failure
  | succ n ih =>
    refine hr.bind fun x => ifSkipped (ih.bind fun xs => ?_) (.pure _)
    exact .pure (x, xs.1 :: xs.2)

end Alike

end Reader

namespace Condition

open Reader (Alike)

variable {α β : Type} {f : α → β} {nested : Reader α (Condition α)} {nested' : Reader β (Condition β)}

theorem comparison?_alike (ops : List Comparison) : Alike f id (comparison? ops) (comparison? ops) := by
  induction ops with
  | nil => exact .pure _
  | cons op ops ih => exact .ifSkipped (.pure _) ih

theorem columnNamed_alike (name : String) : Alike f (map f) (columnNamed name) (columnNamed name) := by
  refine .ifSkipped (Alike.next.bind fun t => ?_) (.pure (column none name))
  rcases t with member | a | text
  · exact .pure (column (some name) member)
  · exact .failure
  · exact .failure

theorem begunBy_alike (h : Alike f (map f) nested nested') (text : String) :
    Alike f (map f) (begunBy nested text) (begunBy nested' text) := by
  unfold begunBy
  split
  · exact .pure null
  · split
    · exact h.bind fun c => (Alike.expect _).bind fun _ => .pure c
    · split
      · exact (Alike.expect _).bind fun _ => h.bind fun c => (Alike.expect _).bind fun _ => .pure c
      · split
        · exact .pure (number _)
        · exact .failure

theorem operand_alike (h : Alike f (map f) nested nested') : Alike f (map f) (operand nested) (operand nested') := by
  refine Alike.next.bind fun t => ?_
  rcases t with name | a | text
  · exact columnNamed_alike name
  · exact .pure (placeholder a)
  · exact begunBy_alike h text

theorem items_alike (h : Alike f (map f) nested nested') (n : Nat) (subject : Condition α) (negated : Bool) :
    Alike f (map f) (items n nested subject negated) (items n nested' (subject.map f) negated) := by
  refine (h.separatedBy "," n).bind fun xs => (Alike.expect _).bind fun _ => ?_
  have read : (inList (subject.map f) (xs.1.map f) (xs.2.map (map f)) negated)
      = map f (.inList subject xs.1 xs.2 negated) := by
    rw [map, mapAll_eq]
  show Alike f (map f) _ (Pure.pure (inList (subject.map f) (xs.1.map f) (xs.2.map (map f)) negated))
  rw [read]
  exact .pure _

theorem said_alike (h : Alike f (map f) nested nested') (n : Nat) (c : Condition α) :
    Alike f (map f) (said n nested c) (said n nested' (c.map f)) := by
  have operands := operand_alike h
  refine .ifSkipped (.pure (c.isNull false)) (.ifSkipped (.pure (c.isNull true)) ?_)
  refine .ifSkipped (items_alike h n c false) (.ifSkipped (items_alike h n c true) ?_)
  refine .ifSkipped ?between ((comparison?_alike _).bind fun op => ?_)
  · refine operands.bind fun low => (Alike.expect _).bind fun _ => operands.bind fun high => ?_
    exact .pure (c.between low high)
  · cases op with
    | some op => exact operands.bind fun right => .pure (c.compare op right)
    | none => exact .pure c

theorem test_alike (h : Alike f (map f) nested nested') (n : Nat) :
    Alike f (map f) (test n nested) (test n nested') :=
  (operand_alike h).bind fun c => said_alike h n c

theorem negation_alike {member : Reader α (Condition α)} {member' : Reader β (Condition β)}
    (h : Alike f (map f) member member') (n : Nat) : Alike f (map f) (negation member n) (negation member' n) := by
  induction n with
  | zero => exact .failure
  | succ n ih => exact .ifSkipped (ih.bind fun c => .pure c.not) h

theorem chain_alike {member : Reader α (Condition α)} {member' : Reader β (Condition β)}
    (h : Alike f (map f) member member') (op : Connective) (n : Nat) :
    Alike f (map f) (chain op n member) (chain op n member') := by
  refine (h.separatedBy op.word n).bind fun cs => ?_
  have folded : ∀ (xs : List (Condition α)) (x : Condition α),
      (xs.map (map f)).foldl (logic · op ·) (x.map f) = map f (xs.foldl (logic · op ·) x) := by
    intro xs
    induction xs with
    | nil => exact fun _ => rfl
    | cons y ys ih => exact fun x => ih (x.logic op y)
  show Alike f (map f) _ (Pure.pure ((cs.2.map (map f)).foldl (logic · op ·) (cs.1.map f)))
  rw [folded]
  exact .pure _

/-- **What is read does not depend on what stands for the placeholders**, by induction on the depth that is read. -/
theorem reader_alike (f : α → β) (n : Nat) : Alike f (map f) (reader n) (reader n) := by
  induction n with
  | zero => exact .failure
  | succ n ih => exact chain_alike (chain_alike (negation_alike (test_alike ih n) n) .and n) .or n

end Condition

end SqlTree
