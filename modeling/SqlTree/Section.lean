/-
Sections under construction.

A section holds its clauses in the order of output. While a statement is being built it also remembers its current
item, which an alias or arithmetic changes. An edit either succeeds or reports an error; what it leaves behind is part
of its meaning, so edits run on the section as a state that outlives the error.
-/
import SqlTree.Clause.Check
import SqlTree.Clause.Equality

namespace SqlTree

/-- the clauses of one section of a statement -/
structure Section where
  kind : SectionKind
  items : List Clause
  /-- the place of the current item -/
  cursor : Option Nat

/-- an operation on a section -/
inductive SectionEdit where
  /-- adds a clause; a boolean section joins it on with AND -/
  | push (c : Clause)
  /-- joins a predicate onto that of a boolean section -/
  | combine (op : Connective) (c : Clause)
  /-- puts an alias on the current item -/
  | aliasAs (name : String)
  /-- extends the current item by arithmetic -/
  | calc (op : Arithmetic) (operand : Clause)
  /-- forgets the current item -/
  | finish

namespace Section

def empty (kind : SectionKind) : Section := ⟨kind, [], none⟩

/-- Equality looks at sort and clauses, not at the current item. -/
protected def beq (s t : Section) : Bool := s.kind == t.kind && s.items == t.items

instance : BEq Section := ⟨Section.beq⟩

/-- the predicate of a boolean section -/
def predicate? (s : Section) : Option Clause :=
  if s.kind.isBoolean then s.items.head? else none

/-- the section without a current item -/
def finish (s : Section) : Section := { s with cursor := none }

/-- the section with one more clause, which becomes the current item -/
def append (c : Clause) (s : Section) : Section :=
  { s with items := s.items ++ [c], cursor := some s.items.length }

/-- Why a section does not take a clause, if it does not. Joins need a table before them, assignments a plain column
as their target, and only a select list takes aliases of values. -/
def refusal? (s : Section) (c : Clause) : Option Refusal :=
  match s.kind with
  | .filter | .having => if c.isPredicate then none else some .notPredicate
  | .sources =>
    match c with
    | .join _ target condition =>
      if !target.isTableSource then some .notTarget
      else if !condition.isPredicate then some .notCondition
      else if !s.items.any Clause.isTableSource then some .noTableBefore
      else none
    | c => if c.isTableSource then none else some .notSource
  | .orderBy =>
    match c with
    | .order .. => none
    | c => if c.isExpression then none else some .notSortItem
  | .assignments =>
    match c with
    | .assign (.field ..) value => if value.isExpression then none else some .notAssignment
    | _ => some .notAssignment
  | .columns =>
    match c with
    | .field .. => none
    | _ => some .notColumn
  | .fields => if c.isExpression then none else some .notExpression
  | .groupBy | .values =>
    if !c.isExpression then some .notExpression else if c.isAliased then some .isAlias else none

/-- how a section keeps a clause that it takes: a sort item without a direction is ascending -/
def admitted (kind : SectionKind) (c : Clause) : Clause :=
  match kind, c with
  | .orderBy, .order subject direction => .order subject direction
  | .orderBy, c => .order c .ascending
  | _, c => c

/-- the section with a predicate joined onto its own -/
def joinOn (op : Connective) (c : Clause) (s : Section) : Section :=
  let root := match s.items.getLast? with
    | some before => .logic before op c
    | none => c
  { s with items := s.items.dropLast ++ [root], cursor := some 0 }

/-- an operation on a section, with what it leaves behind when it fails -/
abbrev Edit := ExceptT Error (StateM Section)

/-- reports a fault in putting a tree together -/
def fail {α : Type} (fault : ConstructionFault) : Edit α := throw (.construction fault)

/-- joins a predicate onto that of a boolean section -/
def combine (op : Connective) (c : Clause) : Edit Unit := do
  let s ← get
  if !s.kind.isBoolean then
    fail (.notBoolean s.kind op)
  if let some why := s.refusal? c then
    fail (.refused s.kind c.kind why)
  c.check
  modify (joinOn op c)

/-- adds a clause that obeys the rules for operands and fits the section -/
def push (c : Clause) : Edit Unit := do
  c.check
  let s ← get
  if s.kind.isBoolean then
    combine .and c
  else
    if let some why := s.refusal? c then
      fail (.refused s.kind c.kind why)
    modify (append (admitted s.kind c))

/-- the current item and its place -/
def current (modifier : Modifier) : Edit (Nat × Clause) := do
  let s ← get
  match s.cursor.bind fun i => s.items[i]?.map fun c => (i, c) with
  | some found => return found
  | none => fail (.noCurrentItem s.kind modifier)

/-- whether the item of a section may be given an alias there -/
def takesAlias (kind : SectionKind) (c : Clause) : Bool :=
  if kind = .fields then c.isAliasable else c.isTableLike

/-- what stands in the place of a clause that is out of the section while another one is made of it -/
def placeholder : Clause := .allFields none

def put (i : Nat) (c : Clause) : Edit Unit := modify fun s => { s with items := s.items.set i c }

/-- puts an alias on the current item, which is out of the section meanwhile -/
def aliasAs (name : String) : Edit Unit := do
  let (i, c) ← current .aliasing
  let kind := (← get).kind
  if !takesAlias kind c then
    fail (.itemAlias kind c.kind name)
  put i placeholder
  let aliased ← c.withAlias name
  put i aliased

/-- the part of an item that arithmetic extends: the value of an assignment, else what is sorted or named -/
def arithmeticPart : Clause → Clause
  | .assign _ value => value
  | .order subject _ => subject
  | .aliased subject _ => subject
  | c => c

/-- an item with another clause in the place of the part that arithmetic extends -/
def withArithmeticPart : Clause → Clause → Clause
  | .assign target _, c => .assign target c
  | .order _ direction, c => .order c direction
  | .aliased _ name, c => .aliased c name
  | _, c => c

/-- extends the current item by arithmetic; the part that is extended is out of the item meanwhile -/
def extend (op : Arithmetic) (operand : Clause) : Edit Unit := do
  operand.check
  let (i, c) ← current (.calc op)
  (arithmeticPart c).checkOperand op
  operand.checkOperand op
  put i (withArithmeticPart c placeholder)
  let extended ← (arithmeticPart c).arithmetic op operand
  put i (withArithmeticPart c extended)

def perform : SectionEdit → Edit Unit
  | .push c => push c
  | .combine op c => combine op c
  | .aliasAs name => aliasAs name
  | .calc op operand => extend op operand
  | .finish => modify finish

/-- the error of an operation, if it failed, and the section it leaves behind -/
def outcome (e : SectionEdit) (s : Section) : Option Error × Section :=
  match (perform e).run s with
  | (.ok _, s') => (none, s')
  | (.error fault, s') => (some fault, s')

/-- the section after an operation that must succeed -/
def apply (e : SectionEdit) (s : Section) : Result Section :=
  match outcome e s with
  | (none, s') => .ok s'
  | (some fault, _) => .error fault

/-- the section after many operations, whether they succeed or fail -/
def run (s : Section) (edits : List SectionEdit) : Section :=
  edits.foldl (fun s e => (outcome e s).2) s

end Section
end SqlTree
