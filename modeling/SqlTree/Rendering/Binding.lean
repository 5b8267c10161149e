/-
Parameters of a pass: their names, their registration and their placeholders.

A parameter is registered once and its value asked for once. One without a name gets the next name `p1`, `p2`, … that is
neither in use nor an explicit name anywhere in the statement. Literals are parameters of their own, except null.
-/
import SqlTree.Clause.Names
import SqlTree.Rendering.Pass

namespace SqlTree

/-- the name generated from a number -/
def generatedName (n : Nat) : String := "p" ++ Decimal.ofNat n

/-- The first number from `n` on whose name is not taken. With as many tries as names are taken one is found. -/
def firstFree (taken : List String) : Nat → Nat → Nat
  | 0, n => n
  | tries + 1, n => if taken.contains (generatedName n) then firstFree taken tries (n + 1) else n

namespace Pass

def nextNumber (p : Pass) : Nat :=
  let taken := p.names ++ p.reserved
  firstFree taken taken.length (p.generated + 1)

def index? (p : Pass) (key : ParamKey) : Option Nat := (p.keys.find? (·.1 == key)).map (·.2)

def addParam (p : Pass) (name : String) (b : BoundParam) : Pass :=
  { p with params := p.params ++ [b], names := name :: p.names }

/-- the pass with more names that are never generated -/
def reserve (p : Pass) (d : Dialect) (names : List String) : Pass :=
  { p with reserved := names.map d.canonicalName ++ p.reserved }

end Pass

/-- what makes occurrences of a parameter the same under a dialect -/
def Parameter.key (d : Dialect) (p : Parameter) : ParamKey :=
  match p.name with
  | some name => .named (d.canonicalName name)
  | none => .shared p.id

namespace Writing

def freshName : Writing String := do
  let n := (← get).nextNumber
  modify ({ · with generated := n })
  return generatedName n

/-- the name of a parameter: its own, if it is still free, or a generated one -/
def chooseName (d : Dialect) (p : Parameter) : Writing String :=
  match p.name with
  | none => freshName
  | some name => do
    let name := d.canonicalName name
    if (← get).names.contains name then
      fail d (.nameInUse name)
    return name

/-- asks for the value of a parameter -/
def produce (p : Parameter) : Writing Value := do
  let s ← get
  let readings := (p.feed?.map s.readings).getD 0
  set { s with produced := s.produced ++ [p] }
  return p.value s.supply readings

/-- registers a parameter, unless it was registered before, and tells its index -/
def register (d : Dialect) (p : Parameter) (direction : Direction) : Writing Nat := do
  match (← get).index? (p.key d) with
  | some i => return i
  | none =>
    let name ← chooseName d p
    let value ← produce p
    let s ← get
    let i := s.params.length
    let bound : BoundParam := ⟨d.boundName name, p.type <|> value.dataType, direction, value, p.isDeferred⟩
    set { s.addParam name bound with keys := (p.key d, i) :: s.keys }
    return i

/-- writes the placeholder of a registered parameter -/
def placeholder (d : Dialect) (i : Nat) : Writing Unit := do
  let s ← get
  let name := (s.params[i]?.map BoundParam.name).getD ""
  set { s with text := s.text ++ d.placeholder i name, slots := s.slots ++ [i] }

/-- registers a parameter and writes its placeholder -/
def bind (d : Dialect) (p : Parameter) : Writing Unit := do
  let i ← register d p p.direction
  placeholder d i

/-- writes a literal: a placeholder of its own, or the word for null -/
def literal (d : Dialect) (v : Value) : Writing Unit := do
  if v.isNull then
    emit "NULL"
  else
    let name ← freshName
    let s ← get
    set (s.addParam name ⟨d.boundName name, v.dataType, .input, v, false⟩)
    placeholder d s.params.length

end Writing
end SqlTree
