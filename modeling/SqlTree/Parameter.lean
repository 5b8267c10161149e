/-
Parameters: value slots that several places of a statement may share.

A parameter has an identity. Two places with the same identity are one parameter; two parameters that merely look alike
are equal but stay two. A value is fixed, or it is asked of a feed each time a statement is rendered.
-/
import SqlTree.Value

namespace SqlTree

/-- which way a parameter carries its value -/
inductive Direction where
  | input
  | output
  | inout
  /-- the result of a routine -/
  | result
  deriving DecidableEq, Repr

namespace Direction

def name : Direction → String
  | .input => "in"
  | .output => "out"
  | .inout => "inout"
  | .result => "return"

def ofName? (word : String) : Option Direction :=
  [input, output, inout, result].find? (·.name == word)

/-- whether a routine writes a value back through the parameter; its result does not count -/
def isOutput : Direction → Bool
  | .output | .inout => true
  | .input | .result => false

end Direction

/-- names one source of values outside the statement -/
abbrev FeedId := Nat

/-- where a parameter's value comes from -/
inductive Source where
  | fixed (value : Value)
  | deferred (feed : FeedId)
  deriving DecidableEq

/-- The values that feeds give: the value of a feed at its first reading, at its second, and so on. -/
abbrev Supply := FeedId → Nat → Value

/-- a value slot -/
structure Parameter where
  /-- the identity that makes several places one parameter -/
  id : Nat
  /-- without a name the parameter gets one each time a statement is rendered -/
  name : Option String
  /-- without a type it is the type of the value -/
  type : Option DataType
  direction : Direction
  source : Source

/-- equality of sources: equal fixed values, or the same feed -/
protected def Source.beq : Source → Source → Bool
  | .fixed v, .fixed w => v == w
  | .deferred f, .deferred g => f == g
  | _, _ => false

instance : BEq Source := ⟨Source.beq⟩

namespace Parameter

/-- Equality of parameters looks at all but their identity. -/
protected def beq (p q : Parameter) : Bool :=
  p.name == q.name && p.type == q.type && p.direction == q.direction && p.source == q.source

instance : BEq Parameter := ⟨Parameter.beq⟩

/-- a nameless input parameter with a fixed value -/
def fixed (id : Nat) (value : Value) : Parameter :=
  ⟨id, none, none, .input, .fixed value⟩

/-- a nameless input parameter whose values come from a feed -/
def deferred (id : Nat) (feed : FeedId) : Parameter :=
  ⟨id, none, none, .input, .deferred feed⟩

/-- a nameless output parameter, which has no value to give -/
def output (id : Nat) (type : DataType) : Parameter :=
  ⟨id, none, some type, .output, .fixed .null⟩

def feed? (p : Parameter) : Option FeedId :=
  match p.source with
  | .fixed _ => none
  | .deferred feed => some feed

/-- whether the value is asked of a feed -/
def isDeferred (p : Parameter) : Bool := p.feed?.isSome

/-- the value of a parameter after its feed has been read `readings` times -/
def value (supply : Supply) (readings : Nat) (p : Parameter) : Value :=
  match p.source with
  | .fixed v => v
  | .deferred feed => supply feed readings

end Parameter
end SqlTree
