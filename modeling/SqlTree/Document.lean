/-
Documents: trees of named elements with attributes.

A statement is written as an element for itself and one for each clause in it. Attributes are kept in the order of
their names, so equal documents are written alike. A literal value has its sort under `kind` and its text under
`value`. A `Registry` says which names are read as which sort of clause or statement.
-/
import SqlTree.Error
import SqlTree.Keyed
import SqlTree.Value

namespace SqlTree

/-- a node of a document -/
structure Element where
  name : String
  attrs : Keyed String := []
  children : List Element := []

mutual

def Element.beq : Element → Element → Bool
  | ⟨n, a, cs⟩, ⟨n', a', cs'⟩ => n == n' && a == a' && Element.beqAll cs cs'

def Element.beqAll : List Element → List Element → Bool
  | [], [] => true
  | c :: cs, c' :: cs' => c.beq c' && Element.beqAll cs cs'
  | _, _ => false

end

instance : BEq Element := ⟨Element.beq⟩

namespace Element

def withAttr (e : Element) (key value : String) : Element := { e with attrs := e.attrs.insert key value }

/-- the element with an attribute, if there is a value for it -/
def withAttr? (e : Element) (key : String) (value : Option String) : Element :=
  match value with
  | some v => e.withAttr key v
  | none => e

/-- the element with a mark that something holds, if it does -/
def withFlag (e : Element) (key : String) (holds : Bool) : Element := if holds then e.withAttr key "true" else e

def withChildren (e : Element) (children : List Element) : Element := { e with children := children }

def attr? (e : Element) (key : String) : Option String := e.attrs.find? key

/-- reports what is wrong with an element -/
def fail {α : Type} (e : Element) (fault : DocumentFault) : Result α := .error (.document e.name fault)

/-- the value of an attribute that must be there -/
def require (e : Element) (key : String) : Result String :=
  match e.attr? key with
  | some v => .ok v
  | none => e.fail (.missingAttribute key)

def flag (e : Element) (key : String) : Result Bool :=
  match e.attr? key with
  | none => .ok false
  | some "false" => .ok false
  | some "true" => .ok true
  | some other => e.fail (.malformed key other)

/-- the meaning of a text that stands in an attribute -/
def meaning {α : Type} (e : Element) (key raw : String) (read : String → Option α) : Result α :=
  match read raw with
  | some v => .ok v
  | none => e.fail (.malformed key raw)

/-- the meaning of an attribute that must be there -/
def required {α : Type} (e : Element) (key : String) (read : String → Option α) : Result α := do
  e.meaning key (← e.require key) read

/-- the meaning of an attribute that may be there -/
def allowed {α : Type} (e : Element) (key : String) (read : String → Option α) : Result (Option α) :=
  match e.attr? key with
  | some raw => (e.meaning key raw read).map some
  | none => .ok none

def requireChildren (e : Element) (n : Nat) : Result Unit :=
  if e.children.length = n then .ok () else e.fail (.childCount n e.children.length)

/-! ## Values -/

/-- the element with the attributes of a value; null has no text -/
def withValue (e : Element) (v : Value) : Element :=
  (e.withAttr "kind" v.kind).withAttr? "value" v.payload?

/-- the value that an element's attributes describe -/
def value (e : Element) : Result Value := do
  let kind ← e.require "kind"
  if kind = Value.null.kind then
    return .null
  let raw ← e.require "value"
  match Value.reader? kind with
  | some read => e.meaning "value" raw read
  | none => e.fail (.malformed "kind" kind)

end Element

/-! ## The meaning of names -/

/-- the meaning of element names -/
structure Registry where
  clauses : Keyed ClauseKind
  statements : Keyed StatementKind

namespace Registry

def empty : Registry := ⟨[], []⟩

/-- reads elements of a name as a sort of clause, whatever the name meant before -/
def addClause (r : Registry) (name : String) (kind : ClauseKind) : Registry :=
  { r with clauses := r.clauses.insert name kind }

def addStatement (r : Registry) (name : String) (kind : StatementKind) : Registry :=
  { r with statements := r.statements.insert name kind }

/-- every sort of clause and statement under its own name -/
def standard : Registry :=
  ⟨Keyed.ofList (ClauseKind.all.map fun k => (k.name, k)),
    Keyed.ofList (StatementKind.all.map fun k => (k.name, k))⟩

end Registry
end SqlTree
