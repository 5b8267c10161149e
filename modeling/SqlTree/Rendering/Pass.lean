/-
One pass of writing a statement: its state, and the operations that do not look at clauses.

Text is written from left to right. While a select is staged, the text before it is kept in its frame and only the
select's own text is at hand. An operation that fails leaves behind what it had written and registered, so the state
outlives errors.
-/
import SqlTree.Dialect

namespace SqlTree

structure BoundParam where
  name : String
  type : Option DataType
  direction : Direction
  value : Value
  /-- whether the value came from a feed -/
  deferred : Bool

structure Rendered where
  sql : String
  /-- the parameters in the order of their registration -/
  params : List BoundParam
  /-- for every placeholder, in the order of the text, the index of its parameter -/
  slots : List Nat

namespace Rendered

/-- the values in the order of the placeholders -/
def bindValues (r : Rendered) : List Value := r.slots.filterMap fun i => r.params[i]?.map BoundParam.value

def param? (r : Rendered) (name : String) : Option BoundParam := r.params.find? (·.name == name)

end Rendered

/-- what makes two occurrences of a parameter the same: their explicit name, or their identity -/
inductive ParamKey where
  | named (name : String)
  | shared (id : Nat)
  deriving DecidableEq

/-- the state of one pass -/
structure Pass where
  text : String
  /-- the selects being written, the innermost first, each with the text set aside while it is staged -/
  frames : List (Option String)
  /-- how many scripts are being written -/
  scriptDepth : Nat
  params : List BoundParam
  keys : List (ParamKey × Nat)
  /-- the names in use -/
  names : List String
  /-- the explicit names of the statement, never generated -/
  reserved : List String
  /-- the number in the name generated last -/
  generated : Nat
  slots : List Nat
  /-- the values that feeds give -/
  supply : Supply
  /-- the parameters whose values were asked for, in order -/
  produced : List Parameter

namespace Pass

/-- a pass that has written nothing -/
def start (supply : Supply) : Pass := ⟨"", [], 0, [], [], [], [], 0, [], supply, []⟩

def finish (p : Pass) : Rendered := ⟨p.text, p.params, p.slots⟩

/-- how often a feed was read -/
def readings (p : Pass) (feed : FeedId) : Nat := (p.produced.filterMap Parameter.feed?).count feed

end Pass

/-- writing, which may fail and keeps what was written before -/
abbrev Writing := ExceptT Error (StateM Pass)

namespace Writing

def emit (text : String) : Writing Unit := modify fun p => { p with text := p.text ++ text }

/-- goes on with a result or fails with its error -/
def ofResult {α : Type} (r : Result α) : Writing α := ExceptT.mk (pure r)

/-- fails for a reason that concerns the dialect -/
def fail {α : Type} (d : Dialect) (fault : RenderFault) : Writing α := throw (.render d.name fault)

def ident (d : Dialect) (name : String) : Writing Unit := emit (d.quote name)

/-- appends an identifier and the dot behind it, if there is one -/
def qualifier (d : Dialect) : Option String → Writing Unit
  | none => pure ()
  | some name => do
    ident d name
    emit "."

def table (d : Dialect) (t : TableRef) : Writing Unit := do
  qualifier d t.schema
  ident d t.name

/-- appends the name of a routine, its package standing before the first dot -/
def routine (d : Dialect) (name : String) : Writing Unit := table d (.ofName name)

/-- writes the members of a list with a separator between them -/
def separated (separator : String) : List (Writing Unit) → Writing Unit
  | [] => pure ()
  | w :: ws => do
    w
    ws.forM fun w => do
      emit separator
      w

/-- sets the text before the innermost select aside -/
def beginStaging (d : Dialect) : Writing Unit := do
  let p ← get
  match p.frames with
  | [] => fail d .stagingOutsideSelect
  | some _ :: _ => fail d .alreadyStaged
  | none :: outer => set { p with text := "", frames := some p.text :: outer }

/-- puts the text before the innermost select back and hands over the text of the select -/
def endStaging (d : Dialect) : Writing String := do
  let p ← get
  match p.frames with
  | some before :: outer =>
    set { p with text := before, frames := none :: outer }
    return p.text
  | _ => fail d .notStaged

/-- goes on without a result where writing fails -/
def attempt {α : Type} (w : Writing α) : Writing (Option α) :=
  ExceptT.mk fun p =>
    let (outcome, p) := w.run p
    (.ok outcome.toOption, p)

/-- carries out one action of a hook -/
def act (d : Dialect) : HookAction → Writing Unit
  | .write text => emit text
  | .beginStaging => beginStaging d
  | .endStaging wrap => do
    let text ← endStaging d
    emit (wrap text)
  | .tryBegin next => do
    let begun ← attempt (beginStaging d)
    act d (next begun.isSome)
  | .tryEnd next => do
    let text ← attempt (endStaging d)
    act d (next text)
  | .both first second => do
    act d first
    act d second

def actAll (d : Dialect) (actions : List HookAction) : Writing Unit := actions.forM (act d)

/-- Writes a select in a frame of its own. The frame is closed whether or not the select fails, and a select may not end
with its text still set aside. -/
def inFrame (d : Dialect) (body : Writing Unit) : Writing Unit :=
  ExceptT.mk fun p =>
    let (outcome, p) := body.run { p with frames := none :: p.frames }
    let staged := p.frames.head?.join.isSome
    let outcome := match outcome with
      | .ok _ => if staged then .error (.render d.name .neverFlushed) else .ok ()
      | .error e => .error e
    (outcome, { p with frames := p.frames.tail })

/-- writes the members of a script one level further in -/
def inScript (body : Writing Unit) : Writing Unit :=
  ExceptT.mk fun p =>
    let (outcome, p) := body.run { p with scriptDepth := p.scriptDepth + 1 }
    (outcome, { p with scriptDepth := p.scriptDepth - 1 })

end Writing
end SqlTree
