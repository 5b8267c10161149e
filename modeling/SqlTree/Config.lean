/-
The configuration: the dialect to write statements for, and how documents are set.

It is read from a TOML document with the tables `render` and `codec`. What is missing has a default, what is unknown is
an error. A table may also be given as an array of its values in order.
-/
import SqlTree.Dialect.Catalogue
import SqlTree.Document.Text
import SqlTree.Rendering
import SqlTree.Toml.Reader

namespace SqlTree

/-- what a program is set to -/
structure Config where
  /-- the name of the dialect -/
  dialect : String := "ansi"
  /-- whether documents are spread over lines -/
  spacious : Bool := false
  deriving DecidableEq, Repr

namespace Config

/-- the settings where nothing is set -/
def standard : Config := {}

def stringOf? : Toml → Option String
  | .string s => some s
  | _ => none

def boolOf? : Toml → Option Bool
  | .bool b => some b
  | _ => none

/-- the one setting of a table, or a default if it is not there -/
def setting {α : Type} (key : String) (read : Toml → Option α) (default : α) : Option Toml → Option α
  | none => some default
  | some (.array []) => some default
  | some (.array (v :: _)) => read v
  | some (.tables (v :: _)) => read v
  | some (.inline es) | some (.table _ _ es) =>
    match es with
    | [] => some default
    | [(k, v)] => if k = key then read v else none
    | _ => none
  | some _ => none

def ofToml? (text : String) : Option Config := do
  let doc ← Toml.read? text
  if !doc.entries.all fun (k, _) => k == "render" || k == "codec" then none else
  let dialect ← setting "dialect" stringOf? standard.dialect (doc.entries.lookup "render")
  let spacious ← setting "pretty" boolOf? standard.spacious (doc.entries.lookup "codec")
  return { dialect, spacious }

/-- the configuration of a text, or an error -/
def ofToml (text : String) : Result Config :=
  match ofToml? text with
  | some c => .ok c
  | none => .error .malformedConfig

def dialectOf (c : Config) : Result Dialect :=
  match Dialect.ofName? c.dialect with
  | some d => .ok d
  | none => .error (.unknownDialect c.dialect)

/-- writes a query for the dialect that is set -/
def render (c : Config) (q : Query) (supply : Supply) : Rendering :=
  match c.dialectOf with
  | .ok d => SqlTree.render d q supply
  | .error e => ⟨.error e, []⟩

def toJson (c : Config) (q : Query) : String := q.toJson c.spacious

end Config
end SqlTree
