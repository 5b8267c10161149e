/-
TOML documents: their values, and the rules for defining tables.

Numbers, dates and times are kept as no more than their presence, for nothing here uses one. A table is opened by a
header, or comes about where a header or a dotted key leads through it. A header may open a table that came about
through headers alone, and once only; a dotted key may not add to a table that a header opened.
-/

namespace SqlTree

/-- a value, with the tables that are still open to definitions apart from the inline ones -/
inductive Toml where
  | string (text : String)
  | bool (b : Bool)
  | number
  /-- a date, a time or both -/
  | moment
  | array (items : List Toml)
  /-- a table written as a value -/
  | inline (entries : List (String × Toml))
  /-- a table; `implied` as long as no header opened it, `dotted` if dotted keys brought it about -/
  | table (implied dotted : Bool) (entries : List (String × Toml))
  /-- tables that repeated headers opened -/
  | tables (items : List Toml)

namespace Toml

/-- the entries of a table of either form -/
def entries : Toml → List (String × Toml)
  | .inline es => es
  | .table _ _ es => es
  | _ => []

/-- whether a table was brought about by dotted keys -/
def isDotted : Toml → Bool
  | .table _ dotted _ => dotted
  | _ => false

def withEntries (t : Toml) (es : List (String × Toml)) : Toml :=
  match t with
  | .table implied dotted _ => .table implied dotted es
  | t => t

/-- a table with a value under a key, in place of any it had -/
def put (t : Toml) (key : String) (v : Toml) : Toml :=
  t.withEntries ((t.entries.filter (·.1 != key)) ++ [(key, v)])

def erase (t : Toml) (key : String) : Toml := t.withEntries (t.entries.filter (·.1 != key))

/-- a table that a header opened -/
def opened : Toml := .table false false []

/-- Changes the table that a path leads to. Tables missing on the way come about; of repeated tables the last one is
meant. A path in a dotted key must not lead into a table that a header opened. -/
def update (dotted : Bool) (change : Toml → Option Toml) : List String → Toml → Option Toml
  | [], t => change t
  | key :: path, t =>
    match t.entries.lookup key with
    | none => (update dotted change path (.table true dotted [])).map (t.put key)
    | some (.table implied d es) =>
      if dotted && !implied then none else (update dotted change path (.table implied d es)).map (t.put key)
    | some (.tables items) => do
      let last ← items.getLast?
      let last ← update dotted change path last
      return t.put key (.tables (items.dropLast ++ [last]))
    | some _ => none

/-- Defines a value under a key that is not in use. A key behind a dotted path belongs to a table that dotted keys
brought about, a key without a path to one that they did not. -/
def define (t : Toml) (path : List String) (key : String) (v : Toml) : Option Toml :=
  let change (t : Toml) : Option Toml :=
    if t.isDotted == path.isEmpty || (t.entries.lookup key).isSome then none else some (t.put key v)
  update true change path t

/-- the state of reading a document: its tables so far, and the one being filled with the place it belongs to -/
structure Draft where
  root : Toml
  current : Toml
  path : List String
  /-- the place behind the path, none for the document itself -/
  key : Option String
  /-- whether the header of the current table may be repeated -/
  repeated : Bool

namespace Draft

def empty : Draft := ⟨opened, opened, [], none, false⟩

/-- the document with the current table in its place -/
def settled (d : Draft) : Option Toml :=
  match d.key with
  | none => some d.current
  | some key =>
    update false (fun t =>
      if d.repeated then
        match t.entries.lookup key with
        | none => some (t.put key (.tables [d.current]))
        | some (.tables items) => some (t.put key (.tables (items ++ [d.current])))
        | some _ => none
      else some (t.put key d.current)) d.path d.root

/-- the table that a header opens: one that came about through headers, or a new one -/
def reopened (parent : Toml) (key : String) : Option Toml :=
  match parent.entries.lookup key with
  | none => some opened
  | some (.table true false es) => some (.table false false es)
  | some _ => none

/-- the parent that a path leads to; missing tables on the way are empty -/
def parentOf : List String → Toml → Option Toml
  | [], t => some t
  | key :: path, t =>
    match t.entries.lookup key with
    | none => some (.table true false [])
    | some (.table implied dotted es) => parentOf path (.table implied dotted es)
    | some (.tables items) => items.getLast?.bind (parentOf path)
    | some _ => none

def openTable (d : Draft) (path : List String) (key : String) : Option Draft := do
  let root ← d.settled
  let current ← reopened (← parentOf path root) key
  let root ← update false (fun t => some (t.erase key)) path root
  return ⟨root, current, path, some key, false⟩

/-- opens one more of several tables under the same header -/
def openRepeated (d : Draft) (path : List String) (key : String) : Option Draft := do
  let root ← d.settled
  let parent ← parentOf path root
  match parent.entries.lookup key with
  | none => return ⟨root, opened, path, some key, true⟩
  | some (.tables _) => return ⟨root, opened, path, some key, true⟩
  | some _ => none

/-- defines a value in the current table -/
def define (d : Draft) (path : List String) (key : String) (v : Toml) : Option Draft :=
  (d.current.define path key v).map ({ d with current := · })

end Draft
end Toml
end SqlTree
