/-
Selects under construction.

A draft has a section for each part of a select and knows which one was added to last; predicates joined on, aliases and
arithmetic act on that section. A step that fails leaves no draft, so the caller goes on from the one before it.
-/
import SqlTree.Statement

namespace SqlTree

structure SelectDraft where
  distinct : Bool := false
  limit : Option RowLimit := none
  fields : Section := .empty .fields
  sources : Section := .empty .sources
  filter : Section := .empty .filter
  groupBy : Section := .empty .groupBy
  having : Section := .empty .having
  orderBy : Section := .empty .orderBy
  /-- the section added to last -/
  current : SectionKind := .fields

inductive SelectStep where
  /-- adds a clause to a section -/
  | add (kind : SectionKind) (c : Clause)
  /-- joins a predicate onto that of the current section -/
  | combine (op : Connective) (c : Clause)
  /-- puts an alias on the item added last -/
  | aliasAs (name : String)
  /-- extends the item added last by arithmetic -/
  | calc (op : Arithmetic) (operand : Clause)
  /-- asks for different rows only -/
  | distinct
  /-- asks for some of the rows only -/
  | limit (l : RowLimit)

namespace SelectStep

def field (name : String) : SelectStep := .add .fields (.ofName name)

def allFields : SelectStep := .add .fields (.allFields none)

/-- adds an expression to the select list -/
def expr (c : Clause) : SelectStep := .add .fields c

/-- adds an aggregate of an argument, or of whole rows -/
def aggregate (fn : Aggregate) (arg : Option Clause) : SelectStep := .add .fields (.aggregate fn arg false)

def source (name : String) : SelectStep := .add .sources (.ofTable name)

def join (kind : JoinKind) (name : String) (condition : Clause) : SelectStep :=
  .add .sources (.join kind (.ofTable name) condition)

def orderBy (name : String) (direction : SortOrder) : SelectStep :=
  .add .orderBy (.order (.ofName name) direction)

end SelectStep

namespace SelectDraft

/-- the section of a kind; a kind that selects do not have stands for the select list -/
def sectionOf (d : SelectDraft) : SectionKind → Section
  | .sources => d.sources
  | .filter => d.filter
  | .groupBy => d.groupBy
  | .having => d.having
  | .orderBy => d.orderBy
  | _ => d.fields

def withSection (d : SelectDraft) (kind : SectionKind) (s : Section) : SelectDraft :=
  match kind with
  | .sources => { d with sources := s }
  | .filter => { d with filter := s }
  | .groupBy => { d with groupBy := s }
  | .having => { d with having := s }
  | .orderBy => { d with orderBy := s }
  | _ => { d with fields := s }

def edit (d : SelectDraft) (kind : SectionKind) (e : SectionEdit) : Result SelectDraft :=
  ((d.sectionOf kind).apply e).map (d.withSection kind)

def apply (d : SelectDraft) : SelectStep → Result SelectDraft
  | .add kind c => (d.edit kind (.push c)).map ({ · with current := kind })
  | .combine op c => d.edit d.current (.combine op c)
  | .aliasAs name => d.edit d.current (.aliasAs name)
  | .calc op operand => d.edit d.current (.calc op operand)
  | .distinct => .ok { d with distinct := true }
  | .limit l => .ok { d with limit := some l }

def finish (d : SelectDraft) : Select :=
  .mk d.distinct d.limit d.fields.items d.sources.items d.filter.items.head? d.groupBy.items d.having.items.head?
    d.orderBy.items

/-- the select that a list of steps builds -/
def build (steps : List SelectStep) : Result Select :=
  (steps.foldlM apply {}).map finish

end SelectDraft
end SqlTree
