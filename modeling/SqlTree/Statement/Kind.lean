/-
The sorts of statements, and the sections that they have.
-/

namespace SqlTree

/-- a sort of statement; a script is several of the others in order -/
inductive StatementKind where
  | select | insert | update | delete | exec | script | createTable | dropTable
  deriving DecidableEq, Repr

namespace StatementKind

def all : List StatementKind := [select, insert, update, delete, exec, script, createTable, dropTable]

def name : StatementKind → String
  | .select => "select"
  | .insert => "insert"
  | .update => "update"
  | .delete => "delete"
  | .exec => "exec"
  | .script => "script"
  | .createTable => "create-table"
  | .dropTable => "drop-table"

end StatementKind

/-- which part of a statement a section is -/
inductive SectionKind where
  /-- the select list -/
  | fields
  /-- tables and joins -/
  | sources
  | filter
  | groupBy
  | having
  | orderBy
  /-- the columns an update changes, with their values -/
  | assignments
  /-- the columns an insert fills -/
  | columns
  /-- the values an insert gives them -/
  | values
  deriving DecidableEq, Repr

namespace SectionKind

def name : SectionKind → String
  | .fields => "fields"
  | .sources => "from"
  | .filter => "where"
  | .groupBy => "group-by"
  | .having => "having"
  | .orderBy => "order-by"
  | .assignments => "assignments"
  | .columns => "columns"
  | .values => "values"

/-- whether the section holds one predicate, onto which others are joined -/
def isBoolean : SectionKind → Bool
  | .filter | .having => true
  | _ => false

end SectionKind
end SqlTree
