/-
The columns of a select with a row limit.

How many columns a select has counts wherever it stands inside something else: the source of an insert gives as many
values as the insert names columns, a value is one column, and so is what another value is looked for in. A row limit
keeps the columns, apart from one dialect that needs the numbers of the rows and leaves them in a column behind the
others.

- `SelectPlace`: where a select stands, and what is written in front of it and behind it.
- `select_keeps_columns`: at each place, when the columns are those without the row limit.
- `numbers_in_source`: an insert that is given a column more than it names.
-/
import SqlTree.Proofs.Limit.Written

namespace SqlTree

open Writing (Gives)

/-- a place where a select stands -/
inductive SelectPlace where
  /-- by itself -/
  | alone
  /-- as the source of an insert, whatever source it has -/
  | source (into : Insert)
  /-- as a value -/
  | scalar
  /-- as what a value is looked for in -/
  | among (subject : Clause) (negated : Bool)

namespace SelectPlace

def write (d : Dialect) (s : Select) : SelectPlace → Writing Unit
  | .alone => Writing.statement d (.select s)
  | .source into => Writing.statement d (.insert { into with source := some s })
  | .scalar => Writing.node d (.subQuery s)
  | .among subject negated => Writing.node d (.inList subject [.subQuery s] negated)

def front (d : Dialect) : SelectPlace → Writing Unit
  | .alone => pure ()
  | .source into => do
    Writing.emit "INSERT INTO "
    Writing.table d into.table
    if !into.columns.isEmpty then
      Writing.emit " ("
      Writing.separated ", " (into.columns.map (Writing.columnName d))
      Writing.emit ")"
    Writing.emit " "
  | .scalar => Writing.emit "("
  | .among subject negated => do
    Writing.asOperand d subject (Writing.node d subject)
    Writing.emit (if negated then " NOT IN (" else " IN (")
    Writing.emit "("

def behind : SelectPlace → String
  | .alone | .source _ => ""
  | .scalar => ")"
  | .among .. => "))"

theorem write_eq (d : Dialect) (s : Select) (place : SelectPlace) :
    place.write d s = (do place.front d; Writing.select d s; Writing.emit place.behind) := by
  have ended : (do Writing.select d s; Writing.emit "" : Writing Unit) = Writing.select d s := by
    rw [← Writing.actAll_none d]
    exact bind_pure_unit
  cases place with
  | alone => simp only [write, front, behind, Writing.statement, ended, pure_bind]
  | source into =>
    simp only [write, front, behind, Writing.statement, Writing.insert]
    cases into.columns.isEmpty <;> simp
  | scalar => rw [write, Writing.node]; rfl
  | among subject negated =>
    have value : Writing.values d ", " [.subQuery s] (Writing.nodes d [.subQuery s])
        = (do Writing.emit "("; Writing.select d s; Writing.emit ")") := by
      rw [Writing.nodes, Writing.nodes, Writing.node]
      exact bind_pure_unit
    have closing : Writing.emit "))" = (do Writing.emit ")"; Writing.emit ")") := Writing.emit_append ")" ")"
    rw [write, Writing.node, if_neg (by simp), value]
    simp only [front, behind, closing, bind_assoc]

end SelectPlace

/-! ## Columns -/

namespace Dialect

theorem numberColumn?_oracle {l : RowLimit} (skips : l.capability = .rowLimitRange) :
    Dialect.oracle.numberColumn? l = some "rn_" := by
  cases l with
  | first n => cases skips
  | range offset count => rfl

/-- Only Oracle leaves the numbers of the rows in a column, and only where rows are skipped. -/
theorem numberColumn?_eq_none {d : Dialect} (hd : d ∈ Dialect.all) {l : RowLimit}
    (h : ¬ (d = .oracle ∧ l.capability = .rowLimitRange)) : d.numberColumn? l = none := by
  cases l with
  | first n => rfl
  | range offset count =>
    exact of_mem_all (P := fun d => ¬ (d = .oracle ∧ _) → d.numberColumn? (.range offset count) = none)
      ⟨fun _ => rfl, fun _ => rfl, fun _ => rfl, fun _ => rfl, fun _ => rfl, fun h => absurd ⟨rfl, rfl⟩ h⟩ hd h

/-- A form keeps exactly the columns of the select, unless it leaves the numbers of the rows behind them. -/
theorem columns_eq_iff {d : Dialect} (hd : d ∈ Dialect.all) (ordered : Bool) (l : RowLimit) (inner : List String) :
    (d.limitForm ordered l).columns inner = inner ↔ ¬ (d = .oracle ∧ l.capability = .rowLimitRange) := by
  rw [columns_limitForm]
  refine ⟨?_, fun kept => by rw [numberColumn?_eq_none hd kept, Option.toList_none, List.append_nil]⟩
  rintro same ⟨rfl, skips⟩
  rw [numberColumn?_oracle skips] at same
  simpa using congrArg List.length same

end Dialect

/-- **Where a row limit keeps the columns of a select.** At each place, on a dialect that supports the limit, the select
ends as it does there without the limit. If it is written, it stands in a form of the limit around the text that it has
without, which begins with the items of its select list. The columns of this form are those items in their order, unless
the dialect is Oracle and the limit skips rows: then the numbers of the rows are one more column, behind the others. -/
theorem select_keeps_columns {d : Dialect} (hd : d ∈ Dialect.all) {s : Select} {l : RowLimit} (hl : s.limit = some l)
    (able : d.supports l.capability = true) (place : SelectPlace) (p : Pass) :
    ((place.write d s).run p).1 = ((place.write d s.unlimited).run p).1
      ∧ ∀ t, (place.write d s).run p = (.ok (), t) → ∃ q items rest u,
          (place.front d).run p = (.ok (), q) ∧ List.Forall₂ Gives (s.items d) items
            ∧ (place.write d s.unlimited).run p = (.ok (), u)
            ∧ u.text = q.text ++ plainSelect s.distinct (", ".intercalate items ++ rest) ++ place.behind
            ∧ t.text = q.text ++ (d.limitForm (!s.orderBy.isEmpty) l).text s.distinct (", ".intercalate items ++ rest)
                ++ place.behind
            ∧ ((d.limitForm (!s.orderBy.isEmpty) l).columns items = items
                ↔ ¬ (d = .oracle ∧ l.capability = .rowLimitRange))
            ∧ (d = .oracle → l.capability = .rowLimitRange →
                (d.limitForm (!s.orderBy.isEmpty) l).columns items = items ++ ["rn_"]) := by
  rw [place.write_eq, place.write_eq, Writing.run_bind, Writing.run_bind]
  rcases front : (place.front d).run p with ⟨e | _, q⟩
  · exact ⟨rfl, fun t ran => by cases ran⟩
  · dsimp only
    rw [Writing.run_bind, Writing.run_bind]
    rcases select_limited hd hl able q with ⟨e, limited, unlimited⟩ | ⟨items, rest, v, u, given, unlimited, limited⟩
    · rcases hr : (Writing.select d s).run q with ⟨e' | _, v⟩ <;> rw [hr] at limited <;> cases limited
      rcases hu : (Writing.select d s.unlimited).run q with ⟨e' | _, u⟩ <;> rw [hu] at unlimited <;> cases unlimited
      exact ⟨rfl, fun t ran => by cases ran⟩
    · rw [limited.ran, unlimited.ran]
      refine ⟨rfl, fun t ran => ?_⟩
      cases ran
      refine ⟨q, items, rest, _, rfl, given, rfl, ?_, ?_, Dialect.columns_eq_iff hd _ l items, ?_⟩
      · rw [← unlimited.text]
      · rw [← limited.text]
      · rintro rfl skips
        rw [Dialect.columns_limitForm, Dialect.numberColumn?_oracle skips, Option.toList_some]

/-- an insert of five orders behind the tenth, of each its number -/
def archiveOrders : Insert :=
  { table := ⟨none, "archive"⟩
    columns := [.field none "id"]
    values := []
    source := some (.mk false (some (.range 10 5)) [.field none "id"] [.ofTable "orders"] none [] none []) }

/-- The source of the insert is written on Oracle, in a form with one column more than it has without the limit. -/
theorem select_keeps_columns_archiveOrders :
    Dialect.oracle ∈ Dialect.all ∧ (RowLimit.range 10 5).capability = .rowLimitRange
      ∧ Dialect.oracle.supports (RowLimit.range 10 5).capability = true
      ∧ ∃ t items, ∃ source ∈ archiveOrders.source, source.limit = some (.range 10 5)
        ∧ ((SelectPlace.source archiveOrders).write .oracle source).run (Pass.start fun _ _ => .null) = (.ok (), t)
        ∧ List.Forall₂ Gives (source.items .oracle) items
        ∧ (Dialect.oracle.limitForm false (.range 10 5)).columns items = items ++ ["rn_"] := by
  have known : Dialect.oracle ∈ Dialect.all := by simp [Dialect.all]
  let source : Select := .mk false (some (.range 10 5)) [.field none "id"] [.ofTable "orders"] none [] none []
  let p := Pass.start fun _ _ => .null
  have written : (((SelectPlace.source archiveOrders).write .oracle source).run p).1.toOption = some () := by
    decide +kernel
  obtain ⟨-, forms⟩ := select_keeps_columns known (s := source) rfl (by rfl) (.source archiveOrders) p
  rcases hr : ((SelectPlace.source archiveOrders).write .oracle source).run p with ⟨e | _, t⟩
  · rw [hr] at written
    cases written
  · obtain ⟨-, items, -, -, -, given, -, -, -, -, numbers⟩ := forms t hr
    exact ⟨known, rfl, rfl, t, items, source, rfl, rfl, hr, given, numbers rfl rfl⟩

/-- An insert that names one column is given two on Oracle: the numbers of the rows are left behind the one that it
asks for. -/
theorem numbers_in_source :
    archiveOrders.columns.length = 1
      ∧ (render .oracle (.single (.insert archiveOrders)) fun _ _ => .null).result.toOption.map Rendered.sql
        = some ("INSERT INTO \"archive\" (\"id\") SELECT * FROM (SELECT q_.*, ROWNUM rn_ FROM "
          ++ "(SELECT \"id\" FROM \"orders\") q_ WHERE ROWNUM <= 15) WHERE rn_ > 10")
      ∧ ((Dialect.oracle.limitForm false (.range 10 5)).text false "\"id\" FROM \"orders\"")
        = "SELECT * FROM (SELECT q_.*, ROWNUM rn_ FROM (SELECT \"id\" FROM \"orders\") q_ WHERE ROWNUM <= 15) "
          ++ "WHERE rn_ > 10"
      ∧ (Dialect.oracle.limitForm false (.range 10 5)).columns ["\"id\""] = ["\"id\"", "rn_"] := by
  decide +kernel

end SqlTree
