/-
How row limits are written around a select.

Each value is a set of hooks: a `LIMIT` behind the select, `TOP` in front of its columns with `OFFSET … FETCH` behind
it, or a query around it that numbers the rows.
-/
import SqlTree.Dialect

namespace SqlTree

namespace SelectHooks

def none : SelectHooks := ⟨fun _ => [], fun _ => [], fun _ => [], fun _ => []⟩

/-- `LIMIT` and `OFFSET` behind the select -/
def limitClause : SelectHooks :=
  { none with
    trailing := fun s =>
      match s.limit with
      | some (.first n) => [.write (" LIMIT " ++ Decimal.ofUInt64 n)]
      | some (.range offset count) =>
        [.write (" LIMIT " ++ Decimal.ofUInt64 count ++ " OFFSET " ++ Decimal.ofUInt64 offset)]
      | .none => [] }

/-- `TOP` in front of the columns, `OFFSET … FETCH` behind an `ORDER BY`, which is supplied where there is none -/
def topOrFetch : SelectHooks :=
  { none with
    heading := fun s =>
      match s.limit with
      | some (.first n) => [.write ("TOP " ++ Decimal.ofUInt64 n ++ " ")]
      | _ => []
    trailing := fun s =>
      match s.limit with
      | some (.range offset count) =>
        (if s.orderBy.isEmpty then [.write " ORDER BY (SELECT NULL)"] else [])
          ++ [.write (" OFFSET " ++ Decimal.ofUInt64 offset ++ " ROWS FETCH NEXT " ++ Decimal.ofUInt64 count
            ++ " ROWS ONLY")]
      | _ => [] }

/-- the greatest unsigned number of 64 bits bounds the last row asked for -/
def lastRow (offset count : UInt64) : Nat :=
  min (offset.toNat + count.toNat) (UInt64.size - 1)

/-- a limited select inside a query that numbers its rows -/
def numberedRows (limit : RowLimit) (select : String) : String :=
  match limit with
  | .first n => "SELECT * FROM (" ++ select ++ ") WHERE ROWNUM <= " ++ Decimal.ofUInt64 n
  | .range offset count =>
    "SELECT * FROM (SELECT q_.*, ROWNUM rn_ FROM (" ++ select ++ ") q_ WHERE ROWNUM <= "
      ++ Decimal.ofNat (lastRow offset count) ++ ") WHERE rn_ > " ++ Decimal.ofUInt64 offset

/-- the select set aside while it is written, and put into a query that numbers its rows -/
def rowNumbers : SelectHooks :=
  { none with
    opening := fun s => if s.limit.isSome then [.beginStaging] else []
    closing := fun s =>
      match s.limit with
      | some limit => [.endStaging (numberedRows limit)]
      | .none => [] }

end SelectHooks
end SqlTree
