/-
What a row limit means in each of its forms.

A row limit stands behind a select, in front of its columns, or in queries around it that number the rows. A form is
the text that is made of the select, the rows that are kept of it and the columns that come out. A query around a select
tries its rows in order, each under the number behind that of the last row that passed, so numbers count the rows that
have passed.

- `Wrap.pass_numberAtMost`, `Wrap.pass_columnAbove`: what a query keeps that bounds the numbers of its rows, or a column
  of numbers.
- `Dialect.keep_limitForm`: all forms keep the same rows, also where the last row asked for is beyond the numbers of 64
  bits.
- `Dialect.columns_limitForm`: all forms keep the columns, apart from the one with the numbers of the rows.
-/
import SqlTree.Dialect.Catalogue

namespace SqlTree

/-! ## Queries around a select -/

/-- a row of a select, and the numbers that queries around it have put behind its columns, each under a name -/
structure WrappedRow (α : Type) where
  row : α
  numbers : List (String × Nat)

/-- what a query around a select asks of a row -/
inductive RowTest where
  /-- that the number of the row is within a bound -/
  | numberAtMost (bound : Nat)
  /-- that the number in a column is beyond a bound -/
  | columnAbove (column : String) (bound : Nat)

/-- a query around a select: the column that it puts the numbers of the rows in, if it does so, and its test -/
structure Wrap where
  column : Option String
  test : RowTest

namespace RowTest

variable {α : Type}

def text : RowTest → String
  | .numberAtMost bound => "ROWNUM <= " ++ Decimal.ofNat bound
  | .columnAbove column bound => column ++ " > " ++ Decimal.ofNat bound

/-- whether a row passes when it is tried under a number -/
def holds (number : Nat) (r : WrappedRow α) : RowTest → Bool
  | .numberAtMost bound => number ≤ bound
  | .columnAbove column bound => (r.numbers.lookup column).any (bound < ·)

end RowTest

namespace Wrap

variable {α : Type}

def text (w : Wrap) (select : String) : String :=
  match w.column with
  | none => "SELECT * FROM (" ++ select ++ ") WHERE " ++ w.test.text
  | some column => "SELECT q_.*, ROWNUM " ++ column ++ " FROM (" ++ select ++ ") q_ WHERE " ++ w.test.text

/-- the columns of a query around a select: its star stands for those of the select -/
def columns (w : Wrap) (inner : List String) : List String := inner ++ w.column.toList

/-- a row that passes under a number, as it comes out -/
def mark (w : Wrap) (number : Nat) (r : WrappedRow α) : WrappedRow α :=
  { r with numbers := r.numbers ++ w.column.toList.map (·, number) }

/-- the rows that pass, when some have passed before -/
def pass (w : Wrap) : Nat → List (WrappedRow α) → List (WrappedRow α)
  | _, [] => []
  | passed, r :: rows =>
    if w.test.holds (passed + 1) r then w.mark (passed + 1) r :: w.pass (passed + 1) rows else w.pass passed rows

/-- A query that bounds the numbers of its rows keeps so many in front, and numbers them in order. -/
theorem pass_numberAtMost (w : Wrap) {bound : Nat} (h : w.test = .numberAtMost bound) (passed : Nat)
    (rows : List (WrappedRow α)) :
    w.pass passed rows = ((rows.take (bound - passed)).zipIdx (passed + 1)).map fun (r, n) => w.mark n r := by
  induction rows generalizing passed with
  | nil => simp [pass]
  | cons r rows ih =>
    rw [pass, ih, ih, h, RowTest.holds]
    by_cases within : passed + 1 ≤ bound
    · have more : bound - passed = bound - (passed + 1) + 1 := by omega
      simp [within, more]
    · have none : bound - passed = 0 := by omega
      simp [within, none]

/-- A query that asks for a column above a bound keeps the rows that have one, wherever they stand. -/
theorem pass_columnAbove {w : Wrap} {column : String} {bound : Nat} (unnumbered : w.column = none)
    (h : w.test = .columnAbove column bound) (passed : Nat) (rows : List (WrappedRow α)) :
    w.pass passed rows = rows.filter fun r => (r.numbers.lookup column).any (bound < ·) := by
  have unmarked : ∀ n (r : WrappedRow α), w.mark n r = r := fun n r => by simp [mark, unnumbered]
  induction rows generalizing passed with
  | nil => rfl
  | cons r rows ih => rw [pass, ih, ih, h, RowTest.holds, unmarked, List.filter_cons]

end Wrap

/-! ## Forms -/

/-- a select as it is written without a row limit; `body` is what stands behind its first words -/
def plainSelect (distinct : Bool) (body : String) : String :=
  "SELECT " ++ (if distinct then "DISTINCT " else "") ++ body

/-- how a row limit stands by a select -/
inductive LimitForm where
  /-- `LIMIT` behind it, with or without `OFFSET` -/
  | clause (count : Nat) (offset : Option Nat)
  /-- `TOP` in front of its columns -/
  | top (count : Nat)
  /-- `OFFSET … FETCH` behind it, with an order of no consequence where it has none -/
  | fetch (ordered : Bool) (offset count : Nat)
  /-- queries around it, the innermost first -/
  | around (wraps : List Wrap)

namespace LimitForm

variable {α : Type}

/-- a select with a row limit as it is written -/
def text (distinct : Bool) (body : String) : LimitForm → String
  | .clause count offset =>
    plainSelect distinct body ++ " LIMIT " ++ Decimal.ofNat count
      ++ (match offset with
        | none => ""
        | some offset => " OFFSET " ++ Decimal.ofNat offset)
  | .top count => plainSelect distinct ("TOP " ++ Decimal.ofNat count ++ " " ++ body)
  | .fetch ordered offset count =>
    plainSelect distinct body ++ (if ordered then "" else " ORDER BY (SELECT NULL)")
      ++ " OFFSET " ++ Decimal.ofNat offset ++ " ROWS FETCH NEXT " ++ Decimal.ofNat count ++ " ROWS ONLY"
  | .around wraps => wraps.foldl (fun select w => w.text select) (plainSelect distinct body)

/-- the rows that are kept of those that the select gives without the limit -/
def keep (rows : List α) : LimitForm → List α
  | .clause count offset => (rows.drop (offset.getD 0)).take count
  | .top count => rows.take count
  | .fetch _ offset count => (rows.drop offset).take count
  | .around wraps =>
    (wraps.foldl (fun rows w => w.pass 0 rows) (rows.map fun row => (⟨row, []⟩ : WrappedRow α))).map WrappedRow.row

/-- the columns at the outermost SELECT, of a select that has these without the limit -/
def columns (inner : List String) : LimitForm → List String
  | .clause .. | .top _ | .fetch .. => inner
  | .around wraps => wraps.foldl (fun columns w => w.columns columns) inner

def ofClause : RowLimit → LimitForm
  | .first n => .clause n.toNat none
  | .range offset count => .clause count.toNat (some offset.toNat)

def ofTopOrFetch (ordered : Bool) : RowLimit → LimitForm
  | .first n => .top n.toNat
  | .range offset count => .fetch ordered offset.toNat count.toNat

def ofRowNumbers : RowLimit → LimitForm
  | .first n => .around [⟨none, .numberAtMost n.toNat⟩]
  | .range offset count =>
    .around [⟨some "rn_", .numberAtMost (SelectHooks.lastRow offset count)⟩, ⟨none, .columnAbove "rn_" offset.toNat⟩]

theorem text_ofRowNumbers (l : RowLimit) (distinct : Bool) (body : String) :
    (ofRowNumbers l).text distinct body = SelectHooks.numberedRows l (plainSelect distinct body) := by
  cases l with
  | first n =>
    have test : ") WHERE ROWNUM <= " = ") WHERE " ++ "ROWNUM <= " := by decide
    show "SELECT * FROM (" ++ plainSelect distinct body ++ ") WHERE " ++ ("ROWNUM <= " ++ Decimal.ofNat n.toNat)
      = "SELECT * FROM (" ++ plainSelect distinct body ++ ") WHERE ROWNUM <= " ++ Decimal.ofNat n.toNat
    rw [test]
    simp only [String.append_assoc]
  | range offset count =>
    have number : "SELECT * FROM (SELECT q_.*, ROWNUM rn_ FROM ("
      = "SELECT * FROM (" ++ ("SELECT q_.*, ROWNUM " ++ "rn_" ++ " FROM (") := by decide
    have inner : ") q_ WHERE ROWNUM <= " = ") q_ WHERE " ++ "ROWNUM <= " := by decide
    have outer : ") WHERE rn_ > " = ") WHERE " ++ ("rn_" ++ " > ") := by decide
    show "SELECT * FROM (" ++ ("SELECT q_.*, ROWNUM " ++ "rn_" ++ " FROM (" ++ plainSelect distinct body
        ++ ") q_ WHERE " ++ ("ROWNUM <= " ++ Decimal.ofNat (SelectHooks.lastRow offset count))) ++ ") WHERE "
        ++ ("rn_" ++ " > " ++ Decimal.ofNat offset.toNat)
      = "SELECT * FROM (SELECT q_.*, ROWNUM rn_ FROM (" ++ plainSelect distinct body ++ ") q_ WHERE ROWNUM <= "
        ++ Decimal.ofNat (SelectHooks.lastRow offset count) ++ ") WHERE rn_ > " ++ Decimal.ofNat offset.toNat
    rw [number, inner, outer]
    simp only [String.append_assoc]

end LimitForm

/-- the form in which a dialect of the library writes a row limit, by a select with or without an order -/
def Dialect.limitForm (d : Dialect) (ordered : Bool) : RowLimit → LimitForm :=
  if d == .oracle then .ofRowNumbers else if d == .sqlServer then .ofTopOrFetch ordered else .ofClause

/-! ## Rows -/

/-- the rows that a limit asks for -/
def RowLimit.kept {α : Type} (rows : List α) : RowLimit → List α
  | .first n => rows.take n.toNat
  | .range offset count => (rows.drop offset.toNat).take count.toNat

section
variable {α : Type}

/-- The members of a list whose numbers are above a bound are those behind it. -/
theorem filter_zipIdx_above (rows : List α) (start bound : Nat) :
    ((rows.zipIdx (start + 1)).filter fun x => bound < x.2).map Prod.fst = rows.drop (bound - start) := by
  induction rows generalizing start with
  | nil => simp
  | cons row rows ih =>
    rw [List.zipIdx_cons, List.filter_cons]
    by_cases above : bound < start + 1
    · have here : bound - start = 0 := by omega
      have behind : bound - (start + 1) = 0 := by omega
      simp [above, here, ih, behind]
    · have behind : bound - start = bound - (start + 1) + 1 := by omega
      simp [above, behind, ih]

/-- The last row asked for may be beyond all numbers; then so are the rows behind the last number. -/
theorem take_lastRow {rows : List α} (h : rows.length < 2 ^ 64) (offset count : UInt64) :
    (rows.take (SelectHooks.lastRow offset count)).drop offset.toNat = (rows.drop offset.toNat).take count.toNat := by
  rw [List.drop_take, SelectHooks.lastRow, UInt64.size]
  by_cases fits : offset.toNat + count.toNat ≤ 2 ^ 64 - 1
  · congr 1
    omega
  · have all : (rows.drop offset.toNat).length ≤ count.toNat := by
      rw [List.length_drop]
      omega
    rw [List.take_of_length_le all, List.take_of_length_le]
    rw [List.length_drop]
    omega

/-- A query that numbers the rows of a select bounds how many of them there are. -/
theorem LimitForm.keep_firstRows (n : UInt64) (rows : List α) :
    (LimitForm.ofRowNumbers (.first n)).keep rows = rows.take n.toNat := by
  have wrap : (⟨none, .numberAtMost n.toNat⟩ : Wrap).test = .numberAtMost n.toNat := rfl
  simp only [ofRowNumbers, keep, List.foldl_cons, List.foldl_nil, Wrap.pass_numberAtMost _ wrap, List.map_map]
  simp [Function.comp_def, Wrap.mark, List.zipIdx_map, ← List.map_take]

/-- A query around it that asks for numbers above a bound leaves out the rows in front. -/
theorem LimitForm.keep_rowRange (offset count : UInt64) {rows : List α} (h : rows.length < 2 ^ 64) :
    (LimitForm.ofRowNumbers (.range offset count)).keep rows = (rows.drop offset.toNat).take count.toNat := by
  have inner : (⟨some "rn_", .numberAtMost (SelectHooks.lastRow offset count)⟩ : Wrap).test
    = .numberAtMost (SelectHooks.lastRow offset count) := rfl
  have outer : (⟨none, .columnAbove "rn_" offset.toNat⟩ : Wrap).test = .columnAbove "rn_" offset.toNat := rfl
  have numbered : (LimitForm.ofRowNumbers (.range offset count)).keep rows
      = (((rows.take (SelectHooks.lastRow offset count)).zipIdx 1).filter fun x => offset.toNat < x.2).map
          Prod.fst := by
    simp only [ofRowNumbers, keep, List.foldl_cons, List.foldl_nil, Wrap.pass_numberAtMost _ inner,
      Wrap.pass_columnAbove rfl outer, List.filter_map, List.map_map]
    simp [Function.comp_def, Wrap.mark, List.zipIdx_map, ← List.map_take, List.filter_map]
  rw [numbered, filter_zipIdx_above _ 0, Nat.sub_zero, take_lastRow h]

/-- **All forms of a row limit keep the same rows**: the first, or those behind an offset, in order. -/
theorem Dialect.keep_limitForm (d : Dialect) (ordered : Bool) (l : RowLimit) {rows : List α}
    (h : rows.length < 2 ^ 64) : (d.limitForm ordered l).keep rows = l.kept rows := by
  unfold Dialect.limitForm
  split
  · cases l with
    | first n => exact LimitForm.keep_firstRows n rows
    | range offset count => exact LimitForm.keep_rowRange offset count h
  · split <;> cases l <;> rfl

/-- The second and the third row, by their numbers. -/
example : (Dialect.oracle.limitForm true (.range 1 2)).keep [5, 6, 7, 8] = [6, 7] := by decide

end

/-! ## Columns -/

/-- the column that the numbers of the rows are left in, in the form in which a dialect writes a limit -/
def Dialect.numberColumn? (d : Dialect) : RowLimit → Option String
  | .first _ => none
  | .range .. => if d == .oracle then some "rn_" else none

/-- **All forms of a row limit keep the columns in their order**, with the numbers of the rows behind them at most. -/
theorem Dialect.columns_limitForm (d : Dialect) (ordered : Bool) (l : RowLimit) (inner : List String) :
    (d.limitForm ordered l).columns inner = inner ++ (d.numberColumn? l).toList := by
  unfold Dialect.limitForm
  split
  · rename_i oracle
    cases l <;> simp [LimitForm.ofRowNumbers, LimitForm.columns, Wrap.columns, Dialect.numberColumn?, oracle]
  · rename_i other
    split <;> cases l <;>
      simp [LimitForm.ofTopOrFetch, LimitForm.ofClause, LimitForm.columns, Dialect.numberColumn?, other]

end SqlTree
