/-
Days and timestamps are read back from their text.

- `Date.ofText?_toText`: every day, of years with a sign as well.
- `Timestamp.ofText?_toText`: every timestamp to the nanosecond, leap seconds among them.
-/
import SqlTree.Calendar.Text
import SqlTree.Proofs.Text.Decimal

namespace SqlTree

namespace Calendar

theorem isBlank_of_isDigit {c : Char} (h : c.isDigit) : Text.isBlank c = false := by
  simp only [Char.isDigit, Bool.and_eq_true, decide_eq_true_eq] at h
  have low : 48 ≤ c.toNat := UInt32.le_iff_toNat_le.1 h.1
  have high : c.toNat ≤ 57 := UInt32.le_iff_toNat_le.1 h.2
  simp only [Text.isBlank, Bool.or_eq_false_iff, Bool.and_eq_false_iff, decide_eq_false_iff_not, beq_eq_false_iff_ne]
  omega

theorem dropBlanks_digits {ds : List Char} (hd : ∀ c ∈ ds, c.isDigit) (hne : ds ≠ []) (rest : List Char) :
    Text.dropBlanks (ds ++ rest) = ds ++ rest := by
  rcases ds with _ | ⟨c, cs⟩
  · exact absurd rfl hne
  · have digit := isBlank_of_isDigit (hd c List.mem_cons_self)
    rw [Text.dropBlanks, List.cons_append, List.dropWhile_cons_of_neg (by simp [digit])]

/-- A run of digits that fills its width is read, whatever follows. -/
theorem number?_append {width : Nat} {ds : List Char} (hd : ∀ c ∈ ds, c.isDigit) (hne : ds ≠ [])
    (hl : ds.length = width) (rest : List Char) : number? width (ds ++ rest) = some (Decimal.value ds, rest) := by
  subst hl
  have front : ((ds ++ rest).take ds.length).takeWhile Char.isDigit = ds := by
    rw [List.take_left, ← List.append_nil ds, List.takeWhile_append_of_pos hd, List.takeWhile_nil]
  have filled : ds.isEmpty = false := List.isEmpty_eq_false_iff.2 hne
  simp only [number?, dropBlanks_digits hd hne, front, filled, List.drop_left]
  rfl

theorem number?_padded (width n : Nat) (h : n < 10 ^ width) (hw : 0 < width) (rest : List Char) :
    number? width (Decimal.padded width n ++ rest) = some (n, rest) := by
  have length := Decimal.length_padded ((Decimal.length_digits_le_iff hw).2 h)
  have read := number?_append (fun _ => Decimal.isDigit_of_mem_padded) (Decimal.padded_ne_nil width n) length rest
  rwa [Decimal.value_padded] at read

/-- The digits behind a sign are read up to the first character that is no digit. -/
theorem span_padded (width n : Nat) {rest : List Char} (hr : ∀ c ∈ rest.head?, c.isDigit = false) :
    Decimal.span (Decimal.padded width n ++ rest) = (Decimal.padded width n, rest) :=
  Decimal.span_append (fun _ => Decimal.isDigit_of_mem_padded) hr

theorem year?_digits {ds : List Char} (hd : ∀ c ∈ ds, c.isDigit) (hne : ds ≠ []) (hl : ds.length = 4)
    (rest : List Char) : year? (ds ++ rest) = some ((Decimal.value ds : Int), rest) := by
  have number := number?_append hd hne hl rest
  rw [year?, dropBlanks_digits hd hne]
  rcases ds with _ | ⟨c, cs⟩
  · exact absurd rfl hne
  · have digit : c.isDigit := hd c List.mem_cons_self
    rw [List.cons_append] at number ⊢
    split
    · next h =>
      cases h
      exact absurd digit (by decide)
    · next h =>
      cases h
      exact absurd digit (by decide)
    · rw [number]
      rfl

theorem year?_minus (width n : Nat) {rest : List Char} (hr : ∀ c ∈ rest.head?, c.isDigit = false) :
    year? ('-' :: (Decimal.padded width n ++ rest)) = some (-(n : Int), rest) := by
  have filled : (Decimal.padded width n).isEmpty = false := List.isEmpty_eq_false_iff.2 (Decimal.padded_ne_nil _ _)
  show (if (Decimal.span (Decimal.padded width n ++ rest)).1.isEmpty then none
    else some (-(Decimal.value (Decimal.span (Decimal.padded width n ++ rest)).1 : Int),
      (Decimal.span (Decimal.padded width n ++ rest)).2)) = _
  rw [span_padded width n hr, filled, Decimal.value_padded]
  rfl

theorem year?_plus (width n : Nat) {rest : List Char} (hr : ∀ c ∈ rest.head?, c.isDigit = false) :
    year? ('+' :: (Decimal.padded width n ++ rest)) = some ((n : Int), rest) := by
  have filled : (Decimal.padded width n).isEmpty = false := List.isEmpty_eq_false_iff.2 (Decimal.padded_ne_nil _ _)
  show (if (Decimal.span (Decimal.padded width n ++ rest)).1.isEmpty then none
    else some ((Decimal.value (Decimal.span (Decimal.padded width n ++ rest)).1 : Int),
      (Decimal.span (Decimal.padded width n ++ rest)).2)) = _
  rw [span_padded width n hr, filled, Decimal.value_padded]
  rfl

theorem year?_yearText (year : Int) {rest : List Char} (hr : ∀ c ∈ rest.head?, c.isDigit = false) :
    year? (Date.yearText year ++ rest) = some (year, rest) := by
  unfold Date.yearText
  split
  · next h =>
    have small : year.toNat < 10 ^ 4 := by omega
    have back : (year.toNat : Int) = year := Int.toNat_of_nonneg h.1
    have length := Decimal.length_padded ((Decimal.length_digits_le_iff (by decide)).2 small)
    rw [year?_digits (fun _ => Decimal.isDigit_of_mem_padded) (Decimal.padded_ne_nil _ _) length,
      Decimal.value_padded, back]
  · next h =>
    by_cases hneg : year < 0
    · have back : -(year.natAbs : Int) = year := by omega
      rw [if_pos hneg, List.cons_append, year?_minus _ _ hr, back]
    · have back : (year.natAbs : Int) = year := by omega
      rw [if_neg hneg, List.cons_append, year?_plus _ _ hr, back]

theorem daysInMonth_le (year : Int) (month : Nat) : daysInMonth year month ≤ 31 := by
  unfold daysInMonth
  split
  · split <;> decide
  · split <;> decide

theorem date?_chars (d : Date) (rest : List Char) : date? (d.chars ++ rest) = some (d, rest) := by
  obtain ⟨-, -, -, month, -, day⟩ := d.valid
  have lastDay := daysInMonth_le d.year d.month
  have hyphen := Decimal.forall_mem_head?_cons (c := '-') (by decide)
    (Decimal.padded 2 d.month ++ '-' :: (Decimal.padded 2 d.day ++ rest))
  have yearRead := year?_yearText d.year hyphen
  have monthRead := number?_padded 2 d.month (by omega) (by decide)
  have dayRead := number?_padded 2 d.day (by omega) (by decide)
  simp only [date?, Date.chars, List.append_assoc, List.cons_append, yearRead, Option.bind_eq_bind, Option.bind_some,
    Text.mark?, if_true, monthRead, dayRead, Date.of?_self]
  rfl

/-! ## Times of day -/

theorem fraction?_padded {width n : Nat} (h : n < 10 ^ width) (hw : 0 < width) (hw' : width ≤ 9) :
    fraction? ('.' :: Decimal.padded width n) = some (n * 10 ^ (9 - width), []) := by
  have length := Decimal.length_padded ((Decimal.length_digits_le_iff hw).2 h)
  have filled : (Decimal.padded width n).isEmpty = false := List.isEmpty_eq_false_iff.2 (Decimal.padded_ne_nil _ _)
  have whole : Decimal.span (Decimal.padded width n) = (Decimal.padded width n, []) :=
    Decimal.span_digits fun _ => Decimal.isDigit_of_mem_padded
  have short : (Decimal.padded width n).take 9 = Decimal.padded width n := List.take_of_length_le (by omega)
  simp only [fraction?, whole, filled, short, Decimal.value_padded, length]
  rfl

/-- A fraction of three, six or nine digits is exact. -/
theorem fraction?_fractionText {nanos : Nat} (h : nanos < 10 ^ 9) :
    fraction? (TimeOfDay.fractionText nanos) = some (nanos, []) := by
  unfold TimeOfDay.fractionText
  split
  · next hz => rw [hz]; rfl
  · split
    · next hm =>
      rw [fraction?_padded (by omega) (by decide) (by decide)]
      have exact : nanos / 10 ^ 6 * 10 ^ (9 - 3) = nanos := by omega
      rw [exact]
    · split
      · next hm =>
        rw [fraction?_padded (by omega) (by decide) (by decide)]
        have exact : nanos / 10 ^ 3 * 10 ^ (9 - 6) = nanos := by omega
        rw [exact]
      · rw [fraction?_padded h (by decide) (by decide)]
        have exact : nanos * 10 ^ (9 - 9) = nanos := by omega
        rw [exact]

theorem time?_chars (t : TimeOfDay) : time? t.chars = some (t, []) := by
  obtain ⟨hour, minute, second, nanos⟩ := t.valid
  have hourRead := number?_padded 2 t.hour (by omega) (by decide)
  have minuteRead := number?_padded 2 t.minute (by omega) (by decide)
  have secondRead := number?_padded 2 (t.second + t.nanos / 10 ^ 9) (by omega) (by decide)
  have fraction : fraction? (TimeOfDay.fractionText (t.nanos % 10 ^ 9)) = some (t.nanos % 10 ^ 9, []) :=
    fraction?_fractionText (Nat.mod_lt _ (by decide))
  simp only [time?, TimeOfDay.chars, List.append_assoc, List.cons_append, hourRead, minuteRead, secondRead, fraction,
    Option.bind_eq_bind, Option.bind_some, Text.mark?, if_true]
  -- A leap second is written as second 60, the whole second kept in its nanoseconds.
  by_cases leap : t.nanos < 10 ^ 9
  · have whole : t.second + t.nanos / 10 ^ 9 = t.second := by omega
    have part : t.nanos % 10 ^ 9 = t.nanos := by omega
    rw [whole, part, if_neg (by omega), if_pos leap, TimeOfDay.of?_self]
    rfl
  · have last : t.second = 59 := by omega
    have part : t.nanos % 10 ^ 9 + 10 ^ 9 = t.nanos := by omega
    rw [if_pos (by omega), part, ← last, TimeOfDay.of?_self]
    rfl

end Calendar

theorem Date.ofText?_toText (d : Date) : Date.ofText? d.toText = some d := by
  have read := Calendar.date?_chars d []
  rw [List.append_nil] at read
  rw [Date.ofText?, Date.toText, String.toList_ofList, read]
  rfl

theorem Timestamp.ofText?_toText (t : Timestamp) : Timestamp.ofText? (t.toText 'T') = some t := by
  rw [Timestamp.ofText?, Timestamp.toText, String.toList_ofList]
  simp only [Calendar.date?_chars, Option.bind_eq_bind, Option.bind_some, Text.mark?, if_true, Calendar.time?_chars]
  rfl

end SqlTree
