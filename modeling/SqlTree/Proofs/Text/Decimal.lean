/-
Decimal text of whole numbers.

- `span_append`: a number is read at the front of a text, up to the first character that is no digit.
- `uint64?_ofUInt64`, `int64?_ofInt`: numbers of 64 bits are read back.
-/
import SqlTree.Decimal

namespace SqlTree.Decimal

theorem digits_ne_nil (n : Nat) : digits n ≠ [] := Nat.toDigits_ne_nil

theorem isDigit_of_mem_digits {n : Nat} {c : Char} (h : c ∈ digits n) : c.isDigit :=
  Nat.isDigit_of_mem_toDigits (by decide) (by decide) h

theorem toList_ofNat (n : Nat) : (ofNat n).toList = digits n := by rw [ofNat, String.toList_ofList]

theorem ofNat_injective {m n : Nat} (h : ofNat m = ofNat n) : m = n := by
  have digits_eq : digits m = digits n := by rw [← toList_ofNat, ← toList_ofNat, h]
  rw [← value_digits m, ← value_digits n, digits_eq]

/-- A number of at most `k` digits is less than ten to the power of `k`. -/
theorem length_digits_le_iff {n k : Nat} (hk : 0 < k) : (digits n).length ≤ k ↔ n < 10 ^ k :=
  Nat.length_toDigits_le_iff (by decide) hk

/-! ## Leading zeros -/

theorem isDigit_of_mem_padded {width n : Nat} {c : Char} (h : c ∈ padded width n) : c.isDigit := by
  rcases List.mem_append.1 h with h | h
  · rw [(List.mem_replicate.1 h).2]
    decide
  · exact isDigit_of_mem_digits h

theorem value_padded (width n : Nat) : value (padded width n) = n := by
  rw [value, padded, Nat.ofDigitChars_append, Nat.ofDigitChars_replicate_zero, Nat.mul_zero]
  exact value_digits n

theorem length_padded {width n : Nat} (h : (digits n).length ≤ width) : (padded width n).length = width := by
  rw [padded, List.length_append, List.length_replicate]
  omega

theorem padded_ne_nil (width n : Nat) : padded width n ≠ [] :=
  List.append_ne_nil_of_right_ne_nil _ (digits_ne_nil n)

/-! ## Reading back -/

theorem forall_mem_head?_cons {c : Char} (hc : c.isDigit = false) (rest : List Char) :
    ∀ x ∈ (c :: rest).head?, x.isDigit = false := by
  rintro _ ⟨⟩
  exact hc

/-- The digits at the front of a text are taken whole, if what follows is no digit. -/
theorem span_append {ds rest : List Char} (hd : ∀ c ∈ ds, c.isDigit) (hr : ∀ c ∈ rest.head?, c.isDigit = false) :
    span (ds ++ rest) = (ds, rest) := by
  have stop : rest.takeWhile Char.isDigit = [] ∧ rest.dropWhile Char.isDigit = rest := by
    cases rest with
    | nil => exact ⟨rfl, rfl⟩
    | cons c rest => simp [hr c rfl]
  rw [span, List.takeWhile_append_of_pos hd, List.dropWhile_append_of_pos hd, stop.1, stop.2, List.append_nil]

theorem span_digits {ds : List Char} (hd : ∀ c ∈ ds, c.isDigit) : span ds = (ds, []) := by
  have nothing : ∀ c ∈ ([] : List Char).head?, c.isDigit = false := by simp
  have read := span_append hd nothing
  rwa [List.append_nil] at read

theorem nat?_digits (n : Nat) : nat? (digits n) = some n := by
  have filled : (digits n).isEmpty = false := by
    rw [List.isEmpty_eq_false_iff]
    exact digits_ne_nil n
  have all : (digits n).all Char.isDigit = true := List.all_eq_true.2 fun c => isDigit_of_mem_digits
  rw [nat?, filled, all, value_digits]
  rfl

theorem digits_ne_cons {c : Char} (hc : c.isDigit = false) (n : Nat) (rest cs : List Char) :
    digits n ++ rest ≠ c :: cs := by
  rcases hd : digits n with _ | ⟨c', cs'⟩
  · exact absurd hd (digits_ne_nil n)
  · rintro ⟨⟩
    have digit : c.isDigit := isDigit_of_mem_digits (hd ▸ List.mem_cons_self)
    rw [hc] at digit
    cases digit

theorem sign_digits (n : Nat) (rest : List Char) : sign (digits n ++ rest) = (false, digits n ++ rest) := by
  unfold sign
  split
  · next h => exact absurd h (digits_ne_cons (by decide) n rest _)
  · next h => exact absurd h (digits_ne_cons (by decide) n rest _)
  · rfl

theorem below?_ofNat {bound n : Nat} (h : n < bound) : below? bound (ofNat n) = some n := by
  rw [below?, toList_ofNat]
  split
  · next hd => exact absurd ((List.append_nil _).trans hd) (digits_ne_cons (by decide) n [] _)
  · show ((nat? (digits n)).bind fun n => if n < bound then some n else none) = some n
    rw [nat?_digits]
    exact if_pos h

theorem uint64?_ofUInt64 (n : UInt64) : uint64? (ofUInt64 n) = some n := by
  rw [uint64?, ofUInt64, below?_ofNat n.toNat_lt, Option.map_some, UInt64.ofNat_toNat]

/-- A sign and digits are read as the number that they denote, if it fits. -/
theorem int64?_eq {text : String} {negative : Bool} {m : Nat} {n : Int64}
    (hsign : sign text.toList = (negative, digits m)) (hm : (if negative then -(m : Int) else m) = n.toInt) :
    int64? text = some n := by
  have bounds : Int64.minValue.toInt ≤ n.toInt ∧ n.toInt ≤ Int64.maxValue.toInt :=
    ⟨Int64.minValue_le_toInt n, Int64.toInt_le n⟩
  rw [int64?, hsign]
  simp only [nat?_digits, Option.bind_eq_bind, Option.bind_some]
  rw [hm, if_pos bounds, Int64.ofInt_toInt]

theorem int64?_ofInt (n : Int64) : int64? (ofInt n.toInt) = some n := by
  cases hi : n.toInt with
  | ofNat m =>
    have signed : sign (ofInt (.ofNat m)).toList = (false, digits m) := by
      rw [ofInt, toList_ofNat, ← List.append_nil (digits m), sign_digits]
    exact int64?_eq (m := m) signed hi.symm
  | negSucc m =>
    have signed : sign (ofInt (.negSucc m)).toList = (true, digits (m + 1)) := by
      rw [ofInt, String.toList_append, toList_ofNat]
      rfl
    exact int64?_eq (m := m + 1) signed hi.symm

end SqlTree.Decimal
