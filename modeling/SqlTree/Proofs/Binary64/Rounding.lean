/-
Rounding to the nearest finite number.

The reals that round to a place reach from halfway below it to halfway above it, and to these bounds themselves if the
place is even. `Reaches` says that a quotient lies there.

- `units_shifted`: the number at a place is its significand times a power of two.
- `nearestPlace_reaches`: a quotient lies in reach of its nearest place.
- `nearestPlace_eq`: it lies in reach of no other place.
-/
import Mathlib.Order.Monotone.Basic
import SqlTree.Binary64

namespace SqlTree.Binary64

/-! ## Places -/

/-- The number at a place: significands from `2 ^ 52` to `2 ^ 53` stand above every shift, and all smaller ones above
none. -/
theorem units_shifted {s r : Nat} (hr : r ≤ 2 ^ 53) (hs : s = 0 ∨ 2 ^ 52 ≤ r) : units (s * 2 ^ 52 + r) = r * 2 ^ s := by
  by_cases small : r < 2 ^ 52
  · obtain rfl : s = 0 := by omega
    rw [units, if_pos (by omega), Nat.zero_mul, Nat.zero_add, Nat.pow_zero, Nat.mul_one]
  · rw [units, if_neg (by omega)]
    by_cases top : r = 2 ^ 53
    · have rest : (s * 2 ^ 52 + r) % 2 ^ 52 = 0 := by omega
      have shift : (s * 2 ^ 52 + r) / 2 ^ 52 - 1 = s + 1 := by omega
      rw [rest, shift, Nat.pow_succ, top]
      omega
    · have rest : 2 ^ 52 + (s * 2 ^ 52 + r) % 2 ^ 52 = r := by omega
      have shift : (s * 2 ^ 52 + r) / 2 ^ 52 - 1 = s := by omega
      rw [rest, shift]

/-- Every place is that of a significand above some shift. -/
theorem exists_shifted (place : Nat) :
    ∃ s r, place = s * 2 ^ 52 + r ∧ r < 2 ^ 53 ∧ (s = 0 ∨ 2 ^ 52 ≤ r) := by
  by_cases small : place < 2 ^ 52
  · exact ⟨0, place, by omega, by omega, .inl rfl⟩
  · exact ⟨place / 2 ^ 52 - 1, 2 ^ 52 + place % 2 ^ 52, by omega, by omega, .inr (by omega)⟩

theorem units_strictMono : StrictMono units := by
  refine strictMono_nat_of_lt_succ fun place => ?_
  obtain ⟨s, r, rfl, hr, hs⟩ := exists_shifted place
  rw [Nat.add_assoc, units_shifted (Nat.le_of_lt hr) hs, units_shifted hr (by omega)]
  exact Nat.mul_lt_mul_of_pos_right (Nat.lt_succ_self r) (Nat.two_pow_pos s)

/-! ## Reach -/

/-- a quotient, counted in units, that lies between the bounds of what rounds to a place -/
structure Reaches (place num den : Nat) : Prop where
  low : (units (place - 1) + units place) * den ≤ 2 * num
  high : 2 * num ≤ (units place + units (place + 1)) * den
  odd : place % 2 = 1 → (units (place - 1) + units place) * den < 2 * num
    ∧ 2 * num < (units place + units (place + 1)) * den

/-- Two places that are in reach of one quotient share a bound, which belongs to both only if both are even; but then
they are neighbours. -/
theorem Reaches.not_lt {p p' num den : Nat} (h : Reaches p num den) (h' : Reaches p' num den) (hd : 0 < den) :
    ¬p < p' := by
  intro hlt
  have below : units p ≤ units (p' - 1) := units_strictMono.monotone (by omega)
  have above : units (p + 1) ≤ units p' := units_strictMono.monotone (by omega)
  have bounds : (units p + units (p + 1)) * den ≤ (units (p' - 1) + units p') * den :=
    Nat.mul_le_mul_right den (Nat.add_le_add below above)
  have high := h.high
  have low := h'.low
  have same : units p + units (p + 1) = units (p' - 1) + units p' :=
    Nat.eq_of_mul_eq_mul_right hd (by omega)
  have neighbours : p = p' - 1 := units_strictMono.injective (by omega)
  have even : p % 2 ≠ 1 := fun ho => by
    have := (h.odd ho).2
    omega
  have even' : p' % 2 ≠ 1 := fun ho => by
    have := (h'.odd ho).1
    omega
  omega

theorem Reaches.eq {p p' num den : Nat} (h : Reaches p num den) (h' : Reaches p' num den) (hd : 0 < den) : p = p' := by
  have := h.not_lt h' hd
  have := h'.not_lt h hd
  omega

/-! ## The nearest place -/

/-- A quotient differs by at most one half from the whole number it is rounded to, and by less if this is odd. -/
theorem roundQuotient_bounds (num : Nat) {den : Nat} (hd : 0 < den) :
    2 * num ≤ 2 * (roundQuotient num den * den) + den ∧ 2 * (roundQuotient num den * den) ≤ 2 * num + den
      ∧ (roundQuotient num den % 2 = 1 →
        2 * num < 2 * (roundQuotient num den * den) + den ∧ 2 * (roundQuotient num den * den) < 2 * num + den) := by
  have parts := Nat.div_add_mod num den
  have rest := Nat.mod_lt num hd
  rw [Nat.mul_comm] at parts
  unfold roundQuotient
  generalize num / den = q at parts ⊢
  generalize num % den = r at parts rest ⊢
  have next : (q + 1) * den = q * den + den := Nat.succ_mul q den
  dsimp only
  split
  · rw [next]
    refine ⟨?_, ?_, fun _ => ⟨?_, ?_⟩⟩ <;> omega
  · refine ⟨?_, ?_, fun _ => ⟨?_, ?_⟩⟩ <;> omega

/-- The shift makes the quotient one of 53 bits, unless there is none to make. -/
theorem excessBits_bounds (n : Nat) {den : Nat} (hd : 0 < den) :
    n < 2 ^ 53 * (den * 2 ^ excessBits (n / den))
      ∧ (excessBits (n / den) = 0 ∨ 2 ^ 52 * (den * 2 ^ excessBits (n / den)) ≤ n) := by
  have shifted : ∀ k s : Nat, 2 ^ k * (den * 2 ^ s) = 2 ^ (k + s) * den := fun k s => by
    rw [Nat.mul_comm den, ← Nat.mul_assoc, ← Nat.pow_add]
  rw [shifted, shifted, ← Nat.div_lt_iff_lt_mul hd, ← Nat.le_div_iff_mul_le hd]
  generalize n / den = q
  constructor
  · have bits : q.log2 + 1 ≤ 53 + excessBits q := by
      unfold excessBits
      omega
    exact Nat.lt_of_lt_of_le Nat.lt_log2_self (Nat.pow_le_pow_right (by decide) bits)
  · by_cases hs : excessBits q = 0
    · exact .inl hs
    · have bits : 52 + excessBits q = q.log2 := by
        unfold excessBits at hs ⊢
        omega
      have positive : q ≠ 0 := by
        rintro rfl
        exact hs rfl
      rw [bits]
      exact .inr (Nat.log2_self_le positive)

/-- **A quotient lies in reach of its nearest place.** -/
theorem nearestPlace_reaches (num : Nat) {den : Nat} (hd : 0 < den) :
    Reaches (nearestPlace num den) (num * unitsPerOne) den := by
  unfold nearestPlace
  generalize num * unitsPerOne = n
  obtain ⟨size, least⟩ := excessBits_bounds n hd
  dsimp only
  generalize excessBits (n / den) = s at size least ⊢
  have hD : 0 < den * 2 ^ s := Nat.mul_pos hd (Nat.two_pow_pos s)
  obtain ⟨up, down, odd⟩ := roundQuotient_bounds n hD
  generalize roundQuotient n (den * 2 ^ s) = q at up down odd ⊢
  have regroup : q * (den * 2 ^ s) = q * 2 ^ s * den := by rw [Nat.mul_comm den, Nat.mul_assoc]
  have hq : q ≤ 2 ^ 53 := by
    have : q * (den * 2 ^ s) < (2 ^ 53 + 1) * (den * 2 ^ s) := by
      rw [Nat.add_mul (2 ^ 53), Nat.one_mul]
      omega
    have := Nat.lt_of_mul_lt_mul_right this
    omega
  have hs : s = 0 ∨ 2 ^ 52 ≤ q := by
    refine least.imp_right fun least => ?_
    have : 2 ^ 52 * (den * 2 ^ s) < (q + 1) * (den * 2 ^ s) := by
      rw [Nat.add_mul q, Nat.one_mul]
      omega
    have := Nat.lt_of_mul_lt_mul_right this
    omega
  have here : units (s * 2 ^ 52 + q) = q * 2 ^ s := units_shifted hq hs
  have next : q * 2 ^ s + 2 ^ s ≤ units (s * 2 ^ 52 + q + 1) := by
    by_cases top : q = 2 ^ 53
    · have place : s * 2 ^ 52 + q + 1 = (s + 1) * 2 ^ 52 + (2 ^ 52 + 1) := by omega
      rw [place, units_shifted (by decide) (by omega), top, Nat.pow_succ]
      omega
    · rw [Nat.add_assoc, units_shifted (by omega) (by omega), Nat.add_mul, Nat.one_mul]
  have high : 2 * (q * (den * 2 ^ s)) + den * 2 ^ s
      ≤ (units (s * 2 ^ 52 + q) + units (s * 2 ^ 52 + q + 1)) * den := by
    have := Nat.mul_le_mul_right den next
    rw [Nat.add_mul, Nat.mul_comm (2 ^ s)] at this
    rw [regroup, here, Nat.add_mul]
    omega
  -- the place below has half the spacing if the significand is the least one above a shift
  by_cases edge : q = 0 ∨ q = 2 ^ 52 ∧ s ≠ 0
  · have even : (s * 2 ^ 52 + q) % 2 ≠ 1 := by omega
    refine ⟨?_, up.trans high, fun ho => absurd ho even⟩
    rcases edge with rfl | ⟨rfl, shifted⟩
    · obtain rfl : s = 0 := by omega
      exact (Nat.zero_mul den).le.trans (Nat.zero_le _)
    · have least := least.resolve_left shifted
      have before : units (s * 2 ^ 52 + 2 ^ 52 - 1) ≤ units (s * 2 ^ 52 + 2 ^ 52) :=
        units_strictMono.monotone (Nat.sub_le _ 1)
      rw [regroup, ← here] at least
      have := Nat.mul_le_mul_right den before
      rw [Nat.add_mul]
      omega
  · have before : units (s * 2 ^ 52 + q - 1) = (q - 1) * 2 ^ s := by
      rw [Nat.add_sub_assoc (by omega), units_shifted (by omega) (by omega)]
    have low : (units (s * 2 ^ 52 + q - 1) + units (s * 2 ^ 52 + q)) * den + den * 2 ^ s
        = 2 * (q * (den * 2 ^ s)) := by
      obtain ⟨r, rfl⟩ : ∃ r, q = r + 1 := ⟨q - 1, by omega⟩
      rw [before, regroup, here, Nat.add_sub_cancel, Nat.add_mul r, Nat.one_mul, Nat.add_mul, Nat.add_mul,
        Nat.mul_comm den]
      omega
    refine ⟨by omega, up.trans high, fun ho => ?_⟩
    have strict := odd (by omega)
    exact ⟨by omega, Nat.lt_of_lt_of_le strict.1 high⟩

/-- **It lies in reach of no other place.** -/
theorem nearestPlace_eq {place num den : Nat} (hd : 0 < den) (h : Reaches place (num * unitsPerOne) den) :
    nearestPlace num den = place :=
  (nearestPlace_reaches num hd).eq h hd

end SqlTree.Binary64
