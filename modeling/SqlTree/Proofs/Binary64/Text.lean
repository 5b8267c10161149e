/-
Decimal text of binary numbers.

- `shortest_reaches`: the shortest text of a place denotes a number in reach of it.
- `ofDecimal?_positional`: positional notation is read as the number nearest to what it denotes.
- `ofText?_toText`: a number is read back from its text.
-/
import SqlTree.Binary64.Text
import SqlTree.Proofs.Binary64.Rounding
import SqlTree.Proofs.Text.Decimal

namespace SqlTree.Binary64

/-! ## Reach, in decimal steps -/

/-- `c` steps of `10 ^ step / 10 ^ finestPower`, as a quotient counted in units, in reach of a place -/
def StepReaches (place step c : Nat) : Prop := Reaches place (c * 10 ^ step * unitsPerOne) (10 ^ finestPower)

theorem unitsPerOne_pos : 0 < unitsPerOne := by
  unfold unitsPerOne
  apply Nat.pow_pos
  decide

theorem roundsTo_iff {place step c : Nat} : roundsTo place step c = true ↔ StepReaches place step c := by
  have twice : c * 10 ^ step * (2 * unitsPerOne) = 2 * (c * 10 ^ step * unitsPerOne) := Nat.mul_left_comm _ 2 _
  simp only [roundsTo, roundingBounds, twice]
  split
  · next even =>
    simp only [Bool.and_eq_true, decide_eq_true_eq]
    exact ⟨fun h => ⟨h.1, h.2, fun odd => by omega⟩, fun h => ⟨h.low, h.high⟩⟩
  · next odd =>
    simp only [Bool.and_eq_true, decide_eq_true_eq]
    exact ⟨fun h => ⟨h.1.le, h.2.le, fun _ => h⟩, fun h => h.odd (by omega)⟩

/-- A quotient reaches what it reaches when both its parts are multiplied. -/
theorem Reaches.of_scaled {place num den k : Nat} (hk : 0 < k) (h : Reaches place (num * k) (den * k)) :
    Reaches place num den := by
  obtain ⟨low, high, odd⟩ := h
  simp only [← Nat.mul_assoc, Nat.mul_le_mul_right_iff hk, Nat.mul_lt_mul_right hk] at low high odd
  exact ⟨low, high, odd⟩

theorem Reaches.pos {place num den : Nat} (h : Reaches place num den) (hd : 0 < den) (hp : 0 < place) : 0 < num := by
  have positive : 0 < units place := (Nat.zero_le _).trans_lt (units_strictMono hp)
  have := h.low
  have : 0 < (units (place - 1) + units place) * den := Nat.mul_pos (by omega) hd
  omega

/-- finite numbers have at most so many digits in front of the point -/
def wholeDigits : Nat := 309

/-- Steps that reach a finite place denote a number within the range of finite numbers. -/
theorem StepReaches.lt {place step c : Nat} (h : StepReaches place step c) (hp : place < finiteCount) :
    c * 10 ^ step < 10 ^ (wholeDigits + finestPower) := by
  have last : units finiteCount < 10 ^ wholeDigits * unitsPerOne := by
    have place : finiteCount = 2046 * 2 ^ 52 + 2 ^ 52 := rfl
    rw [place, units_shifted (by decide) (.inr (Nat.le_refl _))]
    decide +kernel
  have here : units place ≤ units finiteCount := units_strictMono.monotone hp.le
  have next : units (place + 1) ≤ units finiteCount := units_strictMono.monotone hp
  have high : 2 * (c * 10 ^ step * unitsPerOne) ≤ 2 * units finiteCount * 10 ^ finestPower :=
    h.high.trans (Nat.mul_le_mul_right _ (by omega))
  rw [Nat.mul_assoc 2] at high
  have bound := (Nat.le_of_mul_le_mul_left high (by decide)).trans_lt
    (Nat.mul_lt_mul_of_pos_right last (Nat.pow_pos (by decide)))
  rw [Nat.pow_add]
  -- the powers are atoms from here on: comparing them would compute them
  have grid := unitsPerOne_pos
  generalize 10 ^ wholeDigits = whole at bound ⊢
  generalize 10 ^ finestPower = fine at bound ⊢
  generalize unitsPerOne = u at bound grid
  rw [Nat.mul_right_comm whole] at bound
  exact (Nat.mul_lt_mul_right grid).1 bound

/-! ## The shortest text -/

theorem onStep?_reaches {place step c : Nat} (h : onStep? place step = some c) : StepReaches place step c := by
  rw [← roundsTo_iff]
  unfold onStep? at h
  dsimp only at h
  split at h
  · next low high =>
    obtain rfl := Option.some.inj h
    split
    · exact low
    · exact high
  · next low _ =>
    obtain rfl := Option.some.inj h
    exact low
  · next high =>
    obtain rfl := Option.some.inj h
    exact high
  · cases h

/-- The finest steps are finer than the distance of two places. -/
theorem onStep?_zero {place : Nat} (hp : 0 < place) : ∃ c, onStep? place 0 = some c := by
  have finer : 2 * unitsPerOne < 10 ^ finestPower := by decide +kernel
  have grid := unitsPerOne_pos
  have below : units (place - 1) + 1 ≤ units place := units_strictMono (by omega)
  have above : units place + 1 ≤ units (place + 1) := units_strictMono (Nat.lt_succ_self place)
  have reaches : StepReaches place 0 (units place * 10 ^ finestPower / (10 ^ 0 * unitsPerOne)) := by
    rw [StepReaches, Nat.pow_zero, Nat.one_mul, Nat.mul_one]
    generalize unitsPerOne = u at finer grid
    generalize 10 ^ finestPower = d at finer
    have floor := Nat.div_mul_le_self (units place * d) u
    have rest := Nat.lt_div_mul_add grid (a := units place * d)
    have low := Nat.mul_le_mul_right d below
    have high := Nat.mul_le_mul_right d above
    rw [Nat.add_mul, Nat.one_mul] at low high
    refine ⟨?_, ?_, fun _ => ⟨?_, ?_⟩⟩ <;> rw [Nat.add_mul] <;> omega
  have rounds := roundsTo_iff.2 reaches
  unfold onStep?
  dsimp only
  rw [rounds]
  cases roundsTo place 0 (units place * 10 ^ finestPower / (10 ^ 0 * unitsPerOne) + 1) <;> exact ⟨_, rfl⟩

theorem coarsest_reaches {place : Nat} (hp : 0 < place) (step : Nat) :
    StepReaches place (coarsest place step).2 (coarsest place step).1 := by
  induction step with
  | zero =>
    obtain ⟨c, hc⟩ := onStep?_zero hp
    rw [coarsest, hc, Option.getD_some]
    exact onStep?_reaches hc
  | succ step ih =>
    rw [coarsest]
    split
    · next hc => exact onStep?_reaches hc
    · exact ih

/-- **The shortest text of a place denotes a number in reach of it.** -/
theorem shortest_reaches {place : Nat} (hp : 0 < place) :
    StepReaches place (shortest place).2 (shortest place).1 :=
  coarsest_reaches hp _

/-! ## Reading positional notation -/

variable {negative : Bool}

theorem ofRatio_eq {place num den : Nat} (hp : place < finiteCount) (hd : 0 < den)
    (h : Reaches place (num * unitsPerOne) den) : ofRatio negative num den = .finite negative ⟨place, hp⟩ := by
  have nearest := nearestPlace_eq hd h
  unfold ofRatio
  dsimp only
  rw [dif_pos (nearest.symm ▸ hp)]
  simp only [nearest]

theorem ofDecimal?_whole {ds : List Char} (hd : ∀ c ∈ ds, c.isDigit) (hne : ds ≠ []) :
    ofDecimal? negative ds = some (ofScientific negative (Decimal.value ds) 0) := by
  have filled : ds.isEmpty = false := List.isEmpty_eq_false_iff.2 hne
  simp [ofDecimal?, Decimal.span_digits hd, filled, exponent?]

theorem ofDecimal?_fraction {ds fs : List Char} (hd : ∀ c ∈ ds, c.isDigit) (hne : ds ≠ []) (hf : ∀ c ∈ fs, c.isDigit) :
    ofDecimal? negative (ds ++ '.' :: fs) = some (ofScientific negative (Decimal.value (ds ++ fs)) (-fs.length)) := by
  have whole : Decimal.span (ds ++ '.' :: fs) = (ds, '.' :: fs) :=
    Decimal.span_append hd (Decimal.forall_mem_head?_cons (by decide) fs)
  have filled : ds.isEmpty = false := List.isEmpty_eq_false_iff.2 hne
  simp [ofDecimal?, whole, Decimal.span_digits hf, filled, exponent?]

/-- Within the range of finite numbers what is written is rounded as it stands. -/
theorem ofScientific_whole {n : Nat} (h0 : n ≠ 0) (hn : n < 10 ^ 400) :
    ofScientific negative n 0 = ofRatio negative n 1 := by
  have size := (Decimal.length_digits_le_iff (by decide)).2 hn
  rw [ofScientific, if_neg (by omega), if_neg (by omega), if_pos (Int.le_refl 0), Int.toNat_zero, Nat.pow_zero,
    Nat.mul_one]

theorem ofScientific_fraction {n k : Nat} (h0 : n ≠ 0) (hk : 0 < k) (hk' : k ≤ 400) (hn : n < 10 ^ (400 + k)) :
    ofScientific negative n (-k) = ofRatio negative n (10 ^ k) := by
  have size := (Decimal.length_digits_le_iff (by omega)).2 hn
  have exponent : (- -(k : Int)).toNat = k := by omega
  rw [ofScientific, if_neg (by omega), if_neg (by omega), if_neg (by omega), exponent]

theorem isDigit_of_mem_zeros {n : Nat} {x : Char} (hx : x ∈ List.replicate n '0') : x.isDigit := by
  rw [(List.mem_replicate.1 hx).2]
  decide

/-- the digits in front of a point and those behind it, if `places` of them stand there -/
theorem fraction_parts (c places : Nat) :
    let ds := Decimal.digits c
    let whole := ds.length - places
    let front := if whole = 0 then ['0'] else ds.take whole
    let back := List.replicate (places - ds.length) '0' ++ ds.drop whole
    (∀ x ∈ front, x.isDigit) ∧ front ≠ [] ∧ (∀ x ∈ back, x.isDigit) ∧ back.length = places
      ∧ Decimal.value (front ++ back) = c := by
  have digits : ∀ x ∈ Decimal.digits c, x.isDigit := fun x => Decimal.isDigit_of_mem_digits
  have behind : ∀ n, ∀ x ∈ List.replicate (places - (Decimal.digits c).length) '0' ++ (Decimal.digits c).drop n,
      x.isDigit :=
    fun n x hx => (List.mem_append.1 hx).elim isDigit_of_mem_zeros fun hx => digits x (List.mem_of_mem_drop hx)
  dsimp only
  split
  · next small =>
    rw [small, List.drop_zero]
    refine ⟨by simp, by simp, behind 0, ?_, ?_⟩
    · rw [List.length_append, List.length_replicate]
      omega
    · have padded : ['0'] ++ (List.replicate (places - (Decimal.digits c).length) '0' ++ Decimal.digits c)
          = Decimal.padded (places + 1) c := by
        rw [Decimal.padded, Nat.succ_sub (by omega)]
        rfl
      rw [padded, Decimal.value_padded]
  · next large =>
    have filled : places - (Decimal.digits c).length = 0 := by omega
    rw [filled, List.replicate_zero, List.nil_append]
    refine ⟨fun x hx => digits x (List.mem_of_mem_take hx), ?_, fun x hx => digits x (List.mem_of_mem_drop hx), ?_, ?_⟩
    · rw [Ne, List.take_eq_nil_iff, not_or]
      exact ⟨large, Decimal.digits_ne_nil c⟩
    · rw [List.length_drop]
      omega
    · rw [List.take_append_drop, Decimal.value_digits]

/-- **Positional notation of steps that reach a place is read as the number there.** -/
theorem ofDecimal?_positional {place step c : Nat} (hp : 0 < place) (hp' : place < finiteCount)
    (h : StepReaches place step c) :
    ofDecimal? negative (positional c step) = some (.finite negative ⟨place, hp'⟩) := by
  have size := h.lt hp'
  have positive : c ≠ 0 := by
    have := Reaches.pos h (Nat.pow_pos (by decide)) hp
    rintro rfl
    simp at this
  have digits : ∀ x ∈ Decimal.digits c, x.isDigit := fun x => Decimal.isDigit_of_mem_digits
  unfold StepReaches at h
  unfold positional
  dsimp only
  split
  · next hstep =>
    obtain ⟨k, rfl⟩ : ∃ k, step = k + finestPower := ⟨step - finestPower, by omega⟩
    rw [Nat.add_sub_cancel]
    have value : Decimal.value (Decimal.digits c ++ List.replicate k '0') = c * 10 ^ k := by
      rw [Decimal.value, Nat.ofDigitChars_append, Nat.ofDigitChars_replicate_zero, ← Decimal.value,
        Decimal.value_digits, Nat.mul_comm]
    have all : ∀ x ∈ Decimal.digits c ++ List.replicate k '0', x.isDigit := fun x hx =>
      (List.mem_append.1 hx).elim (digits x) isDigit_of_mem_zeros
    have bound : c * 10 ^ k < 10 ^ 400 := by
      rw [Nat.pow_add, Nat.pow_add, ← Nat.mul_assoc] at size
      exact (Nat.lt_of_mul_lt_mul_right size).trans (by decide +kernel)
    have reach : Reaches place (c * 10 ^ k * unitsPerOne) 1 := by
      have scaled : c * 10 ^ k * unitsPerOne * 10 ^ finestPower = c * 10 ^ (k + finestPower) * unitsPerOne := by
        rw [Nat.mul_right_comm, Nat.mul_assoc c, ← Nat.pow_add]
      refine Reaches.of_scaled (k := 10 ^ finestPower) (Nat.pow_pos (by decide)) ?_
      rwa [scaled, Nat.one_mul]
    rw [ofDecimal?_whole all (by simp [Decimal.digits_ne_nil]), value,
      ofScientific_whole (Nat.mul_ne_zero positive (Nat.pow_pos (by decide)).ne') bound,
        ofRatio_eq hp' (by decide) reach]
  · next hstep =>
    obtain ⟨k, hk⟩ : ∃ k, finestPower = k + step := ⟨finestPower - step, by omega⟩
    have hk0 : 0 < k := by omega
    have hk' : k ≤ 400 := by
      unfold finestPower at hk
      omega
    rw [hk, Nat.add_sub_cancel]
    have bound : c < 10 ^ (400 + k) := by
      rw [hk, ← Nat.add_assoc, Nat.pow_add] at size
      exact (Nat.lt_of_mul_lt_mul_right size).trans (Nat.pow_lt_pow_right (by decide) (by unfold wholeDigits; omega))
    have reach : Reaches place (c * unitsPerOne) (10 ^ k) := by
      rw [hk, Nat.pow_add, Nat.mul_right_comm] at h
      exact h.of_scaled (Nat.pow_pos (by decide))
    obtain ⟨front, filled, back, length, value⟩ := fraction_parts c k
    rw [ofDecimal?_fraction front filled back, length, value, ofScientific_fraction positive hk0 hk' bound,
      ofRatio_eq hp' (Nat.pow_pos (by decide)) reach]

/-! ## Reading back -/

theorem sign_of_isDigit {d : Char} (hd : d.isDigit) (ds : List Char) : Decimal.sign (d :: ds) = (false, d :: ds) := by
  unfold Decimal.sign
  split
  · next h =>
    cases h
    cases hd
  · next h =>
    cases h
    cases hd
  · rfl

theorem toLower_of_isDigit {d : Char} (hd : d.isDigit) : d.toLower = d := by
  simp only [Char.isDigit, Bool.and_eq_true, decide_eq_true_eq] at hd
  have high : d.val.toNat ≤ 57 := UInt32.le_iff_toNat_le.1 hd.2
  have small : ¬(d.val ≥ 'A'.val ∧ d.val ≤ 'Z'.val) := by
    rintro ⟨upper, -⟩
    have upper : 65 ≤ d.val.toNat := UInt32.le_iff_toNat_le.1 upper
    omega
  exact dif_neg small

theorem ofText?_signed {d : Char} (hd : d.isDigit) (ds : List Char) :
    ofText? (String.ofList (if negative then '-' :: d :: ds else d :: ds)) = ofDecimal? negative (d :: ds) := by
  have signed : Decimal.sign (if negative then '-' :: d :: ds else d :: ds) = (negative, d :: ds) := by
    cases negative with
    | true => rfl
    | false => exact sign_of_isDigit hd ds
  have lower : ∀ word : String, word.toList.head?.any Char.isDigit = false →
      String.ofList ((d :: ds).map Char.toLower) ≠ word := by
    rintro _ hw rfl
    rw [String.toList_ofList] at hw
    have head : d.toLower.isDigit = false := hw
    rw [toLower_of_isDigit hd, hd] at head
    cases head
  rw [ofText?, String.toList_ofList, signed]
  dsimp only
  rw [if_neg, if_neg (lower _ (by decide))]
  exact not_or.2 ⟨lower _ (by decide), lower _ (by decide)⟩

theorem positional_eq_cons (c step : Nat) : ∃ d ds, positional c step = d :: ds ∧ d.isDigit := by
  have front : ∀ ds rest : List Char, (∀ x ∈ ds, x.isDigit) → ds ≠ [] → ∃ d ds',
    ds ++ rest = d :: ds' ∧ d.isDigit := by
    intro ds rest digits filled
    cases ds with
    | nil => exact absurd rfl filled
    | cons d ds => exact ⟨d, ds ++ rest, rfl, digits d List.mem_cons_self⟩
  unfold positional
  dsimp only
  split
  · exact front _ _ (fun x => Decimal.isDigit_of_mem_digits) (Decimal.digits_ne_nil c)
  · obtain ⟨digits, filled, -⟩ := fraction_parts c (finestPower - step)
    exact front _ _ digits filled

/-- **A number is read back from its text.** -/
theorem ofText?_toText (x : Binary64) : ofText? x.toText = some x := by
  cases x with
  | nan => rfl
  | infinite negative => cases negative <;> rfl
  | finite negative place =>
    obtain ⟨place, hp⟩ := place
    unfold toText
    dsimp only
    by_cases zero : place = 0
    · subst zero
      rw [if_pos rfl, ofText?_signed (by decide), ofDecimal?_whole (by simp) (by simp), ofScientific, if_pos (.inl rfl)]
      rfl
    · rw [if_neg zero]
      obtain ⟨d, ds, text, digit⟩ := positional_eq_cons (shortest place).1 (shortest place).2
      rw [text, ofText?_signed digit, ← text]
      exact ofDecimal?_positional (Nat.pos_of_ne_zero zero) hp (shortest_reaches (Nat.pos_of_ne_zero zero))

end SqlTree.Binary64
