/-
Strings are read back from their JSON text.

- `Json.string?_quoted`: the characters between the quotes, with their escapes, are read as the string.
-/
import SqlTree.Json
import SqlTree.Hex

namespace SqlTree.Json

theorem chars_cons {c : Char} (quote : c ≠ '"') (backslash : c ≠ '\\') (printed : ¬c < ' ') (cs : List Char) :
    chars (c :: cs) = (chars cs).map (before c) := by
  rw [chars.eq_def]
  split
  case h_1 h => cases h
  case h_2 h => exact absurd (List.cons.inj h).1 quote
  case h_3 h | h_4 h | h_5 h => exact absurd (List.cons.inj h).1 backslash
  case h_6 h =>
    obtain ⟨rfl, rfl⟩ := List.cons.inj h
    rw [if_neg printed]
    cases chars cs <;> rfl

theorem chars_escape {letter c : Char} (h : escaped? letter = some c) (cs : List Char) :
    chars ('\\' :: letter :: cs) = (chars cs).map (before c) := by
  have other : letter ≠ 'u' := by
    rintro rfl
    cases h
  rw [chars.eq_def]
  split
  case h_1 h => cases h
  case h_2 h => cases (List.cons.inj h).1
  case h_3 h | h_4 h => exact absurd (List.cons.inj (List.cons.inj h).2).1 other
  case h_5 h' =>
    obtain ⟨-, h'⟩ := List.cons.inj h'
    obtain ⟨rfl, rfl⟩ := List.cons.inj h'
    rw [h]
    cases chars cs <;> rfl
  case h_6 plain h' =>
    obtain ⟨rfl, rfl⟩ := List.cons.inj h'
    exact (plain letter cs rfl rfl).elim

/-- What is read behind `\u` begins with four digits. -/
theorem unit?_of_chars {a b c d : Char} {cs : List Char} {r : Option (List Char) × List Char}
    (h : chars ('\\' :: 'u' :: a :: b :: c :: d :: cs) = some r) : ∃ u, unit? a b c d = some u := by
  cases hu : unit? a b c d with
  | some u => exact ⟨u, rfl⟩
  | none =>
    rw [chars.eq_def] at h
    split at h
    case h_1 h' => cases h'
    case h_2 h' => cases (List.cons.inj h').1
    case h_3 h' | h_4 h' =>
      simp only [List.cons.injEq, true_and] at h'
      obtain ⟨rfl, rfl, rfl, rfl, rfl⟩ := h'
      rw [hu] at h
      cases h
    case h_5 h' =>
      simp only [List.cons.injEq, true_and] at h'
      obtain ⟨rfl, rfl⟩ := h'
      cases h
    case h_6 plain h' =>
      obtain ⟨rfl, rfl⟩ := List.cons.inj h'
      exact (plain _ _ rfl rfl).elim

/-- A control character is read from its code. -/
theorem chars_control {a b c d : Char} {u : Nat} (h : unit? a b c d = some u) (single : isLead u = false)
    (single' : isTrail u = false) {cs : List Char} {r : Option (List Char) × List Char} (hr : chars cs = some r) :
    chars ('\\' :: 'u' :: a :: b :: c :: d :: cs) = some (before (Char.ofNat u) r) := by
  rw [chars.eq_def]
  split
  case h_1 h' => cases h'
  case h_2 h' => cases (List.cons.inj h').1
  case h_3 h' =>
    simp only [List.cons.injEq, true_and] at h'
    obtain ⟨rfl, rfl, rfl, rfl, rfl⟩ := h'
    obtain ⟨u', hu'⟩ := unit?_of_chars hr
    simp [h, hu', hr, single, single']
  case h_4 h' =>
    simp only [List.cons.injEq, true_and] at h'
    obtain ⟨rfl, rfl, rfl, rfl, rfl⟩ := h'
    simp [h, hr, single, single']
  case h_5 plain h' =>
    simp only [List.cons.injEq, true_and] at h'
    obtain ⟨rfl, rfl⟩ := h'
    exact (plain a b c d cs rfl rfl).elim
  case h_6 plain h' =>
    obtain ⟨rfl, rfl⟩ := List.cons.inj h'
    exact (plain _ _ rfl rfl).elim

theorem unit?_control {c : Char} (h : c < ' ') :
    unit? '0' '0' (Hex.digit (c.toNat / 16)) (Hex.digit (c.toNat % 16)) = some c.toNat := by
  have small : c.toNat < 32 := h
  have zero : Hex.digit? '0' = some 0 := by decide
  obtain ⟨high, -⟩ := Hex.digit?_digit (n := c.toNat / 16) (by omega)
  obtain ⟨low, -⟩ := Hex.digit?_digit (n := c.toNat % 16) (by omega)
  rw [unit?, zero, high, low]
  show some (4096 * 0 + 256 * 0 + 16 * (c.toNat / 16) + c.toNat % 16) = some c.toNat
  congr 1
  omega

/-- **A character is read back from the way it is written inside a string.** -/
theorem chars_escapedChars (c : Char) {cs : List Char} {r : Option (List Char) × List Char} (hr : chars cs = some r) :
    chars (escapedChars c ++ cs) = some (before c r) := by
  have escape : ∀ letter, escaped? letter = some c → chars ('\\' :: letter :: cs) = some (before c r) :=
    fun letter h => by
    rw [chars_escape h, hr, Option.map_some]
  unfold escapedChars
  repeat' split
  case isFalse.isFalse.isFalse.isFalse.isFalse.isFalse.isFalse.isTrue control =>
    have small : c.toNat < 32 := control
    have read := chars_control (unit?_control control) (by simp [isLead]; omega) (by simp [isTrail]; omega) hr
    rwa [Char.ofNat_toNat] at read
  case isFalse.isFalse.isFalse.isFalse.isFalse.isFalse.isFalse.isFalse quote backslash _ _ _ _ _ printed =>
    show chars (c :: cs) = _
    rw [chars_cons quote backslash printed, hr, Option.map_some]
  all_goals
    subst_vars
    exact escape _ rfl

theorem chars_flatMap (cs rest : List Char) :
    chars (cs.flatMap escapedChars ++ '"' :: rest) = some (some cs, rest) := by
  induction cs with
  | nil =>
    rw [List.flatMap_nil, List.nil_append, chars]
  | cons c cs ih =>
    rw [List.flatMap_cons, List.append_assoc, chars_escapedChars c ih]
    rfl

/-- **A string is read back from between its quotes.** -/
theorem string?_quoted (text : String) (rest : List Char) :
    ∃ cs, (quoted text).toList = '"' :: cs ∧ string? (cs ++ rest) = some (some text, rest) := by
  refine ⟨text.toList.flatMap escapedChars ++ ['"'], by rw [quoted, String.toList_ofList]; rfl, ?_⟩
  rw [string?, List.append_assoc, List.singleton_append, chars_flatMap, Option.map_some]
  show some (some (String.ofList text.toList), rest) = _
  rw [String.ofList_toList]

end SqlTree.Json
