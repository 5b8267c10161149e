/-
Values are read back from their JSON text, whatever blanks stand between their parts.

- `Json.Writes`: a text that is read as a value wherever it stands, in no more steps than it has characters.
- `Json.Writes.array`, `Json.Writes.object`: a value is read from the texts of its parts, if they are.
- `Json.Writes.read?`: a text that holds nothing else is read as the value.
-/
import Mathlib.Data.List.Forall2
import SqlTree.Proofs.Json.Quoted

namespace SqlTree.Json

/-! ## Gaps -/

def Gap (cs : List Char) : Prop := ∀ c ∈ cs, isGap c = true

theorem dropGap_gap {g : List Char} (h : Gap g) (cs : List Char) : dropGap (g ++ cs) = dropGap cs :=
  List.dropWhile_append_of_pos h

theorem dropGap_cons {c : Char} (h : isGap c = false) (cs : List Char) : dropGap (c :: cs) = c :: cs :=
  List.dropWhile_cons_of_neg (by simp [h])

theorem dropGap_gap_cons {g : List Char} (hg : Gap g) {c : Char} (hc : isGap c = false) (cs : List Char) :
    dropGap (g ++ c :: cs) = c :: cs := by
  rw [dropGap_gap hg, dropGap_cons hc]

theorem value_gap {g : List Char} (h : Gap g) (steps : Nat) (cs : List Char) :
    value steps (g ++ cs) = value steps cs := by
  cases steps with
  | zero => rw [value, value]
  | succ steps => rw [value, value, dropGap_gap h]

theorem items_gap {g : List Char} (h : Gap g) (steps : Nat) (cs : List Char) :
    items steps (g ++ cs) = items steps cs := by
  cases steps with
  | zero => rw [items, items]
  | succ steps => rw [items, items, value_gap h]

theorem members_gap {g : List Char} (h : Gap g) (steps : Nat) (cs : List Char) :
    members steps (g ++ cs) = members steps cs := by
  cases steps with
  | zero => rw [members, members]
  | succ steps => rw [members, members, dropGap_gap h]

/-! ## Values -/

/-- a text that is read as a value wherever it stands, in no more steps than it has characters -/
structure Writes (cs : List Char) (j : Json) : Prop where
  head : ∃ c cs', cs = c :: cs' ∧ isGap c = false ∧ c ≠ ']'
  read : ∀ steps rest, cs.length ≤ steps → value steps (cs ++ rest) = some (j, rest)

structure WritesMember (cs : List Char) (m : Option String × Json) : Prop where
  head : ∃ cs', cs = '"' :: cs'
  read : ∀ steps rest, cs.length ≤ steps → members (steps + 1) (cs ++ rest) = match dropGap rest with
    | ',' :: rest => (members steps rest).map fun (ms, rest) => (m :: ms, rest)
    | '\x7d' :: rest => some ([m], rest)
    | _ => none

theorem Writes.string (text : String) : Writes (quoted text).toList (.string (some text)) := by
  obtain ⟨cs, hq, -⟩ := string?_quoted text []
  refine ⟨⟨'"', cs, hq, by decide, by decide⟩, fun steps rest hs => ?_⟩
  obtain ⟨cs', hq', read⟩ := string?_quoted text rest
  obtain rfl : cs = cs' := (List.cons.inj (hq.symm.trans hq')).2
  rw [hq] at hs ⊢
  cases steps with
  | zero => simp at hs
  | succ steps =>
    rw [value, List.cons_append, dropGap_cons (by decide)]
    simp only [read, Option.map_some]

theorem WritesMember.of_value {cs g : List Char} {j : Json} (h : Writes cs j) (hg : Gap g) (key : String) :
    WritesMember ((quoted key).toList ++ ':' :: (g ++ cs)) (some key, j) := by
  obtain ⟨ks, hq, -⟩ := string?_quoted key []
  refine ⟨⟨ks ++ ':' :: (g ++ cs), by rw [hq]; rfl⟩, fun steps rest hs => ?_⟩
  obtain ⟨ks', hq', read⟩ := string?_quoted key (':' :: (g ++ (cs ++ rest)))
  obtain rfl : ks = ks' := (List.cons.inj (hq.symm.trans hq')).2
  have enough : cs.length ≤ steps := by
    simp only [List.length_append, List.length_cons] at hs
    omega
  have text : (quoted key).toList ++ ':' :: (g ++ cs) ++ rest = '"' :: (ks ++ ':' :: (g ++ (cs ++ rest))) := by
    rw [hq]
    simp
  have colon : isGap ':' = false := by decide
  rw [text, members, dropGap_cons (by decide)]
  simp only [read, dropGap_cons colon, Option.bind_eq_bind, Option.bind_some, value_gap hg]
  exact (congrArg (Option.bind · _) (h.read steps rest enough)).trans rfl

/-! ## Parts in a row -/

section
variable {g g' : List Char} (hg : Gap g) (hg' : Gap g')

include hg hg'

/-- The items of an array, by induction on those that follow the first one. -/
theorem items_read {texts : List (List Char)} {js : List Json} (h : List.Forall₂ Writes texts js) (filled : texts ≠ [])
    (rest : List Char) : ∀ steps, (List.intercalate (',' :: g) texts).length < steps →
      items steps (List.intercalate (',' :: g) texts ++ (g' ++ ']' :: rest)) = some (js, rest) := by
  induction h with
  | nil => exact absurd rfl filled
  | @cons text j texts js first others ih =>
    intro steps hs
    obtain ⟨steps, rfl⟩ : ∃ n, steps = n + 1 := ⟨steps - 1, by omega⟩
    cases others with
    | nil =>
      rw [List.intercalate_singleton] at hs ⊢
      rw [items, first.read steps _ (by omega)]
      simp only [Option.bind_eq_bind, Option.bind_some, dropGap_gap_cons hg' (show isGap ']' = false by decide)]
    | @cons text' j' texts js second others =>
      rw [List.intercalate_cons_cons] at hs ⊢
      simp only [List.append_assoc, List.cons_append, List.length_append, List.length_cons] at hs ⊢
      rw [items, first.read steps _ (by omega)]
      simp only [Option.bind_eq_bind, Option.bind_some, dropGap_cons (show isGap ',' = false by decide), items_gap hg]
      rw [ih (List.cons_ne_nil _ _) steps (by omega)]
      rfl

/-- The members of an object, by induction on those that follow the first one. -/
theorem members_read {texts : List (List Char)} {ms : List (Option String × Json)}
    (h : List.Forall₂ WritesMember texts ms)
    (filled : texts ≠ []) (rest : List Char) : ∀ steps, (List.intercalate (',' :: g) texts).length < steps →
      members steps (List.intercalate (',' :: g) texts ++ (g' ++ '\x7d' :: rest)) = some (ms, rest) := by
  induction h with
  | nil => exact absurd rfl filled
  | @cons text m texts ms first others ih =>
    intro steps hs
    obtain ⟨steps, rfl⟩ : ∃ n, steps = n + 1 := ⟨steps - 1, by omega⟩
    cases others with
    | nil =>
      rw [List.intercalate_singleton] at hs ⊢
      rw [first.read steps _ (by omega), dropGap_gap_cons hg' (show isGap '\x7d' = false by decide)]
      rfl
    | @cons text' m' texts ms second others =>
      rw [List.intercalate_cons_cons] at hs ⊢
      simp only [List.append_assoc, List.cons_append, List.length_append, List.length_cons] at hs ⊢
      rw [first.read steps _ (by omega), dropGap_cons (show isGap ',' = false by decide)]
      simp only [members_gap hg]
      rw [ih (List.cons_ne_nil _ _) steps (by omega)]
      rfl

/-- **An array is read from the texts of its items.** -/
theorem Writes.array {texts : List (List Char)} {js : List Json} (h : List.Forall₂ Writes texts js)
    (filled : texts ≠ []) :
    Writes ('[' :: (g ++ List.intercalate (',' :: g) texts ++ g' ++ [']'])) (.array js) := by
  refine ⟨⟨_, _, rfl, by decide, by decide⟩, fun steps rest hs => ?_⟩
  obtain ⟨c, cs, front, notGap, notClose⟩ : ∃ c cs, List.intercalate (',' :: g) texts = c :: cs ∧ isGap c = false
      ∧ c ≠ ']' := by
    cases h with
    | nil => exact absurd rfl filled
    | cons first others =>
      obtain ⟨c, cs, rfl, notGap, notClose⟩ := first.head
      cases others with
      | nil => exact ⟨c, cs, by rw [List.intercalate_singleton], notGap, notClose⟩
      | cons => exact ⟨c, _, by rw [List.intercalate_cons_cons, List.append_assoc, List.cons_append], notGap, notClose⟩
  have inner := items_read hg hg' h filled rest
  simp only [List.length_cons, List.length_append] at hs
  obtain ⟨steps, rfl⟩ : ∃ n, steps = n + 1 := ⟨steps - 1, by omega⟩
  have read := inner steps (by omega)
  rw [value]
  simp only [List.cons_append, List.append_assoc, List.nil_append, dropGap_cons (show isGap '[' = false by decide),
    dropGap_gap hg]
  rw [front] at read ⊢
  rw [List.cons_append, dropGap_cons notGap]
  split
  · rename_i same
    exact absurd (List.cons.inj same).1 notClose
  · rw [← List.cons_append, read]
    rfl

/-- **An object is read from the texts of its members.** -/
theorem Writes.object {texts : List (List Char)} {ms : List (Option String × Json)}
    (h : List.Forall₂ WritesMember texts ms) (filled : texts ≠ []) :
    Writes ('\x7b' :: (g ++ List.intercalate (',' :: g) texts ++ g' ++ ['\x7d'])) (.object ms) := by
  refine ⟨⟨_, _, rfl, by decide, by decide⟩, fun steps rest hs => ?_⟩
  obtain ⟨cs, front⟩ : ∃ cs, List.intercalate (',' :: g) texts = '"' :: cs := by
    cases h with
    | nil => exact absurd rfl filled
    | cons first others =>
      obtain ⟨cs, rfl⟩ := first.head
      cases others with
      | nil => exact ⟨cs, by rw [List.intercalate_singleton]⟩
      | cons => exact ⟨_, by rw [List.intercalate_cons_cons, List.append_assoc, List.cons_append]⟩
  have inner := members_read hg hg' h filled rest
  simp only [List.length_cons, List.length_append] at hs
  obtain ⟨steps, rfl⟩ : ∃ n, steps = n + 1 := ⟨steps - 1, by omega⟩
  have read := inner steps (by omega)
  rw [value]
  simp only [List.cons_append, List.append_assoc, List.nil_append, dropGap_cons (show isGap '\x7b' = false by decide),
    dropGap_gap hg]
  rw [front] at read ⊢
  rw [List.cons_append, dropGap_cons (by decide)]
  split
  · rename_i same
    cases (List.cons.inj same).1
  · rw [← List.cons_append, read]
    rfl

end

/-- **A text that holds nothing but a value is read as the value.** -/
theorem Writes.read? {text : String} {j : Json} (h : Writes text.toList j) : Json.read? text = some j := by
  rw [Json.read?]
  have read := h.read (text.toList.length + 1) [] (by omega)
  rw [List.append_nil] at read
  rw [read]
  rfl

end SqlTree.Json
