/-
Finite maps with text keys, as lists in the order of their keys. Characters are compared by code point, the order of
their UTF-8 forms.
-/

namespace SqlTree

/-- pairs in strictly ascending order of their keys -/
abbrev Keyed (α : Type) := List (String × α)

namespace Keyed

variable {α : Type}

def find? (key : String) : Keyed α → Option α
  | [] => none
  | (k, v) :: rest => if k = key then some v else find? key rest

/-- the map with a value for a key, in place of any it had -/
def insert (key : String) (value : α) : Keyed α → Keyed α
  | [] => [(key, value)]
  | (k, v) :: rest =>
    if key = k then (key, value) :: rest
    else if key < k then (key, value) :: (k, v) :: rest
    else (k, v) :: insert key value rest

/-- the keys in order -/
def keys (m : Keyed α) : List String := m.map (·.1)

/-- the map of a list of pairs, of which later ones win -/
def ofList (pairs : List (String × α)) : Keyed α :=
  pairs.foldl (fun m (k, v) => insert k v m) []

/-- Under the key of an insertion stands the value inserted. -/
theorem find?_insert_self (key : String) (value : α) (m : Keyed α) :
    find? key (insert key value m) = some value := by
  induction m with
  | nil => simp [insert, find?]
  | cons pair rest ih =>
    obtain ⟨k, v⟩ := pair
    unfold insert
    split
    · simp [find?]
    · split
      · simp [find?]
      · next h _ => simp [find?, Ne.symm h, ih]

theorem find?_insert_of_ne {key other : String} (h : other ≠ key) (value : α) (m : Keyed α) :
    find? other (insert key value m) = find? other m := by
  induction m with
  | nil => simp [insert, find?, Ne.symm h]
  | cons pair rest ih =>
    obtain ⟨k, v⟩ := pair
    unfold insert
    split
    · next hk => subst hk; simp [find?, Ne.symm h]
    · split
      · simp [find?, Ne.symm h]
      · simp [find?, ih]

end Keyed
end SqlTree
