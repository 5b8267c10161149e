/-
Reading at the front of a text: blanks that may be skipped, and a mark or a word that has to stand there. Readers return
what they leave. Blank are the characters with the White_Space property.
-/

namespace SqlTree.Text

/-- the White_Space property -/
def isBlank (c : Char) : Bool :=
  let n := c.toNat
  (0x9 ≤ n && n ≤ 0xd) || n == 0x20 || n == 0x85 || n == 0xa0 || n == 0x1680 || (0x2000 ≤ n && n ≤ 0x200a)
    || n == 0x2028 || n == 0x2029 || n == 0x202f || n == 0x205f || n == 0x3000

/-- Every blank that core knows is one. -/
theorem isBlank_of_isWhitespace (c : Char) (h : c.isWhitespace = true) : isBlank c = true := by
  simp only [Char.isWhitespace, Bool.or_eq_true, decide_eq_true_eq] at h
  rcases h with ((rfl | rfl) | rfl) | rfl <;> rfl

def dropBlanks (cs : List Char) : List Char :=
  cs.dropWhile isBlank

/-- what follows one mark -/
def mark? (mark : Char) : List Char → Option (List Char)
  | c :: cs => if c = mark then some cs else none
  | [] => none

def word? (word : List Char) (cs : List Char) : Option (List Char) :=
  if word.isPrefixOf cs then some (cs.drop word.length) else none

theorem mark?_eq_some_iff {mark : Char} {cs rest : List Char} : mark? mark cs = some rest ↔ cs = mark :: rest := by
  cases cs with
  | nil => simp [mark?]
  | cons c cs => by_cases h : c = mark <;> simp [mark?, h]

theorem word?_eq_some_iff {word cs rest : List Char} : word? word cs = some rest ↔ cs = word ++ rest := by
  unfold word?
  split
  · next h =>
    obtain ⟨t, rfl⟩ := List.isPrefixOf_iff_prefix.mp h
    simp
  · next h =>
    constructor
    · intro h'
      cases h'
    · rintro rfl
      exact absurd (List.isPrefixOf_iff_prefix.mpr (List.prefix_append _ _)) h

end SqlTree.Text
