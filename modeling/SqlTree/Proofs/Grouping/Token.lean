/-
The tokens of a text.

`tokens` cuts a text up from left to right: names in quotes and placeholders as `scan` finds them, and between those the
words, the comparison signs and the single marks, blanks falling away. What stands for a placeholder is a parameter of
the type, so tokens can be read without looking at it.

- `tokens_ident`, `tokens_placeholder`: a name and a placeholder are one token each, whatever characters they have.
- `tokens_plain`: text without quotes and marks is cut up by itself, if it keeps apart from what follows.
-/
import Mathlib.Data.List.TakeWhile
import SqlTree.Proofs.Scanning.Readable

namespace SqlTree

/-- what a text is made of, with `α` for placeholders -/
inductive Token (α : Type) where
  | ident (name : String)
  | placeholder (a : α)
  /-- a word, a comparison sign or a single mark -/
  | fixed (text : String)
  deriving DecidableEq, Repr

namespace Token

variable {α β : Type}

def map (f : α → β) : Token α → Token β
  | ident name => ident name
  | placeholder a => placeholder (f a)
  | fixed text => fixed text

def fixedAll (words : List String) : List (Token α) := words.map fixed

theorem map_fixedAll (f : α → β) (words : List String) : (fixedAll words).map (map f) = fixedAll words := by
  rw [fixedAll, List.map_map]
  rfl

end Token

/-! ## Cutting a text up -/

def isComparisonChar (c : Char) : Bool := ['<', '>', '='].contains c

/-- the characters that go on what a character begins: a word or a comparison sign; a single mark stands by itself -/
def goesOn (c : Char) : Char → Bool :=
  if isWordChar c then isWordChar else if isComparisonChar c then isComparisonChar else fun _ => false

/-- the token at the front of a text, if the text does not begin with a blank, and what follows -/
def tokenStep (d : Dialect) (c : Char) (cs : List Char) : Option (Option (Token String) × List Char) :=
  match scanStep d c cs with
  | some (some (.ident name), rest) => some (some (.ident name), rest)
  | some (some (.placeholder text), rest) => some (some (.placeholder text), rest)
  | some (none, _) =>
    if c = ' ' then some (none, cs)
    else some (some (.fixed (String.ofList (c :: cs.takeWhile (goesOn c)))), cs.dropWhile (goesOn c))
  | _ => none

theorem tokenStep_length {d : Dialect} {c : Char} {cs rest : List Char} {t : Option (Token String)}
    (h : tokenStep d c cs = some (t, rest)) : rest.length ≤ cs.length := by
  unfold tokenStep at h
  split at h
  · rename_i hs
    cases h
    exact scanStep_length hs
  · rename_i hs
    cases h
    exact scanStep_length hs
  · split at h
    · cases h
      exact Nat.le_refl _
    · cases h
      exact (List.dropWhile_suffix _).length_le
  · cases h

/-- the tokens of a text; nothing if it ends inside quotes or holds a string literal -/
def tokens (d : Dialect) : List Char → Option (List (Token String))
  | [] => some []
  | c :: cs =>
    match _h : tokenStep d c cs with
    | none => none
    | some (t, rest) => (tokens d rest).map (t.toList ++ ·)
termination_by cs => cs.length
decreasing_by exact Nat.lt_succ_of_le (tokenStep_length ‹_›)

/-- the words, comparison signs and marks of a text without quotes -/
def fixedTexts : List Char → List String
  | [] => []
  | c :: cs =>
    if c = ' ' then fixedTexts cs
    else String.ofList (c :: cs.takeWhile (goesOn c)) :: fixedTexts (cs.dropWhile (goesOn c))
termination_by cs => cs.length
decreasing_by
  · exact Nat.lt_succ_self _
  · exact Nat.lt_succ_of_le (List.dropWhile_suffix _).length_le

variable {d : Dialect}

theorem tokens_nil (d : Dialect) : tokens d [] = some [] := by rw [tokens]

theorem tokens_cons {c : Char} {cs rest : List Char} {t : Option (Token String)}
    (h : tokenStep d c cs = some (t, rest)) : tokens d (c :: cs) = (tokens d rest).map (t.toList ++ ·) := by
  rw [tokens]
  split
  · rename_i h'
    rw [h] at h'
    cases h'
  · rename_i t' rest' h'
    rw [h] at h'
    cases h'
    rfl

/-! ## Names and placeholders -/

theorem tokens_ident (d : Dialect) (name : String) {rest : List Char} (hr : Loose d rest) :
    tokens d ((d.quote name).toList ++ rest) = (tokens d rest).map ([.ident name] ++ ·) := by
  have apart : rest.head? ≠ some d.closeQuote := fun h => (hr _ (Option.mem_def.2 h)).2.1 rfl
  rw [toList_quote_append, tokens_cons (by rw [tokenStep, scanStep_quote d name apart])]
  rfl

theorem tokens_placeholder (hd : d.Legible) (i : Nat) {name : String} (hn : d.Spells name) {rest : List Char}
    (hr : Loose d rest) :
    tokens d ((d.placeholder i name).toList ++ rest)
      = (tokens d rest).map ([.placeholder (d.placeholder i name)] ++ ·) := by
  obtain ⟨cs, text, read⟩ := read_placeholder i hn hr
  rw [text, tokens_cons (by rw [tokenStep, scanStep_read hd read]), String.ofList_toList]
  rfl

/-! ## Plain text -/

/-- What goes on a word or a comparison sign is gone on by the same characters. -/
theorem goesOn_eq {c x : Char} (h : goesOn c x) : goesOn x = goesOn c := by
  have apart : isComparisonChar x → isWordChar x = false := by
    intro hx
    simp only [isComparisonChar, List.contains_eq_mem, List.mem_cons, List.not_mem_nil, or_false,
      decide_eq_true_eq] at hx
    rcases hx with rfl | rfl | rfl <;> decide
  unfold goesOn at h
  split at h
  · rename_i hc
    rw [goesOn, goesOn, if_pos h, if_pos hc]
  · rename_i hc
    split at h
    · rename_i hc'
      rw [goesOn, goesOn, if_neg (by simp [apart h]), if_pos h, if_neg hc, if_pos hc']
    · cases h

theorem goesOn_of_isGap {c : Char} (h : isGap c) (x : Char) : goesOn c x = false := by
  simp only [isGap, List.contains_eq_mem, List.mem_cons, List.not_mem_nil, or_false, decide_eq_true_eq] at h
  rcases h with rfl | rfl | rfl | rfl | rfl | rfl | rfl <;> rfl

/-- What a text begins is not gone on by what follows the text, if the last character of the text is not. -/
theorem span_goesOn {c : Char} {cs rest : List Char}
    (h : ∀ x ∈ (c :: cs).getLast?, ∀ y ∈ rest.head?, goesOn x y = false) :
    (cs ++ rest).takeWhile (goesOn c) = cs.takeWhile (goesOn c)
      ∧ (cs ++ rest).dropWhile (goesOn c) = cs.dropWhile (goesOn c) ++ rest := by
  by_cases nothing : cs.dropWhile (goesOn c) = []
  · have all := List.dropWhile_eq_nil_iff.1 nothing
    have last : ∀ y ∈ rest.head?, goesOn c y = false := by
      rcases List.eq_nil_or_concat cs with rfl | ⟨front, x, rfl⟩
      · exact h c rfl
      · rw [← goesOn_eq (all x (by simp))]
        exact h x (by simp [List.getLast?_cons])
    obtain ⟨taken, dropped⟩ := takeWhile_of_loose all last
    rw [taken, dropped, nothing, List.takeWhile_eq_self_iff.2 all]
    exact ⟨rfl, rfl⟩
  · have short : (cs.takeWhile (goesOn c)).length ≠ cs.length := by
      have both := congrArg List.length (List.takeWhile_append_dropWhile (p := goesOn c) (l := cs))
      have some := List.length_pos_iff.2 nothing
      rw [List.length_append] at both
      omega
    rw [List.takeWhile_append, if_neg short, List.dropWhile_append, if_neg (by simpa using nothing)]
    exact ⟨rfl, rfl⟩

/-- **Plain text is cut up by itself**, whatever follows, if nothing goes on its last word or sign. -/
theorem tokens_plain (hd : d.Legible) {t rest : List Char} (ht : t.all isPlain)
    (last : ∀ x ∈ t.getLast?, ∀ y ∈ rest.head?, goesOn x y = false) :
    tokens d (t ++ rest) = (tokens d rest).map (Token.fixedAll (fixedTexts t) ++ ·) := by
  induction t using fixedTexts.induct with
  | case1 =>
    rw [fixedTexts]
    exact Option.map_id'.symm
  | case2 cs ih =>
    simp only [List.all_cons, Bool.and_eq_true] at ht
    have step : tokenStep d ' ' (cs ++ rest) = some (none, cs ++ rest) := by
      rw [tokenStep, scanStep_plain hd ht.1]
      rfl
    have last' : ∀ x ∈ cs.getLast?, ∀ y ∈ rest.head?, goesOn x y = false := fun x hx =>
      last x (by rw [List.getLast?_cons, Option.mem_def.1 hx]; rfl)
    rw [List.cons_append, tokens_cons step, ih ht.2 last', fixedTexts, if_pos rfl, Option.map_map]
    rfl
  | case3 c cs hc ih =>
    simp only [List.all_cons, Bool.and_eq_true] at ht
    obtain ⟨taken, dropped⟩ := span_goesOn last
    have step : tokenStep d c (cs ++ rest)
        = some (some (.fixed (String.ofList (c :: cs.takeWhile (goesOn c)))), cs.dropWhile (goesOn c) ++ rest) := by
      rw [tokenStep, scanStep_plain hd ht.1, taken, dropped]
      exact if_neg hc
    have plain : (cs.dropWhile (goesOn c)).all isPlain :=
      List.all_eq_true.2 fun x hx => List.all_eq_true.1 ht.2 x ((List.dropWhile_suffix _).subset hx)
    have last' : ∀ x ∈ (cs.dropWhile (goesOn c)).getLast?, ∀ y ∈ rest.head?, goesOn x y = false := by
      intro x hx
      refine last x ?_
      rw [← List.takeWhile_append_dropWhile (p := goesOn c) (l := cs), ← List.cons_append, List.getLast?_append,
        Option.mem_def.1 hx]
      rfl
    rw [List.cons_append, tokens_cons step, ih plain last', fixedTexts, if_neg hc, Option.map_map]
    rfl

end SqlTree
