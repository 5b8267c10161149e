/-
Reading a statement's text back.

`scan` goes through a text from left to right. A quoted identifier reaches from the opening quote of the dialect to the
first closing quote that is not doubled, a string literal from a single quote to the first one that is not doubled, and
outside of those a placeholder is a mark and what belongs to it. It fails if the text ends inside quotes.

- `scan_quote`, `scan_literal`: an identifier and a literal are read back whole, whatever characters they have.
- `scan_placeholder`: so is a placeholder.
- `silent_of_plain`: text without quotes and marks is passed over.
-/
import SqlTree.Dialect.Catalogue
import SqlTree.Proofs.Text.Decimal

namespace SqlTree

/-- what a scan finds in a text -/
inductive Lexeme where
  | ident (name : String)
  | literal (text : String)
  | placeholder (text : String)
  deriving DecidableEq, Repr

/-- The characters up to the first closing quote that is not doubled, each doubled one once, and what follows. -/
def region (close : Char) : List Char → Option (List Char × List Char)
  | [] => none
  | c :: cs =>
    if c = close then
      match cs with
      | [] => some ([], [])
      | c' :: cs' =>
        if c' = close then (region close cs').map fun (name, rest) => (close :: name, rest) else some ([], c' :: cs')
    else (region close cs).map fun (name, rest) => (c :: name, rest)

/-- the characters of words: letters, digits and the underscore; every character beyond ASCII counts as a letter -/
def isWordChar (c : Char) : Bool := c.isAlphanum || c == '_' || 128 ≤ c.toNat

/-- a mark and the characters of its kind behind it, if there are any, and what follows -/
def marked (mark : Char) (belongs : Char → Bool) (c : Char) (cs : List Char) : Option (List Char × List Char) :=
  if c = mark ∧ cs.takeWhile belongs ≠ [] then some (c :: cs.takeWhile belongs, cs.dropWhile belongs) else none

/-- the placeholder at the front of a text, and what follows -/
def ParamStyle.read : ParamStyle → Char → List Char → Option (List Char × List Char)
  | .positional, c, cs => if c = '?' then some (['?'], cs) else none
  | .numbered mark, c, cs => marked mark Char.isDigit c cs
  | .named mark _, c, cs => marked mark isWordChar c cs

/-- what a scan finds at the front of a text, if it finds something there, and what follows -/
def scanStep (d : Dialect) (c : Char) (cs : List Char) : Option (Option Lexeme × List Char) :=
  if c = d.openQuote then
    (region d.closeQuote cs).map fun (name, rest) => (some (.ident (String.ofList name)), rest)
  else if c = '\'' then
    (region '\'' cs).map fun (text, rest) => (some (.literal (String.ofList text)), rest)
  else match d.params.read c cs with
    | some (text, rest) => some (some (.placeholder (String.ofList text)), rest)
    | none => some (none, cs)

theorem region_of_ne {close c : Char} (h : c ≠ close) (cs : List Char) :
    region close (c :: cs) = (region close cs).map fun (name, rest) => (c :: name, rest) := by
  rw [region.eq_def]
  simp only [h, if_false]

theorem region_length {close : Char} {cs name rest : List Char} (h : region close cs = some (name, rest)) :
    rest.length < cs.length := by
  induction cs using region.induct close generalizing name rest with
  | case1 => cases h
  | case2 =>
    simp only [region, if_true, Option.some.injEq, Prod.mk.injEq] at h
    obtain ⟨-, rfl⟩ := h
    exact Nat.lt_succ_self _
  | case3 cs ih =>
    simp only [region, if_true, Option.map_eq_some_iff] at h
    obtain ⟨⟨name', rest'⟩, h', ⟨⟩⟩ := h
    have := ih h'
    simp only [List.length_cons]
    omega
  | case4 c cs hc =>
    simp only [region, if_true, hc, if_false, Option.some.injEq, Prod.mk.injEq] at h
    obtain ⟨-, rfl⟩ := h
    exact Nat.lt_succ_self _
  | case5 c cs hc ih =>
    rw [region_of_ne hc, Option.map_eq_some_iff] at h
    obtain ⟨⟨name', rest'⟩, h', ⟨⟩⟩ := h
    exact Nat.lt_succ_of_lt (ih h')

theorem marked_length {mark : Char} {belongs : Char → Bool} {c : Char} {cs text rest : List Char}
    (h : marked mark belongs c cs = some (text, rest)) : rest.length ≤ cs.length := by
  unfold marked at h
  split at h
  · cases h
    exact (List.dropWhile_suffix _).length_le
  · cases h

theorem ParamStyle.read_length {params : ParamStyle} {c : Char} {cs text rest : List Char}
    (h : params.read c cs = some (text, rest)) : rest.length ≤ cs.length := by
  cases params with
  | positional =>
    simp only [ParamStyle.read] at h
    split at h
    · cases h
      exact Nat.le_refl _
    · cases h
  | numbered mark => exact marked_length h
  | named mark keepMark => exact marked_length h

theorem scanStep_length {d : Dialect} {c : Char} {cs rest : List Char} {l : Option Lexeme}
    (h : scanStep d c cs = some (l, rest)) : rest.length ≤ cs.length := by
  unfold scanStep at h
  split at h
  · simp only [Option.map_eq_some_iff] at h
    obtain ⟨⟨name, rest'⟩, h', ⟨⟩⟩ := h
    exact Nat.le_of_lt (region_length h')
  · split at h
    · simp only [Option.map_eq_some_iff] at h
      obtain ⟨⟨text, rest'⟩, h', ⟨⟩⟩ := h
      exact Nat.le_of_lt (region_length h')
    · split at h
      · rename_i h'
        cases h
        exact ParamStyle.read_length h'
      · cases h
        exact Nat.le_refl _

/-- what a text holds, in order; nothing if it ends inside quotes -/
def scan (d : Dialect) : List Char → Option (List Lexeme)
  | [] => some []
  | c :: cs =>
    match _h : scanStep d c cs with
    | none => none
    | some (l, rest) => (scan d rest).map (l.toList ++ ·)
termination_by cs => cs.length
decreasing_by exact Nat.lt_succ_of_le (scanStep_length ‹_›)

theorem scan_nil (d : Dialect) : scan d [] = some [] := by rw [scan]

theorem scan_cons {d : Dialect} {c : Char} {cs rest : List Char} {l : Option Lexeme}
    (h : scanStep d c cs = some (l, rest)) : scan d (c :: cs) = (scan d rest).map (l.toList ++ ·) := by
  rw [scan]
  split
  · rename_i h'
    rw [h] at h'
    cases h'
  · rename_i l' rest' h'
    rw [h] at h'
    cases h'
    rfl

/-! ## Quoted identifiers and literals -/

/-- Doubling the closing quote and closing the region is undone, whatever characters stand in between. -/
theorem region_quotedChars (close : Char) (name : List Char) {rest : List Char} (h : rest.head? ≠ some close) :
    region close (Dialect.quotedChars close name ++ close :: rest) = some (name, rest) := by
  induction name with
  | nil =>
    cases rest with
    | nil => simp [Dialect.quotedChars, region]
    | cons c rest =>
      have hc : c ≠ close := fun he => h (by rw [he, List.head?_cons])
      simp [Dialect.quotedChars, region, hc]
  | cons c name ih =>
    by_cases hc : c = close
    · subst hc
      have doubled : Dialect.quotedChars c (c :: name) = c :: c :: Dialect.quotedChars c name := by
        simp [Dialect.quotedChars]
      simp [doubled, region, ih]
    · have single : Dialect.quotedChars close (c :: name) = c :: Dialect.quotedChars close name := by
        simp [Dialect.quotedChars, hc]
      rw [single, List.cons_append, region_of_ne hc, ih]
      rfl

theorem toList_quote_append (d : Dialect) (name : String) (rest : List Char) :
    (d.quote name).toList ++ rest
      = d.openQuote :: (Dialect.quotedChars d.closeQuote name.toList ++ d.closeQuote :: rest) := by
  simp [Dialect.quote]

theorem scanStep_quote (d : Dialect) (name : String) {rest : List Char} (h : rest.head? ≠ some d.closeQuote) :
    scanStep d d.openQuote (Dialect.quotedChars d.closeQuote name.toList ++ d.closeQuote :: rest)
      = some (some (.ident name), rest) := by
  rw [scanStep, if_pos rfl, region_quotedChars _ _ h]
  simp

theorem scan_quote (d : Dialect) (name : String) {rest : List Char} (h : rest.head? ≠ some d.closeQuote) :
    scan d ((d.quote name).toList ++ rest) = (scan d rest).map ([.ident name] ++ ·) := by
  rw [toList_quote_append, scan_cons (scanStep_quote d name h)]
  rfl

theorem scan_literal {d : Dialect} (hd : d.openQuote ≠ '\'') (t : String) {rest : List Char}
    (h : rest.head? ≠ some '\'') :
    scan d ((Dialect.literal t).toList ++ rest) = (scan d rest).map ([.literal t] ++ ·) := by
  have step : scanStep d '\'' (Dialect.quotedChars '\'' t.toList ++ '\'' :: rest) = some (some (.literal t), rest) := by
    rw [scanStep, if_neg hd.symm, if_pos rfl, region_quotedChars _ _ h]
    simp
  have text : (Dialect.literal t).toList ++ rest = '\'' :: (Dialect.quotedChars '\'' t.toList ++ '\'' :: rest) := by
    simp [Dialect.literal]
  rw [text, scan_cons step]
  rfl

/-! ## Text without quotes and marks -/

/-- the character that begins a placeholder -/
def ParamStyle.mark : ParamStyle → Char
  | .positional => '?'
  | .numbered mark => mark
  | .named mark _ => mark

/-- whether a character is neither a quote nor a mark of any dialect that the library knows -/
def isPlain (c : Char) : Bool := !(['"', Char.ofNat 0x60, '[', '\'', '?', '$', '@', ':'].contains c)

/-- a dialect whose quotes and marks tell each other apart and stand apart from plain characters -/
structure Dialect.Legible (d : Dialect) : Prop where
  quote : d.openQuote ≠ '\''
  mark_open : d.params.mark ≠ d.openQuote
  mark_quote : d.params.mark ≠ '\''
  plain_open : isPlain d.openQuote = false
  plain_mark : isPlain d.params.mark = false

theorem Dialect.legible_of_mem {d : Dialect} (hd : d ∈ Dialect.all) : d.Legible := by
  simp only [Dialect.all, List.mem_cons, List.not_mem_nil, or_false] at hd
  rcases hd with rfl | rfl | rfl | rfl | rfl | rfl <;> exact ⟨by decide, by decide, by decide, by decide, by decide⟩

/-- a text that a scan passes over, whatever follows -/
def Silent (d : Dialect) (t : List Char) : Prop := ∀ rest, scan d (t ++ rest) = scan d rest

theorem ParamStyle.read_mark {params : ParamStyle} {c : Char} {cs text rest : List Char}
    (h : params.read c cs = some (text, rest)) : c = params.mark := by
  have marked_eq : ∀ {mark : Char} {belongs : Char → Bool},
    marked mark belongs c cs = some (text, rest) → c = mark := by
    intro mark belongs h
    unfold marked at h
    split at h
    · rename_i hc
      exact hc.1
    · cases h
  cases params with
  | positional =>
    simp only [ParamStyle.read] at h
    split at h
    · assumption
    · cases h
  | numbered mark => exact marked_eq h
  | named mark keepMark => exact marked_eq h

theorem silent_nil (d : Dialect) : Silent d [] := fun _ => rfl

theorem scanStep_plain {d : Dialect} (hd : d.Legible) {c : Char} (hc : isPlain c) (cs : List Char) :
    scanStep d c cs = some (none, cs) := by
  have not_open : c ≠ d.openQuote := by
    rintro rfl
    simp [hd.plain_open] at hc
  have not_quote : c ≠ '\'' := by
    rintro rfl
    exact absurd hc (by decide)
  have unread : d.params.read c cs = none := by
    rcases hr : d.params.read c cs with _ | ⟨text, rest⟩
    · rfl
    · rw [ParamStyle.read_mark hr, hd.plain_mark] at hc
      cases hc
  rw [scanStep, if_neg not_open, if_neg not_quote, unread]

theorem silent_of_plain {d : Dialect} (hd : d.Legible) {t : List Char} (ht : t.all isPlain) : Silent d t := by
  intro rest
  induction t with
  | nil => rfl
  | cons c t ih =>
    simp only [List.all_cons, Bool.and_eq_true] at ht
    rw [List.cons_append, scan_cons (scanStep_plain hd ht.1 _), ih ht.2]
    simp

/-! ## Placeholders -/

/-- a rest that continues neither a word nor a region that was just closed -/
def Loose (d : Dialect) (rest : List Char) : Prop :=
  ∀ c ∈ rest.head?, isWordChar c = false ∧ c ≠ d.closeQuote ∧ c ≠ '\''

/-- a text that keeps apart from what stands in front of it, or leaves that to what follows -/
def Opens (d : Dialect) (t : List Char) : Prop := ∀ rest, Loose d rest → Loose d (t ++ rest)

/-- a name of letters, digits and underscores -/
def IsWord (name : String) : Prop := name.toList ≠ [] ∧ ∀ c ∈ name.toList, isWordChar c

/-- a name that a parameter can be bound under and be read back by its placeholder -/
def Dialect.Spells (d : Dialect) (name : String) : Prop :=
  match d.params with
  | .named mark _ => ∃ word, IsWord word ∧ Dialect.withMark mark name = String.ofList (mark :: word.toList)
  | _ => True

theorem takeWhile_of_loose {belongs : Char → Bool} {word rest : List Char} (hw : ∀ c ∈ word, belongs c)
    (hr : ∀ c ∈ rest.head?, belongs c = false) :
    (word ++ rest).takeWhile belongs = word ∧ (word ++ rest).dropWhile belongs = rest := by
  have stop : rest.takeWhile belongs = [] ∧ rest.dropWhile belongs = rest := by
    cases rest with
    | nil => exact ⟨rfl, rfl⟩
    | cons c rest => simp [hr c rfl]
  rw [List.takeWhile_append_of_pos hw, List.dropWhile_append_of_pos hw, stop.1, stop.2]
  exact ⟨List.append_nil word, rfl⟩

theorem marked_word {mark : Char} {belongs : Char → Bool} {word rest : List Char} (hne : word ≠ [])
    (hw : ∀ c ∈ word, belongs c) (hr : ∀ c ∈ rest.head?, belongs c = false) :
    marked mark belongs mark (word ++ rest) = some (mark :: word, rest) := by
  obtain ⟨taken, dropped⟩ := takeWhile_of_loose hw hr
  rw [marked, taken, dropped, if_pos ⟨rfl, hne⟩]

/-- A digit belongs to words. -/
theorem isDigit_eq_false {c : Char} (h : isWordChar c = false) : c.isDigit = false := by
  cases hc : c.isDigit with
  | false => rfl
  | true => simp [isWordChar, Char.isAlphanum, hc] at h

theorem scanStep_read {d : Dialect} (hd : d.Legible) {cs text rest : List Char}
    (h : d.params.read d.params.mark cs = some (text, rest)) :
    scanStep d d.params.mark cs = some (some (.placeholder (String.ofList text)), rest) := by
  rw [scanStep, if_neg hd.mark_open, if_neg hd.mark_quote, h]

/-- A placeholder is a mark and what belongs to it, if no letter and no digit follows it. -/
theorem read_placeholder {d : Dialect} (i : Nat) {name : String} (hn : d.Spells name) {rest : List Char}
    (hr : Loose d rest) :
    ∃ cs, (d.placeholder i name).toList ++ rest = d.params.mark :: cs
      ∧ d.params.read d.params.mark cs = some ((d.placeholder i name).toList, rest) := by
  rcases hp : d.params with _ | mark | ⟨mark, keepMark⟩
  · have text : d.placeholder i name = String.ofList ['?'] := by rw [Dialect.placeholder, hp]
    rw [text, String.toList_ofList]
    exact ⟨rest, rfl, rfl⟩
  · have text : d.placeholder i name = String.ofList (mark :: Decimal.digits (i + 1)) := by
      simp only [Dialect.placeholder, hp, Decimal.ofNat, ← String.ofList_append, List.singleton_append]
    rw [text, String.toList_ofList]
    exact ⟨_, rfl, marked_word (Decimal.digits_ne_nil _) (fun c => Decimal.isDigit_of_mem_digits) fun c hc =>
      isDigit_eq_false (hr c hc).1⟩
  · rw [Dialect.Spells, hp] at hn
    obtain ⟨word, ⟨hne, hw⟩, hword⟩ := hn
    have text : d.placeholder i name = String.ofList (mark :: word.toList) := by rw [Dialect.placeholder, hp, ← hword]
    rw [text, String.toList_ofList]
    exact ⟨_, rfl, marked_word hne hw fun c hc => (hr c hc).1⟩

/-- **A placeholder is read back whole**, if no letter and no digit follows it. -/
theorem scan_placeholder {d : Dialect} (hd : d.Legible) (i : Nat) {name : String} (hn : d.Spells name)
    {rest : List Char} (hr : Loose d rest) :
    scan d ((d.placeholder i name).toList ++ rest) = (scan d rest).map
      ([.placeholder (d.placeholder i name)] ++ ·) := by
  obtain ⟨cs, text, read⟩ := read_placeholder i hn hr
  rw [text, scan_cons (scanStep_read hd read), String.ofList_toList]
  rfl

end SqlTree
