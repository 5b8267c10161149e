/-
Texts made of marks.

A `Mark` is a text without quotes, a name that is put in quotes, or a placeholder. `Tidy` marks keep apart: whatever
might run on into the next one ends at a gap.

- `Mark.tokens_chars`: a text that tidy marks make is cut up into the tokens of the marks.
-/
import SqlTree.Proofs.Grouping.Token

namespace SqlTree

open Token (fixedAll)

/-- a part of a text, with `α` for placeholders -/
inductive Mark (α : Type) where
  | text (t : String)
  | ident (name : String)
  | placeholder (a : α)

namespace Mark

variable {α β : Type}

def map (f : α → β) : Mark α → Mark β
  | .text t => .text t
  | .ident name => .ident name
  | .placeholder a => .placeholder (f a)

def chars (d : Dialect) (spell : α → String) : Mark α → List Char
  | .text t => t.toList
  | .ident name => (d.quote name).toList
  | .placeholder a => (spell a).toList

def tokens : Mark α → List (Token α)
  | .text t => fixedAll (fixedTexts t.toList)
  | .ident name => [.ident name]
  | .placeholder a => [.placeholder a]

/-- whether a mark has neither quotes nor marks but its own -/
def isPlain : Mark α → Bool
  | .text t => isPlainText t
  | _ => true

/-- whether a mark ends with a gap -/
def endsApart : Mark α → Bool
  | .text t => t.toList.getLast?.any isGap
  | _ => false

/-- whether a mark begins with a gap -/
def isApart : Mark α → Bool
  | .text t => beginsApart t
  | _ => false

/-- marks that keep apart from each other -/
def Tidy : List (Mark α) → Prop
  | [] => True
  | m :: ms => m.isPlain ∧ (m.endsApart ∨ ∀ m' ∈ ms.head?, m'.isApart) ∧ Tidy ms

theorem Tidy.single {m : Mark α} (plain : m.isPlain) : Tidy [m] := ⟨plain, .inr (by simp), trivial⟩

theorem Tidy.append {xs ys : List (Mark α)} (hx : Tidy xs) (hy : Tidy ys) (apart : ∀ m ∈ ys.head?, m.isApart) :
    Tidy (xs ++ ys) := by
  induction xs with
  | nil => exact hy
  | cons x xs ih =>
    obtain ⟨plain, ends, rest⟩ := hx
    refine ⟨plain, ends.imp id fun next => ?_, ih rest⟩
    cases xs with
    | nil => exact apart
    | cons => exact next

/-- Keeping apart does not depend on what stands for the placeholders. -/
theorem Tidy.of_map {f : α → β} {ms : List (Mark α)} (h : Tidy (ms.map (map f))) : Tidy ms := by
  induction ms with
  | nil => exact trivial
  | cons m ms ih =>
    obtain ⟨plain, ends, rest⟩ := h
    have isPlain_map : (m.map f).isPlain = m.isPlain := by cases m <;> rfl
    have endsApart_map : (m.map f).endsApart = m.endsApart := by cases m <;> rfl
    have isApart_map : ∀ m : Mark α, (m.map f).isApart = m.isApart := by rintro (_ | _ | _) <;> rfl
    refine ⟨isPlain_map ▸ plain, ends.imp (endsApart_map ▸ ·) fun next m' hm' => ?_, ih rest⟩
    exact isApart_map m' ▸ next (m'.map f) (by rw [List.head?_map, Option.mem_def.1 hm']; rfl)

theorem map_tokens (f : α → β) (ms : List (Mark α)) :
    (ms.map (map f)).flatMap tokens = (ms.flatMap tokens).map (Token.map f) := by
  induction ms with
  | nil => rfl
  | cons m ms ih =>
    rw [List.map_cons, List.flatMap_cons, List.flatMap_cons, List.map_append, ih]
    cases m with
    | text t => rw [map, tokens, tokens, Token.map_fixedAll]
    | ident | placeholder => rfl

/-! ## Cutting up -/

theorem goesOn_isGap (c : Char) {x : Char} (h : isGap x) : goesOn c x = false := by
  simp only [isGap, List.contains_eq_mem, List.mem_cons, List.not_mem_nil, or_false, decide_eq_true_eq] at h
  unfold goesOn
  split
  · rcases h with rfl | rfl | rfl | rfl | rfl | rfl | rfl <;> rfl
  · split
    · rcases h with rfl | rfl | rfl | rfl | rfl | rfl | rfl <;> rfl
    · rfl

theorem isGap_of_isApart {d : Dialect} {spell : α → String} {ms : List (Mark α)} (h : ∀ m ∈ ms.head?, m.isApart) :
    ∀ c ∈ (ms.flatMap (chars d spell)).head?, isGap c := by
  intro c hc
  rcases ms with _ | ⟨m, ms⟩
  · cases hc
  · have apart := h m rfl
    cases m with
    | text t =>
      have begins : t.toList.head?.any isGap := apart
      rw [List.flatMap_cons, chars] at hc
      rcases ht : t.toList with _ | ⟨c', cs⟩
      · rw [ht] at begins
        cases begins
      · rw [ht] at begins hc
        cases hc
        exact begins
    | ident | placeholder => cases apart

variable {d : Dialect} (hd : d.Readable) {spell : α → String}

include hd

/-- **A text that tidy marks make is cut up into their tokens**, by induction on the marks from the last one back. -/
theorem tokens_chars
    (spelled : ∀ a rest, Loose d rest →
      SqlTree.tokens d ((spell a).toList ++ rest) = (SqlTree.tokens d rest).map ([.placeholder (spell a)] ++ ·))
    {ms : List (Mark α)} (tidy : Tidy ms) :
    SqlTree.tokens d (ms.flatMap (chars d spell)) = some ((ms.flatMap tokens).map (Token.map spell)) := by
  induction ms with
  | nil => exact tokens_nil d
  | cons m ms ih =>
    obtain ⟨plain, ends, rest⟩ := tidy
    have gap : m.endsApart = false → ∀ c ∈ (ms.flatMap (chars d spell)).head?, isGap c := fun h =>
      isGap_of_isApart (ends.resolve_left (by simp [h]))
    rw [List.flatMap_cons, List.flatMap_cons, List.map_append]
    cases m with
    | text t =>
      have last : ∀ x ∈ t.toList.getLast?, ∀ y ∈ (ms.flatMap (chars d spell)).head?, goesOn x y = false := by
        intro x hx y hy
        cases he : t.toList.getLast?.any isGap with
        | true =>
          rw [Option.mem_def.1 hx] at he
          exact goesOn_of_isGap he y
        | false => exact goesOn_isGap x (gap he y hy)
      rw [chars, tokens_plain hd.toLegible plain last, ih rest, tokens, Token.map_fixedAll]
      rfl
    | ident name =>
      rw [chars, tokens_ident d name fun c hc => hd.loose_of_isGap (gap rfl c hc), ih rest]
      rfl
    | placeholder a =>
      rw [chars, spelled a _ fun c hc => hd.loose_of_isGap (gap rfl c hc), ih rest]
      rfl

end Mark

end SqlTree
