/-
Conditions in written text.

- `condition_reads_back`: a clause that is a condition is written, if no explicit name of it is in use, and what is
  written reads back as that condition up to the grouping of its chains, each placeholder being that of the parameter in
  its place. Where placeholders are named, the explicit names have to be words, with or without the mark of the dialect.
- `condition_misread_name`: an explicit name is written as it is, so a name that is no word can change what is read.
-/
import Mathlib
import SqlTree.Proofs.Grouping.ReadBack
import SqlTree.Proofs.Grouping.Written
import SqlTree.Proofs.Rendering.Outcome

namespace SqlTree

namespace Mark

/-- Nothing goes wrong with marks but that a name is in use. -/
theorem orderly (ms : List (Mark Occurrence)) :
    Piece.OrderlyAll (ms.map piece) ∧ Piece.faults (ms.map piece) = [] := by
  induction ms with
  | nil => exact ⟨trivial, rfl⟩
  | cons m ms ih => cases m <;> exact ⟨⟨trivial, ih.1⟩, ih.2⟩

end Mark

namespace Condition

variable {α β : Type}

/-- A text is the same condition, whatever stands for the placeholders in its tokens. -/
theorem ofText?_eq {d : Dialect} {text : List Char} {ts : List (Token α)} {f : α → String} {c : Condition α}
    (cut : tokens d text = some (ts.map (Token.map f))) (read : (reader (ts.length + 1)).run ts = some (c, [])) :
    ofText? d text = some (c.map f) := by
  have alike := reader_alike f (ts.length + 1) ts
  rw [read] at alike
  simp only [ofText?, cut, Option.bind_eq_bind, Option.bind_some, List.length_map, alike]
  rfl

/-- If tokens are a condition with something made of what stands for the placeholders, they are one themselves. -/
theorem exists_of_map {f : α → β} {n : Nat} {ts : List (Token α)} {x : Condition β}
    (read : (reader n).run (ts.map (Token.map f)) = some (x, [])) :
    ∃ c : Condition α, (reader n).run ts = some (c, []) ∧ c.map f = x := by
  rw [reader_alike f n ts] at read
  obtain ⟨⟨c, rest⟩, read, eq⟩ := Option.map_eq_some_iff.1 read
  obtain ⟨same, nothing⟩ := Prod.mk.inj eq
  obtain rfl := List.map_eq_nil_iff.1 nothing
  exact ⟨c, read, same⟩

theorem join_ne_compare (op : Connective) (x y : Condition α) {l r : Condition α} {o : Comparison} :
    join op x y ≠ .compare l o r := by
  cases x with
  | logic =>
    rw [join]
    split <;> simp
  | _ => simp [join]

end Condition

/-- **Grouping survives writing.** A clause that is a condition is written, whatever was written before, if its
explicit names are reserved. What is written reads back as the condition up to the grouping of chains of one
connective, and every placeholder is that of the parameter that stands in its place in the clause. -/
theorem condition_reads_back {d : Dialect} (hd : d ∈ Dialect.all) {c : Clause} {x : Condition Occurrence}
    (hx : c.condition? = some x) (names : ∀ n ∈ explicitNames c.occurrences, d.Spells (d.boundName (d.canonicalName n)))
    {s : Pass} (sound : s.Sound) (spelled : ∀ b ∈ s.params, d.Spells b.name) :
    (s.Keyed → (∀ n ∈ explicitNames c.occurrences, d.canonicalName n ∈ s.reserved) →
        ((Writing.node d c).run s).1 = .ok ())
      ∧ ∀ t, (Writing.node d c).run s = (.ok (), t) →
        ∃ (text : List Char) (found : Condition (Placed d t)), t.text.toList = s.text.toList ++ text
          ∧ Condition.ofText? d text = some (found.map Placed.text)
          ∧ (found.map Placed.occurrence).regroup = x.regroup := by
  have readable := Dialect.readable_of_mem hd
  have carried := Piece.Carries.clause (d := d) c
  obtain ⟨ms, pieces, tidy, placed, cut⟩ := (Clause.laid d).1 c x hx
  rw [(writing_eq_play d).1, pieces]
  rw [pieces] at carried
  have occurs : Piece.collectAll Piece.occurrence (ms.map Mark.piece) = c.occurrences := carried.all (Mark.orderly ms).2
  constructor
  · intro keyed reserved
    have known : Piece.Known d (ms.map Mark.piece) s.reserved := fun o ho n hn =>
      reserved n (List.mem_filterMap.2 ⟨o, occurs ▸ ho, hn⟩)
    have ends := Piece.playAll_ends (Mark.orderly ms).1 keyed known
    rw [(Mark.orderly ms).2] at ends
    obtain ⟨t, ht, -⟩ := ends
    rw [ht]
  · intro t ht
    have good : ∀ b ∈ t.params, d.Spells b.name :=
      Piece.playAll_spells readable.toLegible ht spelled fun n hn => names n (occurs ▸ hn)
    obtain ⟨-, written, same, text⟩ := Mark.play placed sound ht
    have tidyWritten : Mark.Tidy written := .of_map (same ▸ tidy)
    have placeholders : ∀ (a : Placed d t) rest, Loose d rest →
        tokens d (a.text.toList ++ rest) = (tokens d rest).map ([.placeholder a.text] ++ ·) := by
      intro a rest hr
      have bound := a.bound
      have name : t.params[a.index]?.map BoundParam.name = some t.params[a.index].name := by
        rw [List.getElem?_eq_getElem a.bound]
        rfl
      rw [Placed.text, Pass.spelled, name]
      exact tokens_placeholder readable.toLegible a.index (good _ (List.getElem_mem a.bound)) hr
    have cutWritten := Mark.tokens_chars readable placeholders tidyWritten
    -- the tokens with occurrences for placeholders are the layout, which is read back; those with texts are in the text
    have tokensWritten : (written.flatMap Mark.tokens).map (Token.map Placed.occurrence)
        = x.layout d.caps.booleanExpressions := by
      rw [← Mark.map_tokens, same, cut]
    obtain ⟨y, regrouped, read⟩ := Condition.reader_layout d.caps.booleanExpressions x
    rw [← tokensWritten, List.length_map] at read
    obtain ⟨found, readFound, rfl⟩ := Condition.exists_of_map read
    exact ⟨_, found, text, Condition.ofText?_eq cutWritten readFound, regrouped⟩

/-- a column compared with a parameter of a name -/
def comparedTo (name : String) : Clause :=
  .compare (.field none "a") .eq (.param { Parameter.fixed 0 (.int 1) with name := some name })

/-- both connectives, a negation, an empty list, a range and a predicate as its upper end -/
def guardedRange (name : String) : Clause :=
  .logic (.logic (comparedTo name) .or (.not (.inList (.field none "b") [] false))) .and
    (.between (.field (some "t") "c") (.constant (.int 1)) (.isNull (.field none "e") false))

/-- A condition with a named parameter, written for a dialect without truth values. -/
theorem condition_reads_back_guardedRange :
    ∃ (x : Condition Occurrence) (t : Pass) (found : Condition (Placed .oracle t)),
      (guardedRange "x").condition? = some x
        ∧ (Writing.node .oracle (guardedRange "x")).run ((Pass.start fun _ _ => .null).reserve .oracle ["x"])
            = (.ok (), t)
        ∧ Condition.ofText? .oracle t.text.toList = some (found.map Placed.text)
        ∧ (found.map Placed.occurrence).regroup = x.regroup := by
  have names : explicitNames (guardedRange "x").occurrences = ["x"] := rfl
  have word : Dialect.oracle.Spells (Dialect.oracle.boundName (Dialect.oracle.canonicalName "x")) :=
    ⟨"x", ⟨by decide +kernel, List.all_eq_true.1 (by decide +kernel)⟩, by decide +kernel⟩
  obtain ⟨written, readsBack⟩ := condition_reads_back (d := .oracle) (by simp [Dialect.all]) (c := guardedRange "x") rfl
    (by rw [names]; exact List.forall_mem_singleton.2 word) (.start (fun _ _ => .null) .oracle ["x"]) (by rintro _ ⟨⟩)
  have ok := written (.start _ _ _) (by rw [names]; exact List.forall_mem_singleton.2 (by decide))
  obtain ⟨text, found, wrote, read, same⟩ := readsBack _ (Prod.ext ok rfl)
  exact ⟨_, _, found, rfl, Prod.ext ok rfl, by rw [wrote]; exact read, same⟩

/-- An explicit name is written as it is: this comparison is accepted and written, and reads back as
two that OR joins. -/
theorem condition_misread_name :
    (comparedTo "x OR 1 = 1").check = .ok ()
      ∧ ∃ (x : Condition Occurrence) (t : Pass), (comparedTo "x OR 1 = 1").condition? = some x
        ∧ (Writing.node .oracle (comparedTo "x OR 1 = 1")).run
            ((Pass.start fun _ _ => .null).reserve .oracle ["x OR 1 = 1"]) = (.ok (), t)
        ∧ ∀ found : Condition (Placed .oracle t), Condition.ofText? .oracle t.text.toList
            = some (found.map Placed.text) →
          (found.map Placed.occurrence).regroup ≠ x.regroup := by
  refine ⟨rfl, _, _, rfl, rfl, fun found read => ?_⟩
  have misread : Condition.ofText? .oracle "\"a\" = :x OR 1 = 1".toList
      = some (.logic (.compare (.column none "a") .eq (.placeholder ":x")) .or
        (.compare (.number 1) .eq (.number 1))) := by
    cbv
  have joined := Option.some.inj (misread.symm.trans read)
  obtain ⟨l, r, rfl⟩ : ∃ l r, found = .logic l .or r := by
    cases found <;> simp_all [Condition.map]
  exact Condition.join_ne_compare .or _ _

end SqlTree
