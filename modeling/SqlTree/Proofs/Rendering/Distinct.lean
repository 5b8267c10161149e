/-
Binding by name.

Names in use are different, but a parameter is bound under a name that the dialect makes of the one in use: a mark is
put in front, or marks are taken away. What keeps the bound names different is that no name in use begins with the mark.

- `Dialect.Unmarked`: a name that the dialect takes for what stands behind its mark.
- `render_unambiguous`: if all names in use are unmarked, bound names are different, and so are named placeholders.
- `render_ambiguous_marks`: with a second mark two parameters are bound under one name.
-/
import SqlTree.Dialect.Catalogue
import SqlTree.Proofs.Rendering.Naming

namespace SqlTree

namespace Dialect

/-- a name that does not begin with the mark of named placeholders -/
def Unmarked (d : Dialect) (name : String) : Prop :=
  ∀ mark keepMark, d.params = .named mark keepMark → name.toList.head? ≠ some mark

variable {d : Dialect} {name name' : String} {mark : Char} {keepMark : Bool}

theorem withMark_of_ne (h : name.toList.head? ≠ some mark) : withMark mark name = String.ofList [mark] ++ name :=
  if_neg h

theorem withMark_marked (name : String) :
    withMark mark (String.ofList [mark] ++ name) = String.ofList [mark] ++ name :=
  if_pos (by simp)

theorem dropWhile_of_ne (h : name.toList.head? ≠ some mark) :
    String.ofList (name.toList.dropWhile (· = mark)) = name := by
  rcases hc : name.toList with _ | ⟨c, cs⟩
  · rw [List.dropWhile_nil, ← hc, String.ofList_toList]
  · have other : c ≠ mark := fun hm => h (by rw [hc, hm]; rfl)
    rw [List.dropWhile_cons_of_neg (by simpa using other), ← hc, String.ofList_toList]

theorem boundName_injective (h : d.Unmarked name) (h' : d.Unmarked name') (hb : d.boundName name = d.boundName name') :
    name = name' := by
  cases hp : d.params with
  | positional => simpa only [boundName, hp] using hb
  | numbered mark => simpa only [boundName, hp] using hb
  | named mark keepMark =>
    have plain := h mark keepMark hp
    have plain' := h' mark keepMark hp
    cases keepMark with
    | true =>
      simp only [boundName, hp, withMark_of_ne plain, withMark_of_ne plain'] at hb
      have chars := congrArg String.toList hb
      simp only [String.toList_append] at chars
      exact String.toList_injective (List.append_cancel_left chars)
    | false => simpa only [boundName, hp, dropWhile_of_ne plain, dropWhile_of_ne plain'] using hb

/-- The placeholder of a parameter that is bound under an unmarked name is the mark and that name. -/
theorem placeholder_boundName (hp : d.params = .named mark keepMark) (h : d.Unmarked name) (i : Nat) :
    d.placeholder i (d.boundName name) = String.ofList [mark] ++ name := by
  have plain := h mark keepMark hp
  cases keepMark with
  | true => simp only [placeholder, boundName, hp, withMark_of_ne plain, withMark_marked]
  | false => simp only [placeholder, boundName, hp, dropWhile_of_ne plain, withMark_of_ne plain]

end Dialect

/-- The parameter found under a name is the one that has it, if names are different. -/
theorem Rendered.param?_eq_some {r : Rendered} (distinct : (r.params.map BoundParam.name).Nodup) {b : BoundParam}
    (hb : b ∈ r.params) : r.param? b.name = some b := by
  rcases hf : r.param? b.name with _ | b'
  · have missed := List.find?_eq_none.1 hf b hb
    simp at missed
  · have same : b'.name = b.name := by simpa using List.find?_some hf
    rw [List.inj_on_of_nodup_map distinct (List.mem_of_find?_eq_some hf) hb same]

/-- Behind a query whose explicit names have no second mark, no name in use is marked, unless names are generated so. -/
theorem Query.unmarked {d : Dialect} {q : Query} {supply : Supply} (h : (q.played d supply).1 = .ok ())
    (generated : ∀ n, d.Unmarked (generatedName n)) (explicit : ∀ n ∈ q.paramNames, d.Unmarked (d.canonicalName n)) :
    ∀ n ∈ (q.played d supply).2.names, d.Unmarked n := by
  intro name hname
  rcases (Query.named h).source name hname with ⟨n, rfl⟩ | ⟨o, ho, n, hn, rfl⟩
  · exact generated n
  · exact explicit n (Query.explicitName_mem ho hn)

theorem unmarked_generatedName {d : Dialect} (h : ∀ mark keepMark, d.params = .named mark keepMark → mark ≠ 'p')
    (n : Nat) :
    d.Unmarked (generatedName n) := by
  intro mark keepMark hp first
  refine h mark keepMark hp ?_
  rw [generatedName, String.toList_append] at first
  exact (Option.some.inj first).symm

/-- **Binding by name is unambiguous** where no explicit name keeps a mark when it loses one, and no mark begins
generated names: bound names are different, so that each finds its parameter, and different parameters have different
named placeholders. -/
theorem render_unambiguous {d : Dialect} {q : Query} {supply : Supply} {r : Rendered}
    (h : (render d q supply).result = .ok r) (generated : ∀ mark keepMark, d.params = .named mark keepMark → mark ≠ 'p')
    (explicit : ∀ n ∈ q.paramNames, d.Unmarked (d.canonicalName n)) :
    (r.params.map BoundParam.name).Nodup ∧ (∀ b ∈ r.params, r.param? b.name = some b)
      ∧ ∀ mark keepMark, d.params = .named mark keepMark → ∀ (i j : Nat) (b b' : BoundParam), r.params[i]? = some b →
        r.params[j]? = some b' → d.placeholder i b.name = d.placeholder j b'.name → i = j := by
  rw [render_eq_played] at h
  rcases hp : (q.played d supply).1 with e | _
  · rw [hp] at h
    cases h
  · rw [hp] at h
    cases h
    obtain ⟨distinct, -, bound⟩ := Query.named hp
    have unmarked := Query.unmarked hp (unmarked_generatedName generated) explicit
    have different : ((q.played d supply).2.params.map BoundParam.name).Nodup := by
      rw [bound]
      refine (List.nodup_reverse.2 distinct).map_on fun name hname name' hname' hb => ?_
      exact Dialect.boundName_injective (unmarked _ (List.mem_reverse.1 hname))
        (unmarked _ (List.mem_reverse.1 hname')) hb
    refine ⟨different, fun b hb => Rendered.param?_eq_some different hb, ?_⟩
    intro mark keepMark hmark i j b b' hi hj same
    -- a bound parameter is bound under some name in use, of which its placeholder is made
    have made : ∀ (i : Nat) (b : BoundParam), (q.played d supply).2.params[i]? = some b →
        ∃ name, d.Unmarked name ∧ b.name = d.boundName name := by
      intro i b hb
      have mem : b.name ∈ (q.played d supply).2.names.reverse.map d.boundName :=
        bound ▸ List.mem_map.2 ⟨b, List.mem_of_getElem? hb, rfl⟩
      obtain ⟨name, hname, hbound⟩ := List.mem_map.1 mem
      exact ⟨name, unmarked name (List.mem_reverse.1 hname), hbound.symm⟩
    obtain ⟨name, plain, hb⟩ := made i b hi
    obtain ⟨name', plain', hb'⟩ := made j b' hj
    rw [hb, hb', Dialect.placeholder_boundName hmark plain, Dialect.placeholder_boundName hmark plain'] at same
    have names : b.name = b'.name := by
      have chars := congrArg String.toList same
      simp only [String.toList_append] at chars
      rw [hb, hb', String.toList_injective (List.append_cancel_left chars)]
    have place : ∀ (i : Nat) (b : BoundParam), (q.played d supply).2.params[i]? = some b →
        ((q.played d supply).2.params.map BoundParam.name)[i]? = some b.name := fun i b hb => by
      rw [List.getElem?_map, hb, Option.map_some]
    have inside : i < ((q.played d supply).2.params.map BoundParam.name).length := by
      rw [List.length_map]
      exact (List.getElem?_eq_some_iff.1 hi).1
    refine (List.getElem?_inj inside different).1 ?_
    rw [place i b hi, place j b' hj, names]

def namedParam (id : Nat) (name : String) (n : Int64) : Clause :=
  .param { Parameter.fixed id (.int n) with name := some name }

def compareTwo (name name' : String) : Query :=
  .single (.select (.mk false none [] [.table ⟨none, "t"⟩]
    (some (.logic (.compare (.field none "a") .eq (namedParam 0 name 1)) .and
      (.compare (.field none "b") .eq (namedParam 1 name' 2)))) [] none []))

/-- A name with its mark and a generated-looking one stay apart. -/
theorem render_unambiguous_compareTwo :
    ∃ r, (render .sqlServer (compareTwo "@p1" "p2") fun _ _ => .null).result = .ok r
      ∧ (r.params.map BoundParam.name).Nodup ∧ ∀ b ∈ r.params, r.param? b.name = some b := by
  have written : ((render .sqlServer (compareTwo "@p1" "p2") fun _ _ => .null).result.toOption).isSome := by
    decide +kernel
  rcases hr : (render .sqlServer (compareTwo "@p1" "p2") fun _ _ => .null).result with e | r
  · rw [hr] at written
    cases written
  · have names : (compareTwo "@p1" "p2").paramNames = ["@p1", "p2"] := rfl
    have explicit : ∀ n ∈ (compareTwo "@p1" "p2").paramNames,
      Dialect.sqlServer.Unmarked (Dialect.sqlServer.canonicalName n) := by
      rw [names]
      rintro n hn mark keepMark ⟨⟩
      rcases List.mem_cons.1 hn with rfl | hn
      · decide +kernel
      · obtain rfl := List.mem_singleton.1 hn
        decide +kernel
    obtain ⟨distinct, found, -⟩ := render_unambiguous hr (by rintro mark keepMark ⟨⟩; decide) explicit
    exact ⟨r, rfl, distinct, found⟩

/-- Of two marks one is taken away to tell parameters apart, and both to bind them: so two parameters are bound under
one name, and share a placeholder. -/
theorem render_ambiguous_marks :
    ∃ r, (render .oracle (compareTwo "x" "::x") fun _ _ => .null).result = .ok r ∧ r.slots = [0, 1]
      ∧ ¬ (r.params.map BoundParam.name).Nodup
      ∧ ∃ b b', r.params = [b, b'] ∧ Dialect.oracle.placeholder 0 b.name = Dialect.oracle.placeholder 1 b'.name := by
  have shown : (render .oracle (compareTwo "x" "::x") fun _ _ => .null).result.toOption.map (fun r =>
      (r.params.map BoundParam.name, r.slots)) = some (["x", "x"], [0, 1]) := by
    decide +kernel
  rcases hr : (render .oracle (compareTwo "x" "::x") fun _ _ => .null).result with e | r
  · rw [hr] at shown
    cases shown
  · rw [hr] at shown
    obtain ⟨names, slots⟩ := Prod.mk.inj (Option.some.inj shown)
    refine ⟨r, rfl, slots, by simp [names], ?_⟩
    rcases hp : r.params with _ | ⟨b, _ | ⟨b', _ | _⟩⟩ <;> rw [hp] at names <;> simp at names
    exact ⟨b, b', rfl, by rw [names.1, names.2]; rfl⟩

end SqlTree
