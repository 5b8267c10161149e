/-
Dialects whose own words stand apart from quotes and marks.

`Readable` says so of everything that a dialect puts into a text by itself: its spellings of functions and types, its
marks of concatenation and what its hooks write. Every dialect that the library knows is readable.
-/
import SqlTree.Proofs.Scanning.Scan

namespace SqlTree

/-! ## Plain text -/

/-- whether a character keeps apart a name or a placeholder in front of it -/
def isGap (c : Char) : Bool := [' ', '(', ')', ',', '.', ';', '\n'].contains c

def isPlainText (t : String) : Bool := t.toList.all isPlain

def beginsApart (t : String) : Bool := t.toList.head?.any isGap

def isApart (t : String) : Bool := isPlainText t && beginsApart t

/-- whether a text without quotes and marks begins with a gap, if it has any characters -/
def isEnding (t : String) : Bool := isPlainText t && t.toList.head?.all isGap

theorem isPlainText_append (s t : String) : isPlainText (s ++ t) = (isPlainText s && isPlainText t) := by
  simp [isPlainText]

theorem isPlain_of_isWordChar {c : Char} (h : isWordChar c) : isPlain c := by
  cases hp : isPlain c with
  | true => rfl
  | false =>
    simp only [isPlain, Bool.not_eq_eq_eq_not, Bool.not_false, List.contains_eq_mem, List.mem_cons, List.not_mem_nil,
      or_false, decide_eq_true_eq] at hp
    rcases hp with rfl | rfl | rfl | rfl | rfl | rfl | rfl | rfl <;> exact absurd h (by decide)

theorem isPlain_of_isDigit {c : Char} (h : c.isDigit) : isPlain c :=
  isPlain_of_isWordChar (by simp [isWordChar, Char.isAlphanum, h])

theorem isPlainText_ofNat (n : Nat) : isPlainText (Decimal.ofNat n) := by
  rw [isPlainText, Decimal.toList_ofNat, List.all_eq_true]
  exact fun c hc => isPlain_of_isDigit (Decimal.isDigit_of_mem_digits hc)

theorem isPlainText_of_isWord {name : String} (h : IsWord name) : isPlainText name := by
  rw [isPlainText, List.all_eq_true]
  exact fun c hc => isPlain_of_isWordChar (h.2 c hc)

/-- Whatever is put behind a text that begins apart, the whole begins apart. -/
theorem isApart_append {s : String} (h : isApart s) (t : String) : isApart (s ++ t) = isPlainText t := by
  simp only [isApart, beginsApart, Bool.and_eq_true] at h
  obtain ⟨hs, hg⟩ := h
  rcases hc : s.toList with _ | ⟨c, cs⟩
  · rw [hc] at hg
    cases hg
  · rw [hc] at hg
    simp only [isApart, beginsApart, isPlainText_append, hs, Bool.true_and, String.toList_append, hc, List.cons_append,
      List.head?_cons]
    simp only [List.head?_cons] at hg
    rw [hg, Bool.and_true]

theorem isEnding_of_isApart {t : String} (h : isApart t) : isEnding t := by
  simp only [isApart, beginsApart, Bool.and_eq_true] at h
  rcases hc : t.toList.head? with _ | c
  · rw [hc] at h
    cases h.2
  · rw [hc] at h
    simp only [isEnding, hc, Bool.and_eq_true]
    exact h

/-! ## Dialects -/

/-- whether calls for a sequence have neither quotes nor marks but those of its name -/
def SequenceSpelling.isReadable : SequenceSpelling → Bool
  | .phrase words => isPlainText (words ++ " ")
  | .literal fn => isPlainText (fn ++ "(")
  | .member fn => isApart ("." ++ fn)

/-- whether calls for the last generated key have neither quotes nor marks but those of a sequence -/
def LastIdSpelling.isReadable : LastIdSpelling → Bool
  | .constant call => isPlainText call
  | .ofSequence without spelling => without.all isPlainText && spelling.isReadable

def HookAction.Writes (fit : String → Bool) : HookAction → Prop
  | .write t => fit t
  | _ => False

/-- Hooks that write text without quotes and marks, apart from what stands in front of it behind the last section. A
select that they set aside is put back whole. -/
structure SelectHooks.Readable (hooks : SelectHooks) : Prop where
  heading : ∀ s, ∀ a ∈ hooks.heading s, a.Writes isPlainText
  trailing : ∀ s, ∀ a ∈ hooks.trailing s, a.Writes isApart
  frame : ∀ s, hooks.opening s = [] ∧ hooks.closing s = [] ∨
    hooks.opening s = [.beginStaging] ∧ ∃ wrap before behind, hooks.closing s = [.endStaging wrap]
      ∧ (∀ t, wrap t = before ++ t ++ behind) ∧ isPlainText before ∧ isApart behind

/-- a dialect whose own words have neither quotes nor marks, and stand apart where a name or a placeholder may end -/
structure Dialect.Readable (d : Dialect) : Prop extends d.Legible where
  close_gap : isGap d.closeQuote = false
  currentDate : isPlainText d.builtins.currentDate
  currentTimestamp : isPlainText d.builtins.currentTimestamp
  lastId : d.builtins.lastId.isReadable
  nextId : d.builtins.nextId.isReadable
  concat_before : isPlainText d.concat.before
  concat_between : isApart d.concat.between
  concat_after : isEnding d.concat.after
  dual : ∀ dual ∈ d.dual, isPlainText dual
  typeName : ∀ t, ∀ name ∈ d.typeName t, isPlainText name
  assignment : d.calls = .block → Silent d " := ".toList
  hooks : d.hooks.Readable

namespace Dialect.Readable

variable {d : Dialect} (hd : d.Readable)

include hd

theorem silent {t : String} (ht : isPlainText t) : Silent d t.toList := silent_of_plain hd.toLegible ht

theorem loose_of_isGap {c : Char} (hc : isGap c) : isWordChar c = false ∧ c ≠ d.closeQuote ∧ c ≠ '\'' := by
  refine ⟨?_, ?_, ?_⟩
  · simp only [isGap, List.contains_eq_mem, List.mem_cons, List.not_mem_nil, or_false, decide_eq_true_eq] at hc
    rcases hc with rfl | rfl | rfl | rfl | rfl | rfl | rfl <;> decide
  · rintro rfl
    simp [hd.close_gap] at hc
  · rintro rfl
    exact absurd hc (by decide)

theorem loose_of_beginsApart {t : String} (hg : beginsApart t) (rest : List Char) : Loose d (t.toList ++ rest) := by
  unfold beginsApart at hg
  intro c hc
  rcases ht : t.toList with _ | ⟨c', cs⟩
  · rw [ht] at hg
    cases hg
  · rw [ht] at hg hc
    obtain rfl : c' = c := by simpa using hc
    exact hd.loose_of_isGap hg

theorem opens_of_isEnding {t : String} (ht : isEnding t) : Opens d t.toList := by
  simp only [isEnding, Bool.and_eq_true] at ht
  obtain ⟨-, hg⟩ := ht
  intro rest hr c hc
  rcases ht : t.toList with _ | ⟨c', cs⟩
  · rw [ht] at hc
    exact hr c hc
  · rw [ht] at hg hc
    obtain rfl : c' = c := by simpa using hc
    exact hd.loose_of_isGap hg

theorem nativeType (t : DataType) (name : String) (h : d.nativeType t = .ok name) : isPlainText name := by
  unfold Dialect.nativeType at h
  rcases ht : d.typeName t with _ | spelled
  · rw [ht] at h
    cases h
  · rw [ht] at h
    cases h
    exact hd.typeName t name ht

end Dialect.Readable

theorem isPlainText_sized (word : String) (n : UInt32) (h : isPlainText word) :
    isPlainText (DataType.sized word n) := by
  have opening : isPlainText "(" := by decide
  have closing : isPlainText ")" := by decide
  simp only [DataType.sized, isPlainText_append, h, opening, closing, isPlainText_ofNat, Bool.and_self]

theorem isPlainText_scaled (word : String) (p s : UInt8) (h : isPlainText word) :
    isPlainText (Dialect.scaled word p s) := by
  have opening : isPlainText "(" := by decide
  have comma : isPlainText ", " := by decide
  have closing : isPlainText ")" := by decide
  simp only [Dialect.scaled, isPlainText_append, h, opening, comma, closing, isPlainText_ofNat, Bool.and_self]

/-! ## The hooks that the library knows -/

namespace SelectHooks

theorem limitClause_readable : limitClause.Readable where
  heading := nofun
  trailing s a ha := by
    have limit : isApart " LIMIT " := by decide
    have offset : isPlainText " OFFSET " := by decide
    rcases hl : s.limit with _ | n | ⟨start, count⟩ <;> simp only [limitClause, hl, List.mem_singleton] at ha
    · cases ha
    · subst ha
      simp only [HookAction.Writes, Decimal.ofUInt64, isApart_append limit, isPlainText_ofNat]
    · subst ha
      simp only [HookAction.Writes, Decimal.ofUInt64, String.append_assoc, isApart_append limit, isPlainText_append,
        isPlainText_ofNat, offset, Bool.and_self]
  frame _ := .inl ⟨rfl, rfl⟩

theorem topOrFetch_readable : topOrFetch.Readable where
  heading s a ha := by
    have top : isPlainText "TOP " := by decide
    have blank : isPlainText " " := by decide
    rcases hl : s.limit with _ | n | ⟨start, count⟩ <;> simp only [topOrFetch, hl, List.mem_singleton] at ha
    · cases ha
    · subst ha
      simp only [HookAction.Writes, Decimal.ofUInt64, isPlainText_append, isPlainText_ofNat, top, blank, Bool.and_self]
    · cases ha
  trailing s a ha := by
    have offset : isApart " OFFSET " := by decide
    have fetch : isPlainText " ROWS FETCH NEXT " := by decide
    have only : isPlainText " ROWS ONLY" := by decide
    rcases hl : s.limit with _ | n | ⟨start, count⟩ <;>
      simp only [topOrFetch, hl, List.mem_append, List.mem_singleton] at ha
    · cases ha
    · cases ha
    · rcases ha with ha | rfl
      · split at ha
        · rw [List.mem_singleton.1 ha]
          show isApart " ORDER BY (SELECT NULL)"
          decide
        · cases ha
      · simp only [HookAction.Writes, Decimal.ofUInt64, String.append_assoc, isApart_append offset, isPlainText_append,
          isPlainText_ofNat, fetch, only, Bool.and_self]
  frame _ := .inl ⟨rfl, rfl⟩

theorem rowNumbers_readable : rowNumbers.Readable where
  heading := nofun
  trailing := nofun
  frame s := by
    rcases hl : s.limit with _ | n | ⟨start, count⟩
    · exact .inl ⟨by simp [rowNumbers, hl], by simp [rowNumbers, hl]⟩
    · have bound : isApart ") WHERE ROWNUM <= " := by decide
      refine .inr ⟨by simp [rowNumbers, hl], numberedRows (.first n), "SELECT * FROM (",
        ") WHERE ROWNUM <= " ++ Decimal.ofUInt64 n, by simp [rowNumbers, hl], fun t => ?_, by decide, ?_⟩
      · exact String.append_assoc
      · simp only [Decimal.ofUInt64, isApart_append bound, isPlainText_ofNat]
    · have bound : isApart ") q_ WHERE ROWNUM <= " := by decide
      have first : isPlainText ") WHERE rn_ > " := by decide
      have regroup : ∀ b t m r w o : String, b ++ t ++ m ++ r ++ w ++ o = b ++ t ++ (m ++ r ++ w ++ o) := by
        intro b t m r w o
        simp only [String.append_assoc]
      refine .inr ⟨by simp [rowNumbers, hl], numberedRows (.range start count),
        "SELECT * FROM (SELECT q_.*, ROWNUM rn_ FROM (",
        ") q_ WHERE ROWNUM <= " ++ Decimal.ofNat (lastRow start count) ++ ") WHERE rn_ > " ++ Decimal.ofUInt64 start,
        by simp [rowNumbers, hl], fun t => regroup _ t _ _ _ _, by decide, ?_⟩
      simp only [Decimal.ofUInt64, String.append_assoc, isApart_append bound, isPlainText_append, isPlainText_ofNat,
        first, Bool.and_self]

end SelectHooks

/-! ## The dialects that the library knows -/

/-- The colon of an assignment is no mark, for no word follows it. -/
theorem silent_assignment : Silent Dialect.oracle " := ".toList := by
  have legible : Dialect.oracle.Legible := Dialect.legible_of_mem (by simp [Dialect.all])
  have colon : ∀ rest, scan Dialect.oracle (':' :: '=' :: ' ' :: rest) = scan Dialect.oracle ('=' :: ' ' :: rest) := by
    intro rest
    have unread : Dialect.oracle.params.read ':' ('=' :: ' ' :: rest) = none := rfl
    have step : scanStep Dialect.oracle ':' ('=' :: ' ' :: rest) = some (none, '=' :: ' ' :: rest) := by
      rw [scanStep, if_neg (by decide), if_neg (by decide), unread]
    rw [scan_cons step]
    simp
  intro rest
  have blank : Silent Dialect.oracle [' '] := silent_of_plain legible (by decide)
  have equals : Silent Dialect.oracle ['=', ' '] := silent_of_plain legible (by decide)
  exact (blank _).trans ((colon rest).trans (equals rest))

namespace Dialect

theorem of_mem_all {P : Dialect → Prop} (h : P ansi ∧ P postgres ∧ P mysql ∧ P sqlite ∧ P sqlServer ∧ P oracle)
    {d : Dialect} (hd : d ∈ all) : P d := by
  obtain ⟨hansi, hpostgres, hmysql, hsqlite, hsqlServer, horacle⟩ := h
  simp only [all, List.mem_cons, List.not_mem_nil, or_false] at hd
  rcases hd with rfl | rfl | rfl | rfl | rfl | rfl <;> assumption

/-- A word for long data, or a word with the size behind it. -/
theorem isPlainText_ite_sized {long short : String} {big : Prop} [Decidable big] (n : UInt32) (hl : isPlainText long)
    (hs : isPlainText short) : isPlainText (if big then long else DataType.sized short n) := by
  split
  · exact hl
  · exact isPlainText_sized short n hs

theorem isPlainText_ansiType (t : DataType) : ∀ name ∈ ansiType t, isPlainText name := by
  cases t with
  | decimal p s =>
    rintro _ ⟨⟩
    exact isPlainText_scaled _ p s (by decide)
  | char n | varChar n | binary n | varBinary n =>
    rintro _ ⟨⟩
    exact isPlainText_sized _ n (by decide)
  | _ => decide

theorem isPlainText_typeName {d : Dialect} (hd : d ∈ all) (t : DataType) : ∀ name ∈ d.typeName t, isPlainText name := by
  have standard := isPlainText_ansiType t
  refine of_mem_all (P := fun d => ∀ name ∈ d.typeName t, isPlainText name) ⟨standard, ?_, ?_, ?_, ?_, ?_⟩ hd
  · cases t with
    | decimal p s =>
      rintro _ ⟨⟩
      exact isPlainText_scaled _ p s (by decide)
    | text | binary _ | varBinary _ | blob | guid =>
      rintro _ ⟨⟩
      decide
    | _ => exact standard
  · cases t with
    | varChar n | varBinary n =>
      rintro _ ⟨⟩
      exact isPlainText_ite_sized n (by decide) (by decide)
    | bool | int | real | double | text | blob | timestamp | guid => decide
    | _ => exact standard
  · cases t <;> rintro _ ⟨⟩ <;> decide
  · cases t with
    | varChar n | varBinary n =>
      rintro _ ⟨⟩
      exact isPlainText_ite_sized n (by decide) (by decide)
    | bool | int | double | text | blob | timestamp | guid => decide
    | _ => exact standard
  · cases t with
    | decimal p s =>
      rintro _ ⟨⟩
      exact isPlainText_scaled _ p s (by decide)
    | varChar n | binary n | varBinary n =>
      rintro _ ⟨⟩
      exact isPlainText_ite_sized n (by decide) (by decide)
    | char n => exact standard
    | _ => decide

/-- **Every dialect that the library knows is readable.** -/
theorem readable_of_mem {d : Dialect} (hd : d ∈ all) : d.Readable where
  toLegible := legible_of_mem hd
  close_gap := of_mem_all (P := fun d => isGap d.closeQuote = false) (by decide) hd
  currentDate := of_mem_all (P := fun d => isPlainText d.builtins.currentDate) (by decide) hd
  currentTimestamp := of_mem_all (P := fun d => isPlainText d.builtins.currentTimestamp) (by decide) hd
  lastId := of_mem_all (P := fun d => d.builtins.lastId.isReadable) (by decide) hd
  nextId := of_mem_all (P := fun d => d.builtins.nextId.isReadable) (by decide) hd
  concat_before := of_mem_all (P := fun d => isPlainText d.concat.before) (by decide) hd
  concat_between := of_mem_all (P := fun d => isApart d.concat.between) (by decide) hd
  concat_after := of_mem_all (P := fun d => isEnding d.concat.after) (by decide) hd
  dual := of_mem_all (P := fun d => ∀ dual ∈ d.dual, isPlainText dual) (by decide) hd
  typeName := isPlainText_typeName hd
  assignment := of_mem_all (P := fun d => d.calls = .block → Silent d " := ".toList)
    ⟨nofun, nofun, nofun, nofun, nofun, fun _ => silent_assignment⟩ hd
  hooks := of_mem_all (P := fun d => d.hooks.Readable)
    ⟨SelectHooks.limitClause_readable, SelectHooks.limitClause_readable, SelectHooks.limitClause_readable,
      SelectHooks.limitClause_readable, SelectHooks.topOrFetch_readable, SelectHooks.rowNumbers_readable⟩ hd

end Dialect
end SqlTree
