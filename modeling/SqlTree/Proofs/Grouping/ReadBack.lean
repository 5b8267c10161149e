/-
Reading laid out conditions back.

- `Reader.Gives`: what a reader reads at the front of tokens, if what follows does not go on with it.
- `Condition.ReadBack`: a condition is read back as another one in each place where its layout may stand.
- `Condition.readBack`: every condition is read back as a regrouping of itself. By induction on the condition; a chain
  of one connective is read member by member.
- `Condition.reader_layout`: so a layout that stands by itself is read to its end.
-/
import Mathlib.Data.List.Forall2
import SqlTree.Proofs.Grouping.Layout

namespace SqlTree

open Token (fixedAll)

/-! ## Readers on tokens -/

namespace Reader

variable {α β γ : Type}

/-- tokens that are at their end or begin with one of these fixed ones -/
def Stop (words : List String) (ts : List (Token α)) : Prop := ∀ t ∈ ts.head?, ∃ w ∈ words, t = .fixed w

/-- a reader reads `x` from these tokens, whatever follows, if it begins with one of these fixed tokens -/
def Gives (r : Reader α β) (stop : List String) (ts : List (Token α)) (x : β) : Prop :=
  ∀ rest, Stop stop rest → r.run (ts ++ rest) = some (x, rest)

/-- a reader reads `x` from these tokens, whatever follows, if it is no dot -/
def GivesUndotted (r : Reader α β) (ts : List (Token α)) (x : β) : Prop :=
  ∀ rest, after? ["."] rest = none → r.run (ts ++ rest) = some (x, rest)

theorem stop_cons {words : List String} {w : String} (h : w ∈ words) (ts : List (Token α)) :
    Stop words (.fixed w :: ts) := by
  rintro _ ⟨⟩
  exact ⟨w, h, rfl⟩

theorem stop_nil (words : List String) : Stop words ([] : List (Token α)) := nofun

theorem Stop.mono {words words' : List String} {ts : List (Token α)} (h : Stop words ts) (hw : words ⊆ words') :
    Stop words' ts := fun t ht => by
  obtain ⟨w, hm, rfl⟩ := h t ht
  exact ⟨w, hw hm, rfl⟩

theorem Gives.mono {r : Reader α β} {stop stop' : List String} {ts : List (Token α)} {x : β} (h : r.Gives stop ts x)
    (hs : stop' ⊆ stop) : r.Gives stop' ts x := fun rest hr => h rest (hr.mono hs)

theorem after?_fixedAll (words : List String) (ts : List (Token α)) :
    after? words (fixedAll words ++ ts) = some ts := by
  induction words with
  | nil => rfl
  | cons w ws ih => exact (if_pos rfl).trans ih

/-- Tokens that stop elsewhere do not begin with these. -/
theorem after?_stop {words : List String} {ts : List (Token α)} (h : Stop words ts) {w : String} (hw : w ∉ words)
    (ws : List String) : after? (w :: ws) ts = none := by
  rcases ts with _ | ⟨t, ts⟩
  · rfl
  · obtain ⟨w', hm, rfl⟩ := h t rfl
    exact if_neg fun (he : w' = w) => hw (he ▸ hm)

theorem run_ifSkipped (words : List String) (r s : Reader α γ) (ts : List (Token α)) :
    (do if ← skip? words then r else s : Reader α γ).run ts = match after? words ts with
      | some rest => r.run rest
      | none => s.run ts := by
  show (skip? words >>= fun b => if b then r else s).run ts = _
  rw [StateT.run_bind]
  show (skip? words ts >>= _) = _
  rw [skip?]
  cases after? words ts <;> rfl

theorem run_there {words : List String} {r s : Reader α γ} {ts rest : List (Token α)}
    (h : after? words ts = some rest) :
    (do if ← skip? words then r else s : Reader α γ).run ts = r.run rest := by
  rw [run_ifSkipped, h]

theorem run_absent {words : List String} {r s : Reader α γ} {ts : List (Token α)} (h : after? words ts = none) :
    (do if ← skip? words then r else s : Reader α γ).run ts = s.run ts := by
  rw [run_ifSkipped, h]

theorem run_expect (words : List String) (ts : List (Token α)) :
    (expect words : Reader α Unit).run (fixedAll words ++ ts) = some ((), ts) :=
  run_there (after?_fixedAll words ts)

theorem run_bind_of {r : Reader α β} {k : β → Reader α γ} {ts rest : List (Token α)} {x : β}
    (h : r.run ts = some (x, rest)) :
    (r >>= k).run ts = (k x).run rest := by
  rw [StateT.run_bind, h]
  rfl

/-- **Parts with separators between them are read part by part**, if there are as many tries as parts. -/
theorem separatedBy_gives {r : Reader α β} {separator : String} {stop : List String} (hs : separator ∉ stop)
    {ts : List (Token α)} {rest : List (List (Token α))} {x : β} {xs : List β} (hx : r.Gives (separator :: stop) ts x)
    (hxs : List.Forall₂ (r.Gives (separator :: stop)) rest xs) {n : Nat} (hn : rest.length < n) :
    (separatedBy separator r n).Gives stop (Token.joined separator (ts :: rest)) (x, xs) := by
  induction hxs generalizing ts x n with
  | nil =>
    obtain ⟨n, rfl⟩ := Nat.exists_eq_add_of_lt hn
    intro follow hf
    have read := hx follow (hf.mono (List.subset_cons_self separator stop))
    have absent : after? [separator] follow = none := after?_stop hf hs []
    exact (run_bind_of read).trans (run_absent absent)
  | @cons ts' x' rest xs hx' _ ih =>
    rw [List.length_cons] at hn
    obtain ⟨n, rfl⟩ : ∃ m, n = m + 1 := ⟨n - 1, by omega⟩
    intro follow hf
    have tail := ih hx' (Nat.lt_of_succ_lt_succ hn) follow hf
    have read := hx (.fixed separator :: Token.joined separator (ts' :: rest) ++ follow)
      (stop_cons List.mem_cons_self _)
    have there : after? [separator] (.fixed separator :: Token.joined separator (ts' :: rest) ++ follow)
      = some (Token.joined separator (ts' :: rest) ++ follow) := after?_fixedAll [separator] _
    rw [Token.joined_cons separator ts (List.cons_ne_nil ts' rest), List.append_assoc]
    exact (run_bind_of read).trans ((run_there there).trans (run_bind_of tail))

end Reader

namespace Condition

open Reader (expect Gives GivesUndotted Stop after? run_there run_absent run_bind_of run_expect after?_fixedAll
  after?_stop)

variable {α : Type}

/-- the fixed tokens that may follow a condition -/
def closers : List String := [")", ",", "THEN"]

def behind : Connective → List String
  | .or => closers
  | .and => "OR" :: closers

def followers : List String := "AND" :: behind .and

def member (op : Connective) (n : Nat) : Reader α (Condition α) :=
  match op with
  | .and => negation (test n (reader n)) n
  | .or => chain .and n (negation (test n (reader n)) n)

/-! ## From values to conditions -/

theorem after?_not_of_operand {nested : Reader α (Condition α)} {ts : List (Token α)}
    {read : Condition α × List (Token α)} (h : (operand nested).run ts = some read) : after? ["NOT"] ts = none := by
  rcases ts with _ | ⟨name | a | text, ts⟩
  · rfl
  · rfl
  · rfl
  · refine if_neg ?_
    rintro rfl
    cases h

theorem comparison?_stop {ts : List (Token α)} (hs : Stop followers ts) (ops : List Comparison) :
    (comparison? ops).run ts = some (none, ts) := by
  induction ops with
  | nil => rfl
  | cons op ops ih =>
    have absent : after? op.words ts = none := by
      cases op <;> exact after?_stop hs (by decide) _
    exact (run_absent absent).trans ih

/-- A value of which nothing is said is a test. -/
theorem test_of_operand {n : Nat} {nested : Reader α (Condition α)} {ts : List (Token α)} {x : Condition α}
    (h : (operand nested).GivesUndotted ts x) : (test n nested).Gives followers ts x := by
  intro rest hs
  have absent : ∀ w ∉ followers, ∀ ws, after? (w :: ws) rest = none := fun w hw ws => after?_stop hs hw ws
  refine (run_bind_of (h rest (absent "." (by decide) _))).trans ?_
  refine (run_absent (absent "IS" (by decide) _)).trans ((run_absent (absent "IS" (by decide) _)).trans ?_)
  refine (run_absent (absent "IN" (by decide) _)).trans ((run_absent (absent "NOT" (by decide) _)).trans ?_)
  refine (run_absent (absent "BETWEEN" (by decide) _)).trans ?_
  exact run_bind_of (comparison?_stop hs Comparison.all)

theorem negation_of_test {n : Nat} (hn : 0 < n) {test : Reader α (Condition α)} {stop : List String}
    {ts : List (Token α)}
    {x : Condition α} (h : test.Gives stop ts x) (front : ∀ rest, Stop stop rest → after? ["NOT"] (ts ++ rest) = none) :
    (negation test n).Gives stop ts x := by
  obtain ⟨n, rfl⟩ := Nat.exists_eq_add_of_lt hn
  exact fun rest hs => (run_absent (front rest hs)).trans (h rest hs)

theorem undotted {rest : List (Token α)} (h : Stop followers rest) : after? ["."] rest = none :=
  after?_stop h (by decide) []

theorem negation_of_operand {n : Nat} (hn : 0 < n) {ts : List (Token α)} {x : Condition α}
    (h : (operand (reader n)).GivesUndotted ts x) : (negation (test n (reader n)) n).Gives followers ts x :=
  negation_of_test hn (test_of_operand h) fun rest hs => after?_not_of_operand (h rest (undotted hs))

theorem chain_single {n : Nat} (hn : 0 < n) {op : Connective} {stop : List String} (hop : op.word ∉ stop)
    {r : Reader α (Condition α)} {ts : List (Token α)} {x : Condition α} (h : r.Gives (op.word :: stop) ts x) :
    (chain op n r).Gives stop ts x := fun rest hs =>
  run_bind_of (Reader.separatedBy_gives hop h .nil hn rest hs)

theorem member_of_negation {n : Nat} (hn : 0 < n) {ts : List (Token α)} {x : Condition α}
    (h : (negation (test n (reader n)) n).Gives followers ts x) (op : Connective) :
    (member op n).Gives (op.word :: behind op) ts x := by
  cases op with
  | and => exact h
  | or => exact chain_single hn (by decide) h

theorem condition_of_member {n : Nat} (hn : 0 < n) {ts : List (Token α)} {x : Condition α}
    (h : (member .or n).Gives ("OR" :: behind .or) ts x) : (reader (n + 1)).Gives closers ts x :=
  chain_single hn (by decide) h

theorem condition_of_chain (op : Connective) {n : Nat} (hn : 0 < n) {ts : List (Token α)} {x : Condition α}
    (h : (chain op n (member op n)).Gives (behind op) ts x) : (reader (n + 1)).Gives closers ts x := by
  cases op with
  | and => exact condition_of_member hn h
  | or => exact h

/-! ## From conditions to values -/

theorem operand_of_parens {n : Nat} {ts : List (Token α)} {x : Condition α} (h : (reader n).Gives closers ts x) :
    (operand (reader n)).GivesUndotted (.fixed "(" :: ts ++ [.fixed ")"]) x := by
  intro rest _
  have inside := h (.fixed ")" :: rest) (Reader.stop_cons (by decide) rest)
  have close := run_expect [")"] rest
  have text : .fixed "(" :: ts ++ [.fixed ")"] ++ rest = .fixed "(" :: (ts ++ .fixed ")" :: rest) := by simp
  have begun : (operand (reader n)).run (.fixed "(" :: (ts ++ .fixed ")" :: rest))
      = (do let c ← reader n; expect [")"]; return c).run (ts ++ Token.fixed ")" :: rest) := rfl
  rw [text, begun, run_bind_of inside]
  exact run_bind_of close

theorem operand_of_case {n : Nat} {ts : List (Token α)} {x : Condition α} (h : (reader n).Gives closers ts x) :
    (operand (reader n)).GivesUndotted
      (fixedAll ["CASE", "WHEN"] ++ ts ++ fixedAll ["THEN", "1", "ELSE", "0", "END"]) x := by
  intro rest _
  have opened := run_expect ["WHEN"] (ts ++ (fixedAll ["THEN", "1", "ELSE", "0", "END"] ++ rest))
  have inside := h (fixedAll ["THEN", "1", "ELSE", "0", "END"] ++ rest) (Reader.stop_cons (by decide) _)
  have close := run_expect ["THEN", "1", "ELSE", "0", "END"] rest
  have text : fixedAll ["CASE", "WHEN"] ++ ts ++ fixedAll ["THEN", "1", "ELSE", "0", "END"] ++ rest
      = .fixed "CASE" :: (fixedAll ["WHEN"] ++ (ts ++ (fixedAll ["THEN", "1", "ELSE", "0", "END"] ++ rest))) := by
    simp [fixedAll]
  have begun : ∀ ts : List (Token α), (operand (reader n)).run (.fixed "CASE" :: ts)
      = (do expect ["WHEN"]; let c ← reader n; expect ["THEN", "1", "ELSE", "0", "END"]; return c).run ts :=
        fun _ => rfl
  rw [text, begun, run_bind_of opened, run_bind_of inside]
  exact run_bind_of close

/-! ## Reading back -/

/-- A condition is read back as another one that is a regrouping of it: as an operand, as a member of a chain, and by
itself. There is one that it is read as in all places. -/
structure ReadBack (b : Bool) (c x : Condition α) : Prop where
  regroup : x.regroup = c.regroup
  operand : ∀ n, (asOperand b c (layout b c)).length ≤ n →
    (operand (reader n)).GivesUndotted (asOperand b c (layout b c)) x
  member : ∀ op, members op c = [c] → ∀ n, (asSide b op c).length ≤ n →
    (member op n).Gives (op.word :: behind op) (asSide b op c) x
  condition : ∀ n, (layout b c).length ≤ n → (reader (n + 1)).Gives closers (layout b c) x

variable {b : Bool} {c x : Condition α}

theorem layout_pos (b : Bool) (c : Condition α) : 0 < (layout b c).length := List.length_pos_iff.2 (layout_ne_nil b c)

theorem asSide_of_not_mixes {op : Connective} (h : mixes op c = false) : asSide b op c = layout b c := by
  rw [asSide, h]
  rfl

theorem exists_forall₂ {cs : List (Condition α)} (h : ∀ c ∈ cs, ∃ x, ReadBack b c x) :
    ∃ xs, List.Forall₂ (ReadBack b) cs xs := by
  induction cs with
  | nil => exact ⟨[], .nil⟩
  | cons c cs ih =>
    rw [List.forall_mem_cons] at h
    obtain ⟨⟨x, hx⟩, hcs⟩ := h
    obtain ⟨xs, hxs⟩ := ih hcs
    exact ⟨x :: xs, .cons hx hxs⟩

theorem ReadBack.map_regroup {cs xs : List (Condition α)} (h : List.Forall₂ (ReadBack b) cs xs) :
    xs.map Condition.regroup = cs.map Condition.regroup := by
  induction h with
  | nil => rfl
  | cons h _ ih => rw [List.map_cons, List.map_cons, h.regroup, ih]

theorem ReadBack.of_value (hc : c.isPredicate = false) (regroup : c.regroup = c)
    (h : ∀ n, (Condition.operand (reader n)).GivesUndotted (layout b c) c) : ReadBack b c c := by
  have plain : asOperand b c (layout b c) = layout b c := by
    rw [asOperand, asValue, hc]
    rfl
  have side : ∀ op, asSide b op c = layout b c := fun op => asSide_of_not_mixes (by cases c <;> first | rfl | cases hc)
  have member : ∀ op n, (layout b c).length ≤ n → (Condition.member op n).Gives (op.word :: behind op) (layout b c) c :=
    fun op n hn =>
      have pos := Nat.lt_of_lt_of_le (layout_pos b c) hn
      member_of_negation pos (negation_of_operand pos (h n)) op
  refine ⟨rfl, fun n _ => ?_, fun op _ n hn => ?_, fun n hn => ?_⟩
  · rw [plain]
    exact h n
  · rw [side] at hn ⊢
    exact member op n hn
  · exact condition_of_member (Nat.lt_of_lt_of_le (layout_pos b c) hn) (member .or n hn)

/-- A predicate that is read by itself is read as an operand, inside the parentheses or the CASE. -/
theorem operand_of_condition (hc : c.isPredicate)
    (h : ∀ n, (layout b c).length ≤ n → (reader (n + 1)).Gives closers (layout b c) x) (n : Nat)
    (hn : (asOperand b c (layout b c)).length ≤ n) :
    (Condition.operand (reader n)).GivesUndotted (asOperand b c (layout b c)) x := by
  cases b with
  | true =>
    have parens : asOperand true c (layout true c) = .fixed "(" :: layout true c ++ [.fixed ")"] := by
      rw [asOperand, asValue, hc]
      rfl
    rw [parens] at hn ⊢
    simp only [List.length_append, List.length_cons, List.length_nil] at hn
    obtain ⟨m, rfl⟩ : ∃ m, n = m + 1 := ⟨n - 1, by omega⟩
    exact operand_of_parens (h m (by omega))
  | false =>
    have counted : asOperand false c (layout false c)
        = fixedAll ["CASE", "WHEN"] ++ layout false c ++ fixedAll ["THEN", "1", "ELSE", "0", "END"] := by
      rw [asOperand, asValue, hc]
      rfl
    rw [counted] at hn ⊢
    simp only [fixedAll, List.length_append, List.length_map, List.length_cons, List.length_nil] at hn
    obtain ⟨m, rfl⟩ : ∃ m, n = m + 1 := ⟨n - 1, by omega⟩
    exact operand_of_case (h m (by omega))

/-- A predicate that is no chain is read as a negation or a test. -/
theorem ReadBack.of_negation (hc : c.isPredicate) (single : ∀ op, mixes op c = false) (regroup : x.regroup = c.regroup)
    (h : ∀ n, (layout b c).length ≤ n → (negation (test n (reader n)) n).Gives followers (layout b c) x) :
    ReadBack b c x := by
  have member : ∀ op n, (layout b c).length ≤ n → (Condition.member op n).Gives (op.word :: behind op) (layout b c) x :=
    fun op n hn => member_of_negation (Nat.lt_of_lt_of_le (layout_pos b c) hn) (h n hn) op
  have condition : ∀ n, (layout b c).length ≤ n → (reader (n + 1)).Gives closers (layout b c) x :=
    fun n hn => condition_of_member (Nat.lt_of_lt_of_le (layout_pos b c) hn) (member .or n hn)
  refine ⟨regroup, operand_of_condition hc condition, fun op _ n hn => ?_, condition⟩
  rw [asSide_of_not_mixes (single op)] at hn ⊢
  exact member op n hn

/-- What is said of an operand is read behind it. -/
theorem ReadBack.of_said {s y : Condition α} {ts : List (Token α)} (hs : ReadBack b s y) (hc : c.isPredicate)
    (single : ∀ op, mixes op c = false) (laid : layout b c = asOperand b s (layout b s) ++ ts)
    (apart : ∀ rest, after? ["."] (ts ++ rest) = none) (regroup : x.regroup = c.regroup)
    (h : ∀ n, ts.length ≤ n → ∀ rest, Stop followers rest →
      (said n (reader n) y).run (ts ++ rest) = some (x, rest)) : ReadBack b c x := by
  refine .of_negation hc single regroup fun n hn => ?_
  have length : (asOperand b s (layout b s)).length + ts.length ≤ n := by rwa [← List.length_append, ← laid]
  have operand : ∀ rest, (Condition.operand (reader n)).run (layout b c ++ rest) = some (y, ts ++ rest) :=
    fun rest => by
    rw [laid, List.append_assoc]
    exact hs.operand n (by omega) _ (apart rest)
  refine negation_of_test (Nat.lt_of_lt_of_le (layout_pos b c) hn) (fun rest hr => ?_) fun rest _ => ?_
  · exact (run_bind_of (operand rest)).trans (h n (by omega) rest hr)
  · exact after?_not_of_operand (operand rest)

/-! ### Tests -/

namespace ReadBack

variable {l l' h h' : Condition α}

theorem compare (hl : ReadBack b l l') (hr : ReadBack b c x) (op : Comparison) :
    ReadBack b (.compare l op c) (.compare l' op x) := by
  refine .of_said hl rfl (fun _ => rfl) (List.append_assoc _ _ _) ?_ ?_ fun n hn rest hs => ?_
  · cases op <;> exact fun _ => rfl
  · exact congrArg₂ (Condition.compare · op ·) hl.regroup hr.regroup
  · rw [List.length_append] at hn
    have found : ∀ ts : List (Token α), (comparison? Comparison.all).run (fixedAll op.words ++ ts)
        = some (some op, ts) := by
      cases op <;> exact fun _ => rfl
    have absent : ∀ ts : List (Token α), after? ["IS", "NULL"] (fixedAll op.words ++ ts) = none
        ∧ after? ["IS", "NOT", "NULL"] (fixedAll op.words ++ ts) = none
        ∧ after? ["IN", "("] (fixedAll op.words ++ ts) = none
        ∧ after? ["NOT", "IN", "("] (fixedAll op.words ++ ts) = none
        ∧ after? ["BETWEEN"] (fixedAll op.words ++ ts) = none := by
      cases op <;> exact fun _ => ⟨rfl, rfl, rfl, rfl, rfl⟩
    obtain ⟨isNull, isNotNull, inList, notInList, between⟩ := absent (asOperand b c (layout b c) ++ rest)
    rw [List.append_assoc]
    refine (run_absent isNull).trans ((run_absent isNotNull).trans ((run_absent inList).trans ?_))
    refine (run_absent notInList).trans ((run_absent between).trans ((run_bind_of (found _)).trans ?_))
    exact run_bind_of (hr.operand n (by omega) rest (undotted hs))

theorem isNull (hc : ReadBack b c x) (negated : Bool) : ReadBack b (.isNull c negated) (.isNull x negated) := by
  refine .of_said hc rfl (fun _ => rfl) rfl ?_ ?_ fun n _ rest _ => ?_
  · cases negated <;> exact fun _ => rfl
  · exact congrArg (Condition.isNull · negated) hc.regroup
  · cases negated with
    | false => exact run_there (after?_fixedAll ["IS", "NULL"] rest)
    | true => exact (run_absent rfl).trans (run_there (after?_fixedAll ["IS", "NOT", "NULL"] rest))

theorem between (hc : ReadBack b c x) (hl : ReadBack b l l') (hh : ReadBack b h h') :
    ReadBack b (.between c l h) (.between x l' h') := by
  refine .of_said hc rfl (fun _ => rfl) (List.append_assoc _ _ _) (fun _ => rfl) ?_ fun n hn rest hs => ?_
  · show Condition.between x.regroup l'.regroup h'.regroup = .between c.regroup l.regroup h.regroup
    rw [hc.regroup, hl.regroup, hh.regroup]
  · simp only [List.length_append, List.length_cons] at hn
    have low : (Condition.operand (reader n)).run
        (asOperand b l (layout b l) ++ .fixed "AND" :: asOperand b h (layout b h) ++ rest)
          = some (l', .fixed "AND" :: asOperand b h (layout b h) ++ rest) := by
      rw [List.append_assoc]
      exact hl.operand n (by omega) _ rfl
    have and := run_expect ["AND"] (asOperand b h (layout b h) ++ rest)
    have high := hh.operand n (by omega) rest (undotted hs)
    refine (run_absent rfl).trans ((run_absent rfl).trans ((run_absent rfl).trans ((run_absent rfl).trans ?_)))
    refine (run_there (after?_fixedAll ["BETWEEN"] _)).trans ?_
    exact (run_bind_of low).trans ((run_bind_of and).trans (run_bind_of high))

/-- A condition where a value is expected is read as a condition. -/
theorem value (hc : ReadBack b c x) (n : Nat) (hn : (asValue b c (layout b c)).length ≤ n) :
    (reader (n + 1)).Gives closers (asValue b c (layout b c)) x := by
  rw [asValue] at hn ⊢
  split at hn
  · rename_i counted
    rw [if_pos counted]
    simp only [fixedAll, List.length_append, List.length_map, List.length_cons, List.length_nil] at hn
    obtain ⟨m, rfl⟩ : ∃ m, n = m + 1 := ⟨n - 1, by omega⟩
    have pos := Nat.succ_pos m
    have operand := operand_of_case (hc.condition m (by omega))
    exact condition_of_member pos (member_of_negation pos (negation_of_operand pos operand) .or)
  · rename_i plain
    rw [if_neg plain]
    exact hc.condition n hn

theorem inList {y y' : Condition α} {ys ys' : List (Condition α)} (hc : ReadBack b c x) (hy : ReadBack b y y')
    (hys : List.Forall₂ (ReadBack b) ys ys') (negated : Bool) :
    ReadBack b (.inList c y ys negated) (.inList x y' ys' negated) := by
  have laid : ∀ negated, layout b (.inList c y ys negated) = asOperand b c (layout b c)
      ++ (fixedAll (if negated then ["NOT", "IN", "("] else ["IN", "("])
        ++ (Token.joined "," (asValue b y (layout b y) :: layoutAll b ys) ++ [.fixed ")"])) := fun negated => by
    simp only [layout, List.append_assoc]
  refine .of_said hc rfl (fun _ => rfl) (laid negated) ?_ ?_ fun n hn rest _ => ?_
  · cases negated <;> exact fun _ => rfl
  · rw [Condition.regroup, Condition.regroup, regroupAll_eq, regroupAll_eq, hc.regroup, hy.regroup, map_regroup hys]
  · simp only [List.length_append, List.length_cons, List.length_nil] at hn
    have short : ∀ ts ∈ asValue b y (layout b y) :: layoutAll b ys, ts.length + 1 ≤ n := fun ts hts => by
      have := Token.length_le_joined "," hts
      omega
    have many : (layoutAll b ys).length < n := by
      have := Token.length_joined "," (asValue b y (layout b y)) (layoutAll b ys)
      omega
    have item : ∀ {y y' : Condition α}, ReadBack b y y' → (asValue b y (layout b y)).length + 1 ≤ n →
        (reader n).Gives [",", ")"] (asValue b y (layout b y)) y' := fun hy hlen => by
      obtain ⟨m, rfl⟩ : ∃ m, n = m + 1 := ⟨n - 1, by omega⟩
      exact (hy.value m (by omega)).mono (by decide)
    have items : List.Forall₂ ((reader n).Gives [",", ")"]) (layoutAll b ys) ys' := by
      have shortItems := fun ts hts => short ts (List.mem_cons_of_mem _ hts)
      clear laid hn short many
      induction hys with
      | nil => exact .nil
      | cons h _ ih =>
        rw [layoutAll, List.forall_mem_cons] at shortItems
        exact .cons (item h shortItems.1) (ih shortItems.2)
    have listed : ∀ negated, (Condition.items n (reader n) x negated).run
        (Token.joined "," (asValue b y (layout b y) :: layoutAll b ys) ++ [.fixed ")"] ++ rest)
          = some (.inList x y' ys' negated, rest) := fun negated => by
      have read := Reader.separatedBy_gives (by decide) (item hy (short _ List.mem_cons_self)) items many
        (.fixed ")" :: rest)
        (Reader.stop_cons List.mem_cons_self rest)
      rw [List.append_assoc]
      exact (run_bind_of read).trans (run_bind_of (run_expect [")"] rest))
    rw [List.append_assoc]
    refine (run_absent ?_).trans ((run_absent ?_).trans ?_)
    · cases negated <;> rfl
    · cases negated <;> rfl
    · cases negated with
      | false => exact (run_there (after?_fixedAll ["IN", "("] _)).trans (listed false)
      | true => exact (run_absent rfl).trans ((run_there (after?_fixedAll ["NOT", "IN", "("] _)).trans (listed true))

theorem not (hc : ReadBack b c x) : ReadBack b (.not c) (.not x) := by
  refine .of_negation rfl (fun _ => rfl) ?_ fun n hn rest hs => ?_
  · exact congrArg Condition.not hc.regroup
  · simp only [layout, fixedAll, List.length_append, List.length_map, List.length_cons, List.length_nil] at hn
    obtain ⟨m, rfl⟩ : ∃ m, n = m + 1 := ⟨n - 1, by omega⟩
    have inside := operand_of_parens (hc.condition m (by omega))
    have tested := negation_of_test (n := m) (by omega) (test_of_operand (n := m + 1) inside)
      (fun rest hs => after?_not_of_operand (inside rest (undotted hs))) rest hs
    exact (run_there (after?_fixedAll ["NOT"] _)).trans (run_bind_of tested)

end ReadBack

/-! ### Chains -/

theorem members_of_mem {op : Connective} {c y : Condition α} (hy : y ∈ members op c) : members op y = [y] := by
  induction c using Condition.induction with
  | logic l o r hl hr =>
    by_cases ho : o = op
    · subst ho
      rw [members_self] at hy
      exact (List.mem_append.1 hy).elim hl hr
    · have single := members_of_mixes (c := .logic l o r) (by simpa [mixes] using ho)
      rw [single, List.mem_singleton] at hy
      rw [hy, single]
  | _ =>
    rw [List.mem_singleton.1 hy]
    rfl

/-- **A chain is read member by member**, and what is read is grouped to the left. -/
theorem ReadBack.chain {l r : Condition α} {op : Connective}
    (h : ∀ y ∈ members op (.logic l op r), ∃ z, ReadBack b y z) : ∃ x, ReadBack b (.logic l op r) x := by
  have side : asSide b op (.logic l op r) = layout b (.logic l op r) :=
    asSide_of_not_mixes (by rw [mixes, bne_self_eq_false])
  have laid := side.symm.trans (layout_members b op (.logic l op r))
  obtain ⟨xs, read⟩ := exists_forall₂ h
  have single : ∀ y ∈ members op (.logic l op r), members op y = [y] := fun y hy => members_of_mem hy
  rcases hm : members op (.logic l op r) with _ | ⟨y, ys⟩
  · exact absurd hm (members_ne_nil op _)
  · rw [hm] at read laid single
    rcases read with _ | @⟨_, x, _, xs, hx, hxs⟩
    refine ⟨xs.foldl (.logic · op ·) x, ?_⟩
    have regrouped := map_regroup (.cons hx hxs)
    have condition : ∀ n, (layout b (.logic l op r)).length ≤ n →
        (reader (n + 1)).Gives closers (layout b (.logic l op r)) (xs.foldl (.logic · op ·) x) := fun n hn => by
      refine condition_of_chain op (Nat.lt_of_lt_of_le (layout_pos b _) hn) fun rest hs => ?_
      rw [laid] at hn ⊢
      have short : ∀ z ∈ y :: ys, (asSide b op z).length ≤ n := fun z hz =>
        (Token.length_le_joined op.word (List.mem_map_of_mem hz)).trans hn
      have first := hx.member op (single y List.mem_cons_self) n (short y List.mem_cons_self)
      have others : List.Forall₂ ((Condition.member op n).Gives (op.word :: behind op)) (ys.map (asSide b op)) xs := by
        have singleOthers := fun z hz => single z (List.mem_cons_of_mem y hz)
        have shortOthers := fun z hz => short z (List.mem_cons_of_mem y hz)
        clear hm laid single short hn regrouped
        induction hxs with
        | nil => exact .nil
        | cons h _ ih =>
          rw [List.forall_mem_cons] at singleOthers shortOthers
          exact .cons (h.member op singleOthers.1 n shortOthers.1) (ih singleOthers.2 shortOthers.2)
      have many : (ys.map (asSide b op)).length < n := by
        have counted := Token.length_joined op.word (asSide b op y) (ys.map (asSide b op))
        have pos : 0 < (asSide b op y).length := by
          rw [asSide, Token.wrapped]
          split
          · exact Nat.succ_pos _
          · exact layout_pos b y
        rw [List.map_cons] at hn
        omega
      have apart : op.word ∉ behind op := by cases op <;> decide
      exact run_bind_of (Reader.separatedBy_gives apart first others many rest hs)
    refine ⟨regroup_foldl (hm ▸ regrouped), operand_of_condition rfl condition, fun op' ho n hn => ?_, condition⟩
    -- a chain is a member of a chain of the other connective only, where it stands in parentheses
    have mixed : mixes op' (.logic l op r) := by
      by_contra other
      have same : op = op' := by simpa [mixes] using other
      subst same
      have both := congrArg List.length ho
      have left := List.length_pos_iff.2 (members_ne_nil op l)
      have right := List.length_pos_iff.2 (members_ne_nil op r)
      rw [members_self, List.length_append, List.length_singleton] at both
      omega
    have parens : asSide b op' (.logic l op r) = .fixed "(" :: layout b (.logic l op r) ++ [.fixed ")"] := by
      rw [asSide, mixed]
      rfl
    rw [parens] at hn ⊢
    simp only [List.length_append, List.length_cons, List.length_nil] at hn
    obtain ⟨m, rfl⟩ : ∃ m, n = m + 1 := ⟨n - 1, by omega⟩
    have pos := Nat.succ_pos m
    exact member_of_negation pos (negation_of_operand pos (operand_of_parens (condition m (by omega)))) op'

/-! ### Conditions -/

theorem run_number (m n : Nat) (rest : List (Token α)) :
    (operand (reader m)).run (.fixed (Decimal.ofNat n) :: rest) = some (.number n, rest) := by
  have other : ∀ word : String, word.toList.all Char.isDigit = false → Decimal.ofNat n ≠ word := fun word hw he => by
    have digits : (Decimal.ofNat n).toList.all Char.isDigit = true := by
      rw [Decimal.toList_ofNat]
      exact List.all_eq_true.2 fun c => Decimal.isDigit_of_mem_digits
    rw [he, hw] at digits
    cases digits
  show (begunBy (reader m) (Decimal.ofNat n)).run rest = _
  rw [begunBy, if_neg (other _ (by decide)), if_neg (other _ (by decide)), if_neg (other _ (by decide)),
    Decimal.toList_ofNat, Decimal.nat?_digits]
  rfl

/-- **Every condition is read back**, as are the members of its chains, by induction on the condition. -/
theorem readBack (b : Bool) (c : Condition α) :
    (∃ x, ReadBack b c x) ∧ ∀ op, ∀ y ∈ members op c, ∃ x, ReadBack b y x := by
  have alone : ∀ {c : Condition α}, (∀ op, members op c = [c]) → (∃ x, ReadBack b c x) →
      (∃ x, ReadBack b c x) ∧ ∀ op, ∀ y ∈ members op c, ∃ x, ReadBack b y x := fun single h =>
    ⟨h, fun op y hy => by
      rw [single op, List.mem_singleton] at hy
      exact hy ▸ h⟩
  induction c using Condition.induction with
  | column of name =>
    refine alone (fun _ => rfl) ⟨_, .of_value rfl rfl fun n rest hs => ?_⟩
    cases of with
    | none => exact run_absent hs
    | some of => rfl
  | placeholder a => exact alone (fun _ => rfl) ⟨_, .of_value rfl rfl fun _ _ _ => rfl⟩
  | null => exact alone (fun _ => rfl) ⟨_, .of_value rfl rfl fun _ _ _ => rfl⟩
  | number n => exact alone (fun _ => rfl) ⟨_, .of_value rfl rfl fun m rest _ => run_number m n rest⟩
  | compare l op r hl hr =>
    obtain ⟨⟨l', hl⟩, -⟩ := hl
    obtain ⟨⟨r', hr⟩, -⟩ := hr
    exact alone (fun _ => rfl) ⟨_, hl.compare hr op⟩
  | isNull c negated hc =>
    obtain ⟨⟨c', hc⟩, -⟩ := hc
    exact alone (fun _ => rfl) ⟨_, hc.isNull negated⟩
  | inList c y ys negated hc hy hys =>
    obtain ⟨⟨c', hc⟩, -⟩ := hc
    obtain ⟨⟨y', hy⟩, -⟩ := hy
    obtain ⟨ys', hys⟩ := exists_forall₂ fun y h => (hys y h).1
    exact alone (fun _ => rfl) ⟨_, hc.inList hy hys negated⟩
  | between c l h hc hl hh =>
    obtain ⟨⟨c', hc⟩, -⟩ := hc
    obtain ⟨⟨l', hl⟩, -⟩ := hl
    obtain ⟨⟨h', hh⟩, -⟩ := hh
    exact alone (fun _ => rfl) ⟨_, hc.between hl hh⟩
  | not c hc =>
    obtain ⟨⟨c', hc⟩, -⟩ := hc
    exact alone (fun _ => rfl) ⟨_, hc.not⟩
  | logic l op r hl hr =>
    have own : ∀ y ∈ members op (.logic l op r), ∃ x, ReadBack b y x := fun y hy => by
      rw [members_self] at hy
      exact (List.mem_append.1 hy).elim (hl.2 op y) (hr.2 op y)
    have whole := ReadBack.chain own
    refine ⟨whole, fun op' => ?_⟩
    by_cases ho : op = op'
    · exact ho ▸ own
    · rw [members_of_mixes (by simpa [mixes] using ho)]
      exact List.forall_mem_singleton.2 whole

/-- **A condition that is laid out is read to its end**, as a regrouping of itself. -/
theorem reader_layout (b : Bool) (c : Condition α) :
    ∃ x, x.regroup = c.regroup ∧ (reader ((layout b c).length + 1)).run (layout b c) = some (x, []) := by
  obtain ⟨⟨x, hx⟩, -⟩ := readBack b c
  refine ⟨x, hx.regroup, ?_⟩
  have read := hx.condition (layout b c).length (Nat.le_refl _) [] (Reader.stop_nil closers)
  rwa [List.append_nil] at read

end Condition

end SqlTree
