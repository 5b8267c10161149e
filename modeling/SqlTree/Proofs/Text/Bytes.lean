/-
Which texts are read as byte strings.

`Hex.read` takes the characters of a text two by two. A text that is held as its UTF-8 bytes is read otherwise: it is
cut at every second byte position, where a cut inside a character fails, and each part is given to a reader of numbers
in base sixteen, which knows nothing of pairs. `Hex.byPosition?` reads in this way.

- `Text.slice?_eq_some_iff`: the part between two byte positions is what stands there between characters.
- `Hex.read_eq_some_iff`: what is read are pairs of digits, the first of which may be a plus sign.
- `Hex.byPosition?_eq`: both readers agree on every text.
- `Hex.bytes?_reads_pairs`: so a text is read strictly, as digits in an even number, if and only if it has no plus sign.
-/
import SqlTree.Hex

namespace SqlTree

/-! ## Parts of a text -/

namespace Text

/-- the part of a text between two byte positions, if both stand between characters and in order -/
def slice? (text : String) (start stop : Nat) : Option String :=
  if h : (String.Pos.Raw.mk start).IsValid text ∧ (String.Pos.Raw.mk stop).IsValid text ∧ start ≤ stop then
    some (text.extract ⟨⟨start⟩, h.1⟩ ⟨⟨stop⟩, h.2.1⟩)
  else none

/-- A text is parted in one way at a byte position. -/
theorem append_inj {before before' behind behind' : String} (h : before ++ behind = before' ++ behind')
    (size : before.utf8ByteSize = before'.utf8ByteSize) : before = before' ∧ behind = behind' := by
  let cut : (before ++ behind).Pos :=
    ⟨⟨before.utf8ByteSize⟩, String.Pos.Raw.isValid_iff_exists_append.2 ⟨before, behind, rfl, rfl⟩⟩
  have parts : cut.Splits before behind := ⟨rfl, rfl⟩
  have parts' : cut.Splits before' behind' := ⟨h, congrArg String.Pos.Raw.mk size⟩
  exact parts.eq parts'

theorem slice?_append (before part behind : String) :
    slice? (before ++ part ++ behind) before.utf8ByteSize (before.utf8ByteSize + part.utf8ByteSize) = some part := by
  have first : (String.Pos.Raw.mk before.utf8ByteSize).IsValid (before ++ part ++ behind) := by
    rw [String.append_assoc]
    exact String.Pos.Raw.isValid_iff_exists_append.2 ⟨before, part ++ behind, rfl, rfl⟩
  have last : (String.Pos.Raw.mk (before.utf8ByteSize + part.utf8ByteSize)).IsValid (before ++ part ++ behind) := by
    rw [← String.utf8ByteSize_append]
    exact String.Pos.Raw.isValid_iff_exists_append.2 ⟨before ++ part, behind, rfl, rfl⟩
  rw [slice?, dif_pos ⟨first, last, Nat.le_add_right _ _⟩, Option.some.injEq, ← String.toByteArray_inj,
    String.toByteArray_extract, String.toByteArray_append, String.toByteArray_append]
  simp only [← String.size_toByteArray, ← ByteArray.size_append, ByteArray.extract_append_size_left]
  exact ByteArray.extract_append_eq_right rfl ByteArray.size_append

/-- The part between two byte positions is what stands there, and there is one only between characters. -/
theorem slice?_eq_some_iff {text part : String} {start stop : Nat} :
    slice? text start stop = some part ↔ ∃ before behind, text = before ++ part ++ behind
      ∧ before.utf8ByteSize = start ∧ start + part.utf8ByteSize = stop := by
  constructor
  · intro h
    have valid : (String.Pos.Raw.mk start).IsValid text ∧ (String.Pos.Raw.mk stop).IsValid text ∧ start ≤ stop := by
      rw [slice?] at h
      split at h
      · next valid => exact valid
      · cases h
    obtain ⟨first, last, ordered⟩ := valid
    obtain ⟨whole, behind, rfl, end_whole⟩ := String.Pos.Raw.isValid_iff_exists_append.1 last
    have stands : stop = whole.utf8ByteSize := congrArg String.Pos.Raw.byteIdx end_whole
    have within : (String.Pos.Raw.mk start).IsValid whole := by
      rcases String.Pos.Raw.isValid_append.1 first with inside | ⟨beyond, -⟩
      · exact inside
      · have there : start = whole.utf8ByteSize := Nat.le_antisymm (stands ▸ ordered) (String.Pos.Raw.le_iff.1 beyond)
        rw [there]
        exact String.Pos.Raw.isValid_rawEndPos
    obtain ⟨before, part', rfl, end_before⟩ := String.Pos.Raw.isValid_iff_exists_append.1 within
    have begins : start = before.utf8ByteSize := congrArg String.Pos.Raw.byteIdx end_before
    rw [String.utf8ByteSize_append] at stands
    rw [begins, stands, slice?_append] at h
    cases h
    exact ⟨before, behind, rfl, begins.symm, by rw [begins, stands]⟩
  · rintro ⟨before, behind, rfl, rfl, rfl⟩
    exact slice?_append before part behind

end Text

namespace Hex

/-! ## Digits -/

def digits : List Char := "0123456789abcdefABCDEF".toList

theorem digit?_ascii : ∀ n : Fin 128, ∀ d ∈ digit? (Char.ofNat n),
    Char.ofNat n ∈ digits ∧ d < 16 ∧ (Char.ofNat n).toLower = digit d := by
  decide +kernel

theorem digit?_of_mem {c : Char} (h : c ∈ digits) : ∃ d, digit? c = some d ∧ d < 16 ∧ c.toLower = digit d := by
  -- Checked along the list: a statement about every character would be decided by going through all of them.
  have all : digits.all (fun c : Char => (digit? c).any fun d => d < 16 && c.toLower == digit d) = true := by
    decide +kernel
  obtain ⟨d, read, found⟩ := (Option.any_eq_true _ _).1 (List.all_eq_true.1 all c h)
  rw [Bool.and_eq_true, decide_eq_true_eq, beq_iff_eq] at found
  exact ⟨d, read, found⟩

theorem digit_injective {m n : Nat} (hm : m < 16) (hn : n < 16) (h : digit m = digit n) : m = n := by
  have read := (digit?_digit hm).1
  rw [h, (digit?_digit hn).1] at read
  exact (Option.some.inj read).symm

theorem toNat_lt_of_digit? {c : Char} {d : Nat} (h : digit? c = some d) : c.toNat < 128 := by
  have below : ∀ {last : Char}, c ≤ last → last.toNat < 128 → c.toNat < 128 :=
    fun hc hl => Nat.lt_of_le_of_lt (UInt32.le_iff_toNat_le.1 hc) hl
  unfold digit? at h
  split at h
  · next hc => exact below hc.2 (by decide)
  · split at h
    · next hc => exact below hc.2 (by decide)
    · split at h
      · next hc => exact below hc.2 (by decide)
      · cases h

/-- A digit denotes the number that is written as this digit in lower case. -/
theorem digit?_eq_some_iff {c : Char} {d : Nat} : digit? c = some d ↔ c ∈ digits ∧ d < 16 ∧ c.toLower = digit d := by
  constructor
  · intro h
    have ascii := digit?_ascii ⟨c.toNat, toNat_lt_of_digit? h⟩ d
    rw [Char.ofNat_toNat] at ascii
    exact ascii h
  · rintro ⟨digit, small, lower⟩
    obtain ⟨d', read, small', lower'⟩ := digit?_of_mem digit
    rw [read, digit_injective small' small (lower'.symm.trans lower)]

/-! ## Pairs -/

/-- a digit in lower case, a plus sign taken as zero -/
def lowered (c : Char) : Char := if c = '+' then '0' else c.toLower

/-- pairs of digits, the first of which may be a plus sign -/
inductive Pairs : List Char → Prop
  | nil : Pairs []
  | cons {c c' : Char} {cs : List Char} (high : c ∈ digits ∨ c = '+') (low : c' ∈ digits) (rest : Pairs cs) :
    Pairs (c :: c' :: cs)

theorem plus_not_mem : '+' ∉ digits := by decide

theorem lowered_of_ne {c : Char} (h : c ≠ '+') : lowered c = c.toLower := if_neg h

theorem lowered_of_mem {c : Char} (h : c ∈ digits) : lowered c = c.toLower :=
  lowered_of_ne fun plus => plus_not_mem (plus ▸ h)

/-- the number of the first character of a pair -/
def high? (c : Char) : Option Nat := if c = '+' then some 0 else digit? c

theorem high?_eq_some_iff {c : Char} {m : Nat} :
    high? c = some m ↔ (c ∈ digits ∨ c = '+') ∧ m < 16 ∧ lowered c = digit m := by
  unfold high?
  split
  · next plus =>
    subst plus
    constructor
    · rintro ⟨⟩
      exact ⟨.inr rfl, by decide, rfl⟩
    · rintro ⟨-, small, lower⟩
      have zero : digit 0 = digit m := lower
      rw [digit_injective (by decide) small zero]
  · next plain =>
    rw [digit?_eq_some_iff, lowered_of_ne plain, or_iff_left plain]

theorem byte?_eq (c c' : Char) :
    byte? c c' = (high? c).bind fun m => (digit? c').bind fun n => some (UInt8.ofNat (16 * m + n)) := by
  unfold byte? high?
  split
  · rw [if_pos rfl]
    cases digit? c' <;> simp
  · next plain => rw [if_neg plain]; rfl

theorem pair_ofNat {m n : Nat} (hm : m < 16) (hn : n < 16) : pair (UInt8.ofNat (16 * m + n)) = [digit m, digit n] := by
  have value : (UInt8.ofNat (16 * m + n)).toNat = 16 * m + n := UInt8.toNat_ofNat_of_lt' (by rw [UInt8.size]; omega)
  have high : (16 * m + n) / 16 = m := by omega
  have low : (16 * m + n) % 16 = n := by omega
  rw [pair, value, high, low]

/-- Two characters are a byte if and only if they are a pair, and the byte is the one that is written as this pair. -/
theorem byte?_eq_some_iff {c c' : Char} {b : UInt8} :
    byte? c c' = some b ↔ (c ∈ digits ∨ c = '+') ∧ c' ∈ digits ∧ pair b = [lowered c, lowered c'] := by
  rw [byte?_eq]
  constructor
  · intro h
    obtain ⟨m, high, h⟩ := Option.bind_eq_some_iff.1 h
    obtain ⟨n, low, h⟩ := Option.bind_eq_some_iff.1 h
    cases h
    obtain ⟨lead, small, first⟩ := high?_eq_some_iff.1 high
    obtain ⟨digit, small', second⟩ := digit?_eq_some_iff.1 low
    exact ⟨lead, digit, by rw [pair_ofNat small small', first, lowered_of_mem digit, second]⟩
  · rintro ⟨lead, digit, written⟩
    rw [pair, List.cons.injEq, List.cons.injEq] at written
    have size := b.toNat_lt
    have high := high?_eq_some_iff.2 ⟨lead, by omega, written.1.symm⟩
    have low := digit?_eq_some_iff.2 ⟨digit, by omega, (lowered_of_mem digit).symm.trans written.2.1.symm⟩
    have whole : 16 * (b.toNat / 16) + b.toNat % 16 = b.toNat := Nat.div_add_mod _ _
    simp only [high, low, Option.bind_some, whole, UInt8.ofNat_toNat]

theorem read_cons (c c' : Char) (cs : List Char) :
    read (c :: c' :: cs) = (byte? c c').bind fun b => (read cs).bind fun bs => some (b :: bs) := rfl

/-- Pairs are read and nothing else is, as the bytes that are written as these pairs. -/
theorem read_eq_some_iff {cs : List Char} {bs : List UInt8} :
    read cs = some bs ↔ Pairs cs ∧ bs.flatMap pair = cs.map lowered := by
  fun_induction read cs generalizing bs with
  | case1 =>
    constructor
    · rintro ⟨⟩
      exact ⟨.nil, rfl⟩
    · rintro ⟨-, written⟩
      cases bs with
      | nil => rfl
      | cons b bs => cases written
  | case2 c =>
    constructor
    · nofun
    · rintro ⟨⟨⟩, -⟩
  | case3 c c' cs ih =>
    constructor
    · intro h
      obtain ⟨b, byte, h⟩ := Option.bind_eq_some_iff.1 h
      obtain ⟨bs, rest, h⟩ := Option.bind_eq_some_iff.1 h
      cases h
      obtain ⟨high, low, written⟩ := byte?_eq_some_iff.1 byte
      obtain ⟨pairs, written'⟩ := ih.1 rest
      exact ⟨.cons high low pairs, by rw [List.flatMap_cons, written, written']; rfl⟩
    · rintro ⟨pairs, written⟩
      obtain - | ⟨high, low, pairs⟩ := pairs
      cases bs with
      | nil => cases written
      | cons b bs =>
        have parts : pair b ++ bs.flatMap pair = [lowered c, lowered c'] ++ cs.map lowered := written
        obtain ⟨first, rest⟩ := List.append_inj parts rfl
        have byte := byte?_eq_some_iff.2 ⟨high, low, first⟩
        have bytes := ih.2 ⟨pairs, rest⟩
        rw [byte, bytes]
        rfl

/-! ## Strict texts -/

/-- a text of hexadecimal digits in an even number and nothing else -/
def Strict (text : String) : Prop := text.length % 2 = 0 ∧ ∀ c ∈ text.toList, c ∈ digits

instance (text : String) : Decidable (Strict text) :=
  decidable_of_iff (text.length % 2 = 0 ∧ text.toList.all (· ∈ digits) = true) (by simp [Strict])

/-- Pairs without a plus sign are digits in an even number. -/
theorem pairs_iff {cs : List Char} : Pairs cs ∧ '+' ∉ cs ↔ cs.length % 2 = 0 ∧ ∀ c ∈ cs, c ∈ digits := by
  induction cs using read.induct with
  | case1 => exact ⟨fun _ => ⟨rfl, nofun⟩, fun _ => ⟨.nil, nofun⟩⟩
  | case2 c =>
    constructor
    · rintro ⟨⟨⟩, -⟩
    · rintro ⟨odd, -⟩
      cases odd
  | case3 c c' cs ih =>
    rw [List.length_cons, List.length_cons, Nat.add_mod_right cs.length 2, List.forall_mem_cons, List.forall_mem_cons]
    constructor
    · rintro ⟨pairs, plain⟩
      obtain - | ⟨high, low, pairs⟩ := pairs
      simp only [List.mem_cons, not_or] at plain
      obtain ⟨even, all⟩ := ih.1 ⟨pairs, plain.2.2⟩
      exact ⟨even, high.resolve_right fun plus => plain.1 plus.symm, low, all⟩
    · rintro ⟨even, high, low, all⟩
      obtain ⟨pairs, plain⟩ := ih.2 ⟨even, all⟩
      refine ⟨.cons (.inl high) low pairs, ?_⟩
      simp only [List.mem_cons, not_or]
      exact ⟨fun plus => plus_not_mem (plus ▸ high), fun plus => plus_not_mem (plus ▸ low), plain⟩

/-! ## Reading by byte positions -/

/-- one or more digits of base sixteen and nothing else, as their value -/
def nat? (ds : List Char) : Option Nat :=
  if ds.isEmpty then none else ds.foldlM (fun n d => do return 16 * n + (← digit? d)) 0

/-- a text without the plus sign in front of it -/
def unsigned (cs : List Char) : List Char := if cs.head? = some '+' then cs.tail else cs

/-- a number below `bound` in digits of base sixteen, an optional plus in front -/
def below? (bound : Nat) (text : String) : Option Nat := (nat? (unsigned text.toList)).filter (· < bound)

/-- the byte that two bytes of text denote as a number -/
def byteAt? (text : String) (i : Nat) : Option UInt8 := do
  return UInt8.ofNat (← below? UInt8.size (← Text.slice? text i (i + 2)))

/-- the byte string of a hexadecimal text that is cut at every second byte position -/
def byPosition? (text : String) : Option (List UInt8) :=
  if text.utf8ByteSize % 2 = 0 then (List.range' 0 (text.utf8ByteSize / 2) 2).mapM (byteAt? text) else none

/-! ### Numbers in two bytes -/

theorem utf8ByteSize_cons (c : Char) (cs : List Char) :
    (String.ofList (c :: cs)).utf8ByteSize = c.utf8Size + (String.ofList cs).utf8ByteSize := by
  have parts : String.ofList (c :: cs) = String.singleton c ++ String.ofList cs := by
    rw [String.singleton_eq_ofList, ← String.ofList_append]
    rfl
  rw [parts, String.utf8ByteSize_append, String.utf8ByteSize_singleton]

theorem utf8Size_eq {c : Char} (h : c ∈ digits ∨ c = '+') : c.utf8Size = 1 := by
  have all : ('+' :: digits).all (fun c : Char => c.utf8Size = 1) = true := by decide +kernel
  exact of_decide_eq_true (List.all_eq_true.1 all c (List.mem_cons.2 h.symm))

theorem utf8Size_of_digit? {c : Char} {d : Nat} (h : digit? c = some d) : c.utf8Size = 1 :=
  utf8Size_eq (.inl (digit?_eq_some_iff.1 h).1)

theorem utf8ByteSize_pair {c c' : Char} (high : c ∈ digits ∨ c = '+') (low : c' ∈ digits) (cs : List Char) :
    (String.ofList (c :: c' :: cs)).utf8ByteSize = (String.ofList cs).utf8ByteSize + 2 := by
  rw [utf8ByteSize_cons, utf8ByteSize_cons, utf8Size_eq high, utf8Size_eq (.inl low)]
  omega

theorem Pairs.utf8ByteSize {cs : List Char} (h : Pairs cs) : (String.ofList cs).utf8ByteSize % 2 = 0 := by
  induction h with
  | nil => rfl
  | cons high low rest ih => rw [utf8ByteSize_pair high low, Nat.add_mod_right, ih]

theorem utf8ByteSize_of_byte? {c c' : Char} {b : UInt8} (h : byte? c c' = some b) :
    (String.ofList [c, c']).utf8ByteSize = 2 := by
  obtain ⟨high, low, -⟩ := byte?_eq_some_iff.1 h
  rw [utf8ByteSize_pair high low]
  rfl

theorem nat?_one (c : Char) : nat? [c] = digit? c := by
  show ((digit? c).bind fun d => some (16 * 0 + d)).bind some = digit? c
  cases digit? c <;> simp

theorem nat?_two (c c' : Char) :
    nat? [c, c'] = (digit? c).bind fun m => (digit? c').bind fun n => some (16 * m + n) := by
  show ((digit? c).bind fun d => some (16 * 0 + d)).bind
    (fun m => ((digit? c').bind fun n => some (16 * m + n)).bind some) = _
  cases digit? c <;> simp

theorem unsigned_of_ne {c : Char} (h : c ≠ '+') (cs : List Char) : unsigned (c :: cs) = c :: cs :=
  if_neg fun plus => h (Option.some.inj plus)

/-- A plus sign and a digit are the same number as a zero and the digit. -/
theorem nat?_unsigned (c c' : Char) :
    nat? (unsigned [c, c']) = (high? c).bind fun m => (digit? c').bind fun n => some (16 * m + n) := by
  by_cases plus : c = '+'
  · subst plus
    show nat? [c'] = (digit? c').bind fun n => some (16 * 0 + n)
    rw [nat?_one]
    cases digit? c' <;> simp
  · rw [unsigned_of_ne plus, nat?_two, high?, if_neg plus]

/-- Two characters are the number of a byte exactly as they are a pair. -/
theorem below?_pair (c c' : Char) : (below? UInt8.size (String.ofList [c, c'])).map UInt8.ofNat = byte? c c' := by
  rw [below?, String.toList_ofList, nat?_unsigned, byte?_eq]
  cases high : high? c with
  | none => rfl
  | some m =>
    cases low : digit? c' with
    | none => rfl
    | some n =>
      have first := (high?_eq_some_iff.1 high).2.1
      have second := (digit?_eq_some_iff.1 low).2.1
      have fits : decide (16 * m + n < UInt8.size) = true := decide_eq_true (by rw [UInt8.size]; omega)
      simp only [Option.bind_some, Option.filter_some, fits, if_true, Option.map_some]

theorem exists_pair_of_below? {part : String} {bound n : Nat} (h : below? bound part = some n)
    (size : part.utf8ByteSize = 2) : ∃ c c', part = String.ofList [c, c'] := by
  obtain ⟨cs, rfl⟩ := part.exists_eq_ofList
  rw [below?, String.toList_ofList] at h
  have number := (Option.filter_eq_some_iff.1 h).1
  rcases cs with _ | ⟨c, _ | ⟨c', _ | ⟨c'', cs⟩⟩⟩
  · cases size
  -- One character of two bytes is no digit, nor is it a sign.
  · have plain : c ≠ '+' := by
      rintro rfl
      cases size
    rw [unsigned_of_ne plain, nat?_one] at number
    rw [utf8ByteSize_cons, utf8Size_of_digit? number] at size
    cases size
  · exact ⟨c, c', rfl⟩
  · have := c.utf8Size_pos
    have := c'.utf8Size_pos
    have := c''.utf8Size_pos
    rw [utf8ByteSize_cons, utf8ByteSize_cons, utf8ByteSize_cons] at size
    omega

/-! ### All positions -/

/-- There is a byte at a position if and only if a pair stands there. -/
theorem byteAt?_eq_some_iff {text : String} {i : Nat} {b : UInt8} :
    byteAt? text i = some b ↔ ∃ before c c' behind, text = before ++ String.ofList [c, c'] ++ behind
      ∧ before.utf8ByteSize = i ∧ byte? c c' = some b := by
  constructor
  · intro h
    obtain ⟨part, cut, read⟩ := Option.bind_eq_some_iff.1 h
    obtain ⟨n, number, value⟩ := Option.bind_eq_some_iff.1 read
    obtain ⟨before, behind, parts, begins, size⟩ := Text.slice?_eq_some_iff.1 cut
    obtain ⟨c, c', rfl⟩ := exists_pair_of_below? number (Nat.add_left_cancel size)
    refine ⟨before, c, c', behind, parts, begins, ?_⟩
    rw [← below?_pair, number]
    exact value
  · rintro ⟨before, c, c', behind, rfl, rfl, byte⟩
    have cut := Text.slice?_append before (String.ofList [c, c']) behind
    rw [utf8ByteSize_of_byte? byte] at cut
    rw [← below?_pair] at byte
    obtain ⟨n, number, rfl⟩ := Option.map_eq_some_iff.1 byte
    simp only [byteAt?, cut, number, Option.bind_eq_bind, Option.bind_some]
    rfl

/-- Behind what was read so far, the bytes at every second position are those of the pairs that are left. -/
theorem mapM_byteAt?_eq_some_iff {n : Nat} (before rest : String) (bs : List UInt8) (size : rest.utf8ByteSize = 2 * n) :
    (List.range' before.utf8ByteSize n 2).mapM (byteAt? (before ++ rest)) = some bs ↔ read rest.toList = some bs := by
  induction n generalizing before rest bs with
  | zero =>
    have nothing : rest = "" := String.utf8ByteSize_eq_zero_iff.1 size
    subst nothing
    rfl
  | succ n ih =>
    -- Where a pair stands in front, what is behind it is read in the same way.
    have step : ∀ {c c' : Char} {b : UInt8} {behind : String},
      rest = String.ofList [c, c'] ++ behind → byte? c c' = some b →
        ∀ bs, (List.range' (before.utf8ByteSize + 2) n 2).mapM (byteAt? (before ++ rest)) = some bs
          ↔ read behind.toList = some bs := by
      rintro c c' b behind rfl byte bs
      have width := utf8ByteSize_of_byte? byte
      rw [String.utf8ByteSize_append, width] at size
      have next := ih (before ++ String.ofList [c, c']) behind bs (by omega)
      rwa [String.utf8ByteSize_append, width, String.append_assoc] at next
    rw [List.range'_succ, List.mapM_cons]
    constructor
    · intro h
      obtain ⟨b, byte, h⟩ := Option.bind_eq_some_iff.1 h
      obtain ⟨bs, others, h⟩ := Option.bind_eq_some_iff.1 h
      cases h
      -- A pair stands behind as many bytes as were read, and that can only be here.
      obtain ⟨before', c, c', behind, parts, begins, byte⟩ := byteAt?_eq_some_iff.1 byte
      rw [String.append_assoc] at parts
      obtain ⟨rfl, same⟩ := Text.append_inj parts begins.symm
      have bytes := (step same byte bs).1 others
      rw [same, String.toList_append, String.toList_ofList]
      show read (c :: c' :: behind.toList) = _
      rw [read_cons, byte, bytes]
      rfl
    · intro h
      obtain ⟨cs, rfl⟩ := rest.exists_eq_ofList
      rw [String.toList_ofList] at h
      rcases cs with _ | ⟨c, _ | ⟨c', cs⟩⟩
      · cases size
      · cases h
      · rw [read_cons] at h
        obtain ⟨b, byte, h⟩ := Option.bind_eq_some_iff.1 h
        obtain ⟨bs, bytes, h⟩ := Option.bind_eq_some_iff.1 h
        cases h
        have parts : String.ofList (c :: c' :: cs) = String.ofList [c, c'] ++ String.ofList cs := by
          rw [← String.ofList_append]
          rfl
        have here : byteAt? (before ++ String.ofList (c :: c' :: cs)) before.utf8ByteSize = some b :=
          byteAt?_eq_some_iff.2 ⟨before, c, c', String.ofList cs, by rw [parts, String.append_assoc], rfl, byte⟩
        have others := (step parts byte bs).2 (by rw [String.toList_ofList, bytes])
        rw [here, others]
        rfl

/-- Reading two characters at a time and reading two bytes at a time give the same for every text. -/
theorem byPosition?_eq (text : String) : byPosition? text = bytes? text := by
  apply Option.ext
  intro bs
  rw [byPosition?, bytes?]
  split
  · next even =>
    have half : text.utf8ByteSize = 2 * (text.utf8ByteSize / 2) := by omega
    have all := mapM_byteAt?_eq_some_iff "" text bs half
    rwa [String.empty_append] at all
  · next odd =>
    constructor
    · intro h
      cases h
    · intro h
      have size := (read_eq_some_iff.1 h).1.utf8ByteSize
      rw [String.ofList_toList] at size
      exact absurd size odd

/-! ## The texts that are read -/

theorem ofBytes_eq_iff {text : String} {f : Char → Char} {bs : List UInt8} :
    ofBytes bs = text.map f ↔ bs.flatMap pair = text.toList.map f := by
  rw [← String.toList_inj, ofBytes, String.toList_ofList, String.toList_map]

/-- **The texts that are read as bytes are pairs of hexadecimal digits, the first of which may be a plus sign**, whether
they are taken by characters or by byte positions, and the bytes are written as the text in lower case with zeros for
plus signs. So among the texts without a plus sign those of hexadecimal digits in an even number are read and no others,
and the bytes are written as the text in lower case. -/
theorem bytes?_reads_pairs (text : String) (bs : List UInt8) :
    byPosition? text = bytes? text
      ∧ (bytes? text = some bs ↔ Pairs text.toList ∧ ofBytes bs = text.map lowered)
      ∧ (bytes? text = some bs ∧ '+' ∉ text.toList ↔ Strict text ∧ ofBytes bs = text.toLower) := by
  have pairs : bytes? text = some bs ↔ Pairs text.toList ∧ ofBytes bs = text.map lowered := by
    rw [ofBytes_eq_iff]
    exact read_eq_some_iff
  have strict : Pairs text.toList ∧ '+' ∉ text.toList ↔ Strict text := by
    rw [pairs_iff, Strict, String.length_toList]
  have lower : '+' ∉ text.toList → (ofBytes bs = text.map lowered ↔ ofBytes bs = text.toLower) := by
    intro plain
    have same : text.toList.map lowered = text.toList.map Char.toLower :=
      List.map_congr_left fun c hc => lowered_of_ne fun plus => plain (plus ▸ hc)
    show _ ↔ ofBytes bs = text.map Char.toLower
    rw [ofBytes_eq_iff, ofBytes_eq_iff, same]
  refine ⟨byPosition?_eq text, pairs, ?_⟩
  rw [pairs, ← strict]
  constructor
  · rintro ⟨⟨read, written⟩, plain⟩
    exact ⟨⟨read, plain⟩, (lower plain).1 written⟩
  · rintro ⟨⟨read, plain⟩, written⟩
    exact ⟨⟨read, (lower plain).2 written⟩, plain⟩

/-- A plus sign and one digit are read as a byte. -/
theorem plus_read_as_zero : bytes? "+f" = some [15] ∧ byPosition? "+f" = some [15] ∧ ¬Strict "+f" := by
  decide +kernel

/-- Case does not matter; a minus sign, a blank, a digit that is missing and characters of more than one byte do. -/
example : bytes? "00fF1a" = some [0, 255, 26]
    ∧ ∀ text ∈ ["-f", " f", "abc", "aéb0", "é", "٣٤"], bytes? text = none := by
  decide +kernel

end Hex
end SqlTree
