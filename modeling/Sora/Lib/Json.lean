import Sora.Lib.Bytes

/-!
# JSON objects of strings

A string is a sequence of characters (`chunks`): an ASCII byte, a well-formed multi-byte
character, or a byte that belongs to none.  Printing escapes what the Go library escapes and
writes the replacement character for a stray byte; reading decodes escapes.  The two compose to
`fix`, which is the identity on UTF-8 (`fix_of_valid`).  Objects are read without blanks
between their tokens, as the library prints them.
-/

namespace Sora.Lib.Json

open List Nat

/-! ## Characters -/

/-- What may follow the first byte of a multi-byte character: the number of bytes and the range
of the first of them. -/
def lead (b : UInt8) : Option (Nat × UInt8 × UInt8) :=
  if 0xC2 ≤ b ∧ b ≤ 0xDF then some (1, 0x80, 0xBF)
  else if b = 0xE0 then some (2, 0xA0, 0xBF)
  else if b = 0xED then some (2, 0x80, 0x9F)
  else if 0xE1 ≤ b ∧ b ≤ 0xEF then some (2, 0x80, 0xBF)
  else if b = 0xF0 then some (3, 0x90, 0xBF)
  else if 0xF1 ≤ b ∧ b ≤ 0xF3 then some (3, 0x80, 0xBF)
  else if b = 0xF4 then some (3, 0x80, 0x8F)
  else none

def isTail (c : UInt8) : Bool := 0x80 ≤ c && c ≤ 0xBF

/-- The length of the multi-byte character at the front, zero if there is none. -/
def charLength : Bytes → Nat
  | b :: c :: rest =>
    match lead b with
    | some (n, low, high) =>
      if low ≤ c ∧ c ≤ high ∧ n - 1 ≤ rest.length ∧ (rest.take (n - 1)).all isTail then n + 1 else 0
    | none => 0
  | _ => 0

inductive Chunk where
  | ascii (b : UInt8)
  | char (bytes : Bytes)
  | stray (b : UInt8)
  deriving DecidableEq

def chunksFrom : Nat → Bytes → List Chunk
  | 0, _ => []
  | _, [] => []
  | fuel + 1, b :: rest =>
    if b < 0x80 then .ascii b :: chunksFrom fuel rest
    else
      match charLength (b :: rest) with
      | 0 => .stray b :: chunksFrom fuel rest
      | n => .char ((b :: rest).take n) :: chunksFrom fuel ((b :: rest).drop n)

def chunks (s : Bytes) : List Chunk := chunksFrom s.length s

/-- U+FFFD. -/
def replacement : Bytes := [0xEF, 0xBF, 0xBD]

def Chunk.raw : Chunk → Bytes
  | .ascii b => [b]
  | .char bytes => bytes
  | .stray b => [b]

def Chunk.fixed : Chunk → Bytes
  | .stray _ => replacement
  | c => c.raw

/-- The string with stray bytes replaced. -/
def fix (s : Bytes) : Bytes := (chunks s).flatMap Chunk.fixed

/-- The string is UTF-8. -/
def valid (s : Bytes) : Bool :=
  (chunks s).all fun
    | .stray _ => false
    | _ => true

/-! ## Strings -/

def Chunk.quoted : Chunk → Bytes
  | .ascii b =>
    if b = 34 ∨ b = 92 then [92, b]
    else if b = 8 then [92, 98]
    else if b = 9 then [92, 116]
    else if b = 10 then [92, 110]
    else if b = 12 then [92, 102]
    else if b = 13 then [92, 114]
    else if b < 32 ∨ b = 38 ∨ b = 60 ∨ b = 62 then
      [92, 117, 48, 48, digitByte (b.toNat / 16), digitByte (b.toNat % 16)]
    else [b]
  | .char bytes =>
    if bytes = [0xE2, 0x80, 0xA8] then Sora.Lib.ascii "\\u2028"
    else if bytes = [0xE2, 0x80, 0xA9] then Sora.Lib.ascii "\\u2029"
    else bytes
  | .stray _ => Sora.Lib.ascii "\\ufffd"

/-- A string as the library prints it. -/
def quote (s : Bytes) : Bytes := 34 :: ((chunks s).flatMap Chunk.quoted ++ [34])

def encodeRune (n : Nat) : Bytes :=
  if n < 0x80 then [UInt8.ofNat n]
  else if n < 0x800 then [UInt8.ofNat (0xC0 + n / 64), UInt8.ofNat (0x80 + n % 64)]
  else if n < 0x10000 then
    [UInt8.ofNat (0xE0 + n / 4096), UInt8.ofNat (0x80 + n / 64 % 64), UInt8.ofNat (0x80 + n % 64)]
  else [UInt8.ofNat (0xF0 + n / 262144), UInt8.ofNat (0x80 + n / 4096 % 64),
    UInt8.ofNat (0x80 + n / 64 % 64), UInt8.ofNat (0x80 + n % 64)]

def hex4 (a b c d : UInt8) : Option Nat := do
  let a ← digitValue a
  let b ← digitValue b
  let c ← digitValue c
  let d ← digitValue d
  some (((a * 16 + b) * 16 + c) * 16 + d)

/-- The low half of a surrogate pair. -/
def readLow : Bytes → Option (Nat × Bytes)
  | 92 :: 117 :: a :: b :: c :: d :: rest =>
    (hex4 a b c d).bind fun n => if 0xDC00 ≤ n ∧ n < 0xE000 then some (n, rest) else none
  | _ => none

/-- What follows a backslash. -/
def readEscape : Bytes → Option (Bytes × Bytes)
  | 117 :: a :: b :: c :: d :: rest =>
    (hex4 a b c d).map fun n =>
      if 0xD800 ≤ n ∧ n < 0xDC00 then
        match readLow rest with
        | some (low, rest) => (encodeRune (0x10000 + (n - 0xD800) * 1024 + (low - 0xDC00)), rest)
        | none => (replacement, rest)
      else if 0xDC00 ≤ n ∧ n < 0xE000 then (replacement, rest)
      else (encodeRune n, rest)
  | 98 :: rest => some ([8], rest)
  | 102 :: rest => some ([12], rest)
  | 110 :: rest => some ([10], rest)
  | 114 :: rest => some ([13], rest)
  | 116 :: rest => some ([9], rest)
  | c :: rest => if c = 34 ∨ c = 92 ∨ c = 47 ∨ c = 39 then some ([c], rest) else none
  | [] => none

/-- The next character of a string that does not end here. -/
def readChar : Bytes → Option (Bytes × Bytes)
  | [] => none
  | b :: rest =>
    if b = 92 then readEscape rest
    else if b < 32 then none
    else if b < 0x80 then some ([b], rest)
    else
      match charLength (b :: rest) with
      | 0 => some (replacement, rest)
      | n => some ((b :: rest).take n, (b :: rest).drop n)

/-- The rest of a string after its opening quotation mark, and what follows the string. -/
def unquote : Nat → Bytes → Option (Bytes × Bytes)
  | 0, _ => none
  | fuel + 1, s =>
    if s.head? = some 34 then some ([], s.tail)
    else do
      let (char, s) ← readChar s
      let (more, s) ← unquote fuel s
      some (char ++ more, s)

/-! ## Objects -/

def printMember (m : Bytes × Bytes) : Bytes := quote m.1 ++ 58 :: quote m.2

/-- The text after the opening brace. -/
def printMembers : List (Bytes × Bytes) → Bytes
  | [] => [125]
  | [m] => printMember m ++ [125]
  | m :: ms => printMember m ++ 44 :: printMembers ms

def printObject (ms : List (Bytes × Bytes)) : Bytes := 123 :: printMembers ms

def readString : Bytes → Option (Bytes × Bytes)
  | 34 :: s => unquote s.length s
  | _ => none

def readMembers : Nat → Bytes → Option (List (Bytes × Bytes))
  | 0, _ => none
  | fuel + 1, s => do
    let (key, s) ← readString s
    if s.head? = some 58 then
      let (value, s) ← readString s.tail
      if s = [125] then some [(key, value)]
      else if s.head? = some 44 then
        let more ← readMembers fuel s.tail
        some ((key, value) :: more)
      else none
    else none

def readObject : Bytes → Option (List (Bytes × Bytes))
  | 123 :: s => if s = [125] then some [] else readMembers s.length s
  | _ => none

/-! ## Reading what is printed -/

variable {n : Nat} {s t : Bytes} {c : UInt8} {cs : List Chunk}

theorem charLength_take (length : charLength s = n) (multi : n ≠ 0) :
    (s.take n).length = n ∧ 2 ≤ n ∧ ∀ rest, charLength (s.take n ++ rest) = n := by
  match s with
  | [] | [_] => exact absurd length.symm multi
  | b :: c :: tail =>
    rw [charLength] at length
    split at length
    case h_2 => exact absurd length.symm multi
    case h_1 k low high starts =>
      split at length
      case isFalse => exact absurd length.symm multi
      case isTrue good =>
        obtain ⟨above, below, enough, tails⟩ := good
        subst length
        have positive : 1 ≤ k := by
          unfold lead at starts
          repeat' split at starts
          all_goals cases starts <;> decide
        obtain ⟨m, rfl⟩ := Nat.exists_eq_add_of_le' positive
        rw [Nat.add_sub_cancel] at enough tails
        have front : (b :: c :: tail).take (m + 1 + 1) = b :: c :: tail.take m := rfl
        have size : (tail.take m).length = m := length_take_of_le enough
        refine ⟨by simp [size], by omega, fun rest => ?_⟩
        rw [front, cons_append, cons_append, charLength, starts]
        have whole : (tail.take m ++ rest).take m = tail.take m := by
          rw [take_append_of_le_length (by omega), take_of_length_le (by omega)]
        simp only [Nat.add_sub_cancel, whole, tails, above, below, length_append]
        rw [if_pos ⟨trivial, trivial, by omega, trivial⟩]

/-- What `chunks` produces. -/
def Chunk.Good : Chunk → Prop
  | .ascii b => b < 0x80
  | .char bytes => bytes.head?.any (0x80 ≤ ·) = true ∧ 2 ≤ bytes.length ∧
      ∀ rest, charLength (bytes ++ rest) = bytes.length
  | .stray _ => True

/-- The bytes of a multi-byte character are not ASCII. -/
theorem high_of_charLength (whole : charLength s = s.length)
    (first : s.head?.any (0x80 ≤ ·) = true) :
    ∀ c ∈ s, 0x80 ≤ c := by
  match s, whole, first with
  | b :: c :: rest, whole, first =>
    have high : 0x80 ≤ b := by simpa using first
    cases found : lead b with
    | none => simp [charLength, found] at whole
    | some range =>
      obtain ⟨n, low, top⟩ := range
      simp only [charLength, found] at whole
      split at whole
      · rename_i fits
        obtain ⟨above, -, -, tails⟩ := fits
        have least : 0x80 ≤ low := by
          unfold lead at found
          repeat' split at found
          all_goals cases found <;> decide
        have all : rest.take (n - 1) = rest := by
          refine take_of_length_le ?_
          simp only [length_cons] at whole
          omega
        rw [all] at tails
        rintro x (_ | ⟨_, _ | ⟨_, inside⟩⟩)
        · exact high
        · exact UInt8.le_trans least above
        · have tail := all_eq_true.mp tails x inside
          simp only [isTail, Bool.and_eq_true, decide_eq_true_eq] at tail
          exact tail.1
      · simp at whole

theorem Chunk.Good.high {bytes : Bytes} (good : (Chunk.char bytes).Good) :
    ∀ c ∈ bytes, 0x80 ≤ c := by
  have whole := good.2.2 []
  rw [append_nil] at whole
  exact high_of_charLength whole good.1

theorem good_chunksFrom (fuel : Nat) : ∀ s, ∀ c ∈ chunksFrom fuel s, c.Good := by
  induction fuel with
  | zero => intro s c member; cases member
  | succ fuel ih =>
    intro s c member
    cases s with
    | nil => cases member
    | cons b rest =>
      rw [chunksFrom] at member
      split at member
      case isTrue low =>
        rcases mem_cons.mp member with rfl | later
        · exact low
        · exact ih rest c later
      case isFalse high =>
        split at member
        case h_1 =>
          rcases mem_cons.mp member with rfl | later
          · trivial
          · exact ih rest c later
        case h_2 multi =>
          rcases mem_cons.mp member with rfl | later
          · obtain ⟨size, two, fixes⟩ := charLength_take rfl multi
            refine ⟨?_, by omega, fun more => (fixes more).trans size.symm⟩
            obtain ⟨n, length⟩ := exists_eq_succ_of_ne_zero multi
            rw [length]
            simpa using high
          · exact ih _ c later

theorem flatMap_chunksFrom (fuel : Nat) : ∀ s : Bytes, s.length ≤ fuel →
    (chunksFrom fuel s).flatMap Chunk.raw = s := by
  induction fuel with
  | zero =>
    intro s short
    rw [length_eq_zero_iff.mp (le_zero.mp short)]
    rfl
  | succ fuel ih =>
    intro s short
    cases s with
    | nil => rfl
    | cons b rest =>
      rw [length_cons] at short
      rw [chunksFrom]
      split
      case isTrue => simp [Chunk.raw, ih rest (by omega)]
      case isFalse =>
        split
        case h_1 => simp [Chunk.raw, ih rest (by omega)]
        case h_2 multi =>
          have short' : ((b :: rest).drop (charLength (b :: rest))).length ≤ fuel := by
            have positive := pos_of_ne_zero multi
            rw [length_drop, length_cons]
            omega
          rw [flatMap_cons, ih _ short', Chunk.raw, take_append_drop]

theorem fix_of_valid (utf8 : valid s = true) : fix s = s := by
  have same : ∀ c ∈ chunks s, c.fixed = c.raw := by
    intro c member
    have kept := all_eq_true.mp utf8 c member
    cases c with
    | stray b => cases kept
    | ascii b | char bytes => rfl
  have raw := flatMap_chunksFrom s.length s le_rfl
  rw [fix, flatMap_congr same]
  exact raw

theorem length_raw_le (cs : List Chunk) :
    (cs.flatMap Chunk.raw).length ≤ (cs.flatMap Chunk.fixed).length := by
  induction cs with
  | nil => rfl
  | cons c cs ih =>
    simp only [flatMap_cons, length_append]
    cases c with
    | ascii b | char bytes => exact Nat.add_le_add_left ih _
    | stray b =>
      simp only [Chunk.raw, Chunk.fixed, replacement, length_cons]
      omega

/-- Replacing a stray byte makes a text longer, so a text that is not changed has none. -/
theorem valid_of_fix (same : fix s = s) : valid s = true := by
  have short : ∀ cs : List Chunk,
      (cs.flatMap Chunk.fixed).length ≤ (cs.flatMap Chunk.raw).length →
      ∀ b, Chunk.stray b ∉ cs := by
    intro cs
    induction cs with
    | nil => intro _ b inside; cases inside
    | cons c cs ih =>
      intro short b inside
      have rest := length_raw_le cs
      rw [flatMap_cons, flatMap_cons, length_append, length_append] at short
      have more : c.raw.length ≤ c.fixed.length := by
        cases c with
        | stray b => exact le_add_left 1 2
        | ascii b | char bytes => exact le_rfl
      rcases mem_cons.mp inside with rfl | later
      · simp only [Chunk.raw, Chunk.fixed, replacement, length_cons] at short
        omega
      · exact ih (by omega) b later
  have raw : (chunks s).flatMap Chunk.raw = s := flatMap_chunksFrom s.length s le_rfl
  have none : ∀ b, Chunk.stray b ∉ chunks s := by
    apply short
    rw [raw]
    exact (congrArg List.length same).le
  refine all_eq_true.mpr fun c inside => ?_
  cases c with
  | stray b => exact absurd inside (none b)
  | ascii b | char bytes => rfl

theorem stray_high {fuel : Nat} : ∀ {s : Bytes} {b : UInt8},
    Chunk.stray b ∈ chunksFrom fuel s → ¬b < 0x80 := by
  induction fuel with
  | zero => intro s b inside; cases inside
  | succ fuel ih =>
    intro s b inside
    cases s with
    | nil => cases inside
    | cons first rest =>
      rw [chunksFrom] at inside
      split at inside
      case isTrue =>
        rcases mem_cons.mp inside with same | later
        · cases same
        · exact ih later
      case isFalse high =>
        split at inside
        case h_1 =>
          rcases mem_cons.mp inside with same | later
          · cases same
            exact high
          · exact ih later
        case h_2 =>
          rcases mem_cons.mp inside with same | later
          · cases same
          · exact ih later

/-- Replacing stray bytes leaves every ASCII byte where it is. -/
theorem count_fix (low : c < 0x80) (s : Bytes) : (fix s).count c = s.count c := by
  have raw : (chunks s).flatMap Chunk.raw = s := flatMap_chunksFrom s.length s le_rfl
  have each : ∀ k ∈ chunks s, k.fixed.count c = k.raw.count c := by
    intro k inside
    cases k with
    | ascii b | char bytes => rfl
    | stray b =>
      have other : b ≠ c := fun same => stray_high inside (same ▸ low)
      have high : ∀ r ∈ replacement, ¬r < 0x80 := by decide +kernel
      have absent : (Chunk.stray b).fixed.count c = 0 :=
        count_eq_zero.mpr fun inside => high c inside low
      rw [absent]
      exact (count_eq_zero.mpr fun inside => other (mem_singleton.mp inside).symm).symm
  rw [fix, count_flatMap]
  conv_rhs => rw [← raw, count_flatMap]
  exact congrArg sum (map_congr_left each)

/-- A text that is ASCII once its stray bytes are replaced has none. -/
theorem fix_of_low (low : ∀ c ∈ fix s, c < 0x80) : fix s = s := by
  refine fix_of_valid (all_eq_true.mpr fun k inside => ?_)
  cases k with
  | stray b =>
    have there : (0xEF : UInt8) ∈ fix s :=
      mem_flatMap.mpr ⟨.stray b, inside, mem_cons_self⟩
    exact absurd (low _ there) (by decide)
  | ascii b | char bytes => rfl

/-- The escapes that the library writes for ASCII bytes. -/
theorem hex4_digits (small : n < 0x80) :
    hex4 48 48 (digitByte (n / 16)) (digitByte (n % 16)) = some n := by
  interval_cases n <;> rfl

theorem readChar_quoted {c : Chunk} (good : c.Good) (rest : Bytes) :
    (c.quoted ++ rest).head? ≠ some 34 ∧ readChar (c.quoted ++ rest) = some (c.fixed, rest) := by
  have escaped : some (92 : UInt8) ≠ some 34 := by decide
  cases c with
  | stray b => exact ⟨escaped, rfl⟩
  | char bytes =>
    obtain ⟨high, two, length⟩ := good
    rw [Chunk.quoted]
    iterate 2
      split
      case isTrue same =>
        subst same
        exact ⟨escaped, rfl⟩
    cases bytes with
    | nil => simp at two
    | cons b more =>
      have above : 0x80 ≤ b := by simpa using high
      have size := length rest
      have apart : b ≠ 92 ∧ b ≠ 34 ∧ ¬ b < 32 ∧ ¬ b < 0x80 := by
        refine ⟨?_, ?_, ?_, ?_⟩
        · rintro rfl; exact absurd above (by decide)
        · rintro rfl; exact absurd above (by decide)
        · exact fun less => absurd (UInt8.lt_of_le_of_lt above less) (by decide)
        · exact fun less => absurd (UInt8.lt_of_le_of_lt above less) (by decide)
      obtain ⟨slash, mark, control, ascii⟩ := apart
      refine ⟨by simpa using mark, ?_⟩
      rw [cons_append] at size ⊢
      rw [readChar, if_neg slash, if_neg control, if_neg ascii, size]
      simp [Chunk.fixed, Chunk.raw]
  | ascii b =>
    have low : b.toNat < 0x80 := good
    rw [Chunk.quoted]
    split
    case isTrue special =>
      rcases special with rfl | rfl <;> exact ⟨escaped, rfl⟩
    iterate 5
      split
      case isTrue same => subst same; exact ⟨escaped, rfl⟩
    case isFalse plain _ _ _ _ _ =>
      split
      case isTrue =>
        refine ⟨escaped, ?_⟩
        have unicode : ¬ (0xD800 ≤ b.toNat ∧ b.toNat < 0xDC00) ∧
            ¬ (0xDC00 ≤ b.toNat ∧ b.toNat < 0xE000) := by omega
        change readEscape (117 :: 48 :: 48 :: digitByte (b.toNat / 16) :: digitByte (b.toNat % 16) ::
          rest) = _
        rw [readEscape, hex4_digits low, Option.map_some, if_neg unicode.1, if_neg unicode.2,
          encodeRune, if_pos low, UInt8.ofNat_toNat]
        rfl
      case isFalse printable =>
        have mark : b ≠ 34 ∧ b ≠ 92 := by simpa using plain
        have control : ¬ b < 32 := fun less => printable (.inl less)
        refine ⟨by simpa using mark.1, ?_⟩
        change readChar (b :: rest) = _
        rw [readChar, if_neg mark.2, if_neg control, if_pos (show b < 0x80 from good)]
        rfl

theorem unquote_quoted (cs : List Chunk) (rest : Bytes) : ∀ fuel, (∀ c ∈ cs, c.Good) →
    cs.length < fuel →
    unquote fuel (cs.flatMap Chunk.quoted ++ 34 :: rest) = some (cs.flatMap Chunk.fixed, rest) := by
  induction cs with
  | nil =>
    intro fuel _ enough
    obtain ⟨fuel, rfl⟩ := exists_eq_succ_of_ne_zero (ne_zero_of_lt enough)
    rfl
  | cons c cs ih =>
    intro fuel good enough
    obtain ⟨fuel, rfl⟩ := exists_eq_succ_of_ne_zero (ne_zero_of_lt enough)
    rw [flatMap_cons, append_assoc]
    obtain ⟨open_, char⟩ := readChar_quoted (good c mem_cons_self)
      (cs.flatMap Chunk.quoted ++ 34 :: rest)
    have more := ih fuel (fun c member => good c (mem_cons_of_mem _ member))
      (lt_of_succ_lt_succ enough)
    rw [unquote, if_neg open_]
    simp [char, more]

theorem quoted_ne_nil (c : Chunk) (good : c.Good) : c.quoted ≠ [] := by
  cases c with
  | stray b => exact (nomatch ·)
  | ascii b =>
    rw [Chunk.quoted]
    repeat' split
    all_goals exact cons_ne_nil _ _
  | char bytes =>
    rw [Chunk.quoted]
    repeat' split
    · exact (nomatch ·)
    · exact (nomatch ·)
    · rintro rfl
      exact absurd good.2.1 (by decide)

theorem readString_quote (s rest : Bytes) : readString (quote s ++ rest) = some (fix s, rest) := by
  have good : ∀ c ∈ chunks s, c.Good := good_chunksFrom s.length s
  have short : (chunks s).length ≤ ((chunks s).flatMap Chunk.quoted).length := by
    rw [length_flatMap]
    refine length_le_sum_of_one_le _ ?_ |>.trans_eq' (by simp)
    intro n member
    obtain ⟨c, inside, rfl⟩ := mem_map.mp member
    exact length_pos_iff.mpr (quoted_ne_nil c (good c inside))
  rw [quote, cons_append, append_assoc]
  refine unquote_quoted (chunks s) rest _ good ?_
  rw [length_append]
  exact short.trans_lt (Nat.lt_add_of_pos_right (by simp))

theorem readMembers_print (m : Bytes × Bytes) (ms : List (Bytes × Bytes)) : ∀ fuel,
    ms.length < fuel → readMembers fuel (printMembers (m :: ms)) =
      some ((m :: ms).map fun m => (fix m.1, fix m.2)) := by
  induction ms generalizing m with
  | nil =>
    intro fuel enough
    obtain ⟨fuel, rfl⟩ := exists_eq_succ_of_ne_zero (ne_zero_of_lt enough)
    rw [readMembers, printMembers, printMember]
    simp [readString_quote]
  | cons m' ms ih =>
    intro fuel enough
    obtain ⟨fuel, rfl⟩ := exists_eq_succ_of_ne_zero (ne_zero_of_lt enough)
    have more := ih m' fuel (lt_of_succ_lt_succ enough)
    rw [readMembers, printMembers, printMember]
    · simp [readString_quote, more]
    · simp

theorem length_printMembers (ms : List (Bytes × Bytes)) : ms.length < (printMembers ms).length := by
  induction ms using printMembers.induct with
  | case1 => decide
  | case2 m => simp [printMembers, printMember, quote]
  | case3 m ms nonempty ih =>
    rw [printMembers]
    · simp only [length_append, length_cons]
      omega
    · exact nonempty

theorem readObject_print (ms : List (Bytes × Bytes)) :
    readObject (printObject ms) = some (ms.map fun m => (fix m.1, fix m.2)) := by
  cases ms with
  | nil => rfl
  | cons m ms =>
    have long : printMembers (m :: ms) ≠ [125] := by
      intro same
      have size := length_printMembers (m :: ms)
      rw [same] at size
      simp at size
    rw [printObject, readObject, if_neg long]
    refine readMembers_print m ms _ ?_
    have size := length_printMembers (m :: ms)
    rw [length_cons] at size
    omega

/-! ## Texts of whole characters -/

/-- A chunk that is no stray byte. -/
def Chunk.Clean (c : Chunk) : Prop := c.Good ∧ ∀ b, c ≠ .stray b

theorem chunksFrom_raw (clean : ∀ c ∈ cs, c.Clean) : ∀ fuel,
    (cs.flatMap Chunk.raw).length ≤ fuel → chunksFrom fuel (cs.flatMap Chunk.raw) = cs := by
  induction cs with
  | nil =>
    intro fuel _
    cases fuel with
    | zero | succ fuel => rfl
  | cons c cs ih =>
    intro fuel size
    have rest := ih fun k inside => clean k (mem_cons_of_mem c inside)
    obtain ⟨good, strays⟩ := clean c mem_cons_self
    rw [flatMap_cons, length_append] at size
    rw [flatMap_cons]
    cases c with
    | stray b => exact absurd rfl (strays b)
    | ascii b =>
      have low : b < 0x80 := good
      cases fuel with
      | zero => simp [Chunk.raw] at size
      | succ fuel =>
        simp only [Chunk.raw, length_singleton] at size
        simp only [Chunk.raw, singleton_append, chunksFrom, if_pos low]
        rw [rest fuel (by omega)]
    | char bytes =>
      obtain ⟨high, two, whole⟩ := good
      simp only [Chunk.raw] at size ⊢
      cases bytes with
      | nil => simp at two
      | cons b tail =>
        have above : ¬b < 0x80 := by simpa using high
        have length := whole (cs.flatMap Chunk.raw)
        cases fuel with
        | zero => simp at size
        | succ fuel =>
          rw [cons_append] at length ⊢
          rw [chunksFrom, if_neg above, length]
          have positive : (b :: tail).length ≠ 0 := by simp
          split
          · rename_i zero
            exact absurd zero positive
          · rw [← cons_append, take_left, drop_left, rest fuel (by simp at size ⊢; omega)]

/-- A text put together from whole characters is UTF-8. -/
theorem valid_raw (clean : ∀ c ∈ cs, c.Clean) : valid (cs.flatMap Chunk.raw) = true := by
  rw [valid, chunks, chunksFrom_raw clean _ le_rfl]
  refine all_eq_true.mpr fun c inside => ?_
  cases c with
  | stray b => exact absurd rfl ((clean _ inside).2 b)
  | ascii b | char bytes => rfl

/-- Texts that are whole characters one after the other. -/
def Whole (s : Bytes) : Prop := ∃ cs : List Chunk, (∀ c ∈ cs, c.Clean) ∧ s = cs.flatMap Chunk.raw

theorem Whole.valid (whole : Whole s) : valid s = true := by
  obtain ⟨cs, clean, rfl⟩ := whole
  exact valid_raw clean

theorem Whole.append (left : Whole s) (right : Whole t) : Whole (s ++ t) := by
  obtain ⟨cs, clean, rfl⟩ := left
  obtain ⟨ds, clean', rfl⟩ := right
  refine ⟨cs ++ ds, fun c inside => ?_, flatMap_append.symm⟩
  rcases mem_append.mp inside with inside | inside
  · exact clean c inside
  · exact clean' c inside

theorem whole_of_low (low : ∀ c ∈ s, c < 0x80) : Whole s := by
  refine ⟨s.map .ascii, fun c inside => ?_, ?_⟩
  · obtain ⟨b, there, rfl⟩ := mem_map.mp inside
    exact ⟨low b there, fun _ => nofun⟩
  · rw [flatMap_map]
    exact (flatMap_singleton' s).symm

theorem valid_of_ascii (plain : ∀ c ∈ s, c < 0x80) : valid s = true := (whole_of_low plain).valid

theorem whole_cons {b : UInt8} (low : b < 0x80) (rest : Whole s) : Whole (b :: s) :=
  (whole_of_low fun c inside => by rwa [mem_singleton.mp inside]).append rest

theorem whole_flatMap {α : Type} {f : α → Bytes} {l : List α} (each : ∀ a ∈ l, Whole (f a)) :
    Whole (l.flatMap f) := by
  induction l with
  | nil => exact ⟨[], fun c inside => (not_mem_nil inside).elim, rfl⟩
  | cons a l ih =>
    exact (each a mem_cons_self).append (ih fun b inside => each b (mem_cons_of_mem a inside))

theorem digitByte_low (d : Nat) (small : d < 16) : digitByte d < 0x80 := by
  revert d
  decide

theorem whole_quoted {c : Chunk} (good : c.Good) : Whole c.quoted := by
  cases c with
  | stray b =>
    have low : ∀ c ∈ (Chunk.stray 0).quoted, c < 0x80 := by decide +kernel
    exact whole_of_low low
  | char bytes =>
    rw [Chunk.quoted]
    split
    · exact whole_of_low (by decide +kernel)
    · split
      · exact whole_of_low (by decide +kernel)
      · exact ⟨[.char bytes], fun c inside => by
          rw [mem_singleton.mp inside]; exact ⟨good, fun _ => nofun⟩, by simp [Chunk.raw]⟩
  | ascii b =>
    have low : b < 0x80 := good
    have small : b.toNat < 128 := low
    have high := digitByte_low (b.toNat / 16) (by omega)
    have rest := digitByte_low (b.toNat % 16) (by omega)
    apply whole_of_low
    simp only [Chunk.quoted]
    split_ifs <;> simp_all

theorem whole_quote (s : Bytes) : Whole (quote s) := by
  refine whole_cons (by decide +kernel) (Whole.append ?_ (whole_of_low (by decide +kernel)))
  exact whole_flatMap fun c inside => whole_quoted (good_chunksFrom _ s c inside)

/-- Whatever the values of an object are, its text is UTF-8. -/
theorem whole_printMembers (ms : List (Bytes × Bytes)) : Whole (printMembers ms) := by
  have member : ∀ m : Bytes × Bytes, Whole (printMember m) := fun m =>
    (whole_quote m.1).append (whole_cons (by decide +kernel) (whole_quote m.2))
  induction ms using printMembers.induct with
  | case1 => exact whole_of_low (by decide +kernel)
  | case2 m => exact (member m).append (whole_of_low (by decide +kernel))
  | case3 m ms nonempty ih =>
    rw [printMembers]
    · exact (member m).append (whole_cons (by decide +kernel) ih)
    · exact nonempty

theorem valid_printObject (ms : List (Bytes × Bytes)) : valid (printObject ms) = true :=
  (whole_cons (by decide) (whole_printMembers ms)).valid

theorem whole_of_valid (utf8 : Json.valid s = true) : Whole s := by
  refine ⟨chunks s, fun c inside => ⟨good_chunksFrom _ s c inside, ?_⟩,
    (flatMap_chunksFrom _ s le_rfl).symm⟩
  rintro b rfl
  exact nomatch all_eq_true.mp utf8 _ inside

/-- A byte of ASCII parts the characters before it from those after it. -/
theorem Whole.split (low : c < 0x80) (whole : Whole (s ++ c :: t)) : Whole s ∧ Whole t := by
  obtain ⟨cs, clean, same⟩ := whole
  induction cs generalizing s with
  | nil => simp at same
  | cons k cs ih =>
    have rest := fun d inside => clean d (mem_cons_of_mem k inside)
    have alone : Whole k.raw := ⟨[k], by simpa using clean k mem_cons_self, by simp⟩
    rcases append_eq_append_iff.mp same with ⟨e, raw, later⟩ | ⟨e, rfl, later⟩
    · cases e with
      | nil =>
        rw [append_nil] at raw
        exact ⟨raw ▸ alone, (ih (s := []) rest later).2⟩
      | cons d e =>
        obtain ⟨rfl, rfl⟩ := cons_eq_cons.mp later
        cases k with
        | stray b => exact absurd rfl ((clean _ mem_cons_self).2 b)
        | ascii b =>
          obtain ⟨rfl, rfl⟩ : s = [] ∧ e = [] := by
            have size := congrArg List.length raw
            simp only [Chunk.raw, length_append, length_cons, length_nil] at size
            constructor <;> exact length_eq_zero_iff.mp (by omega)
          exact ⟨⟨[], nofun, rfl⟩, cs, rest, rfl⟩
        | char bytes =>
          have inside : c ∈ bytes := by
            rw [show bytes = s ++ c :: e from raw]
            simp
          exact absurd low (UInt8.not_lt.mpr ((clean _ mem_cons_self).1.high c inside))
    · have both := ih rest later.symm
      exact ⟨alone.append both.1, both.2⟩

theorem whole_split (low : c < 0x80) : Whole (s ++ c :: t) ↔ Whole s ∧ Whole t :=
  ⟨Whole.split low, fun both => both.1.append (whole_cons low both.2)⟩

/-- Bytes of ASCII in front of a text or behind it do not matter. -/
theorem whole_low_append (low : ∀ c ∈ s, c < 0x80) : Whole (s ++ t) ↔ Whole t := by
  induction s with
  | nil => rfl
  | cons c s ih =>
    rw [forall_mem_cons] at low
    exact ((whole_split low.1).trans (and_iff_right ⟨[], nofun, rfl⟩)).trans (ih low.2)

theorem whole_append_low (low : ∀ c ∈ t, c < 0x80) : Whole (s ++ t) ↔ Whole s := by
  cases t with
  | nil => rw [append_nil]
  | cons c t =>
    rw [forall_mem_cons] at low
    exact (whole_split low.1).trans (and_iff_left (whole_of_low low.2))

theorem Whole.trimSpace (whole : Whole s) : Whole (trimSpace s) := by
  have low : ∀ c, isSpace c = true → c < 0x80 := forall_byte (by decide +kernel)
  have front : Whole (s.dropWhile isSpace) := by
    induction s with
    | nil => exact whole
    | cons c s ih =>
      rw [dropWhile_cons]
      split
      · rename_i space
        exact ih (Whole.split (s := []) (low c space) whole).2
      · exact whole
  rw [Lib.trimSpace]
  generalize s.dropWhile isSpace = t at front
  induction t using reverseRecOn with
  | nil => exact front
  | append_singleton t c ih =>
    rw [rdropWhile_concat]
    split
    · rename_i space
      exact ih (front.split (low c space)).1
    · exact front

end Sora.Lib.Json
