import Mathlib.Data.List.DropRight
import Mathlib.Data.Nat.Digits.Lemmas

/-!
# Byte strings and positional numerals

A byte string is a list of bytes; `ascii` writes one from a literal.  The second
half is the codec of unsigned numerals in a base of at most sixteen: `numeral`
prints without leading zeros, `numValue` reads back, and `numValue_numeral` says
that the two compose to the identity.
-/

namespace Sora.Lib

open List Nat

/-- A string of the modelled programs: bytes, not necessarily valid UTF-8. -/
abbrev Bytes := List UInt8

instance : LawfulBEq Bytes := inferInstance

/-- The bytes of a string literal. -/
def ascii (s : String) : Bytes := s.toByteArray.data.toList

def isSpace (c : UInt8) : Bool := c == 32 || (9 ≤ c && c ≤ 13)

/-- A property of bytes that holds for all 256 of them. -/
theorem forall_byte {P : UInt8 → Prop} [DecidablePred P]
    (all : (range 256).all fun n => P (UInt8.ofNat n)) (c : UInt8) : P c := by
  have here := all_eq_true.mp all c.toNat (mem_range.mpr c.toNat_lt)
  rwa [UInt8.ofNat_toNat, decide_eq_true_eq] at here

/-- `strings.TrimSpace`, for text without blanks outside ASCII. -/
def trimSpace (s : Bytes) : Bytes := (s.dropWhile isSpace).rdropWhile isSpace

theorem mem_dropWhile {α : Type} {p : α → Bool} {c : α} (kept : p c = false) {l : List α}
    (inside : c ∈ l) : c ∈ l.dropWhile p := by
  induction l with
  | nil => cases inside
  | cons x l ih =>
    rw [dropWhile_cons]
    split
    · rename_i dropped
      rcases mem_cons.mp inside with rfl | later
      · rw [kept] at dropped
        cases dropped
      · exact ih later
    · exact inside

variable {c : UInt8} {s : Bytes} {d : Nat}

/-- Trimming keeps every byte that is not a blank. -/
theorem mem_trimSpace (mark : isSpace c = false) (inside : c ∈ s) : c ∈ trimSpace s := by
  rw [trimSpace, rdropWhile, mem_reverse]
  apply mem_dropWhile mark
  rw [mem_reverse]
  exact mem_dropWhile mark inside

/-- A text that does not begin or end with a blank is its own trim. -/
theorem trimSpace_eq_self (first : ∀ c, s.head? = some c → isSpace c = false)
    (last : ∀ c, s.getLast? = some c → isSpace c = false) : trimSpace s = s := by
  have front : s.dropWhile isSpace = s := by
    cases s with
    | nil => rfl
    | cons c s =>
      rw [dropWhile_cons, first c rfl]
      rfl
  rw [trimSpace, front, rdropWhile_eq_self_iff]
  intro nonempty blank
  rw [last _ (getLast?_eq_some_getLast nonempty)] at blank
  cases blank

theorem head_trimSpace (mark : isSpace c = false) (first : s.head? = some c) :
    (trimSpace s).head? = some c := by
  obtain ⟨s, rfl⟩ := head?_eq_some_iff.mp first
  have front : (c :: s).dropWhile isSpace = c :: s := by
    rw [dropWhile_cons, mark]
    rfl
  rw [trimSpace, front]
  have kept : (c :: s).rdropWhile isSpace ≠ [] := by
    have inside : c ∈ trimSpace (c :: s) := mem_trimSpace mark mem_cons_self
    rw [trimSpace, front] at inside
    exact ne_nil_of_mem inside
  obtain ⟨rest, whole⟩ := rdropWhile_prefix isSpace (l := c :: s)
  cases shape : (c :: s).rdropWhile isSpace with
  | nil => exact absurd shape kept
  | cons y t =>
    rw [shape] at whole
    rw [head?_cons, (cons.inj whole).1]

/-- A trimmed text does not start with a blank. -/
theorem head_trimSpace_mark (first : (trimSpace s).head? = some c) : isSpace c = false := by
  obtain ⟨rest, whole⟩ := rdropWhile_prefix isSpace (l := s.dropWhile isSpace)
  rw [trimSpace] at first
  cases shape : (s.dropWhile isSpace).rdropWhile isSpace with
  | nil => rw [shape] at first; cases first
  | cons y t =>
    rw [shape] at first whole
    rw [head?_cons, Option.some.injEq] at first
    subst first
    have start := head?_dropWhile_not isSpace s
    rw [← whole] at start
    simpa using start

/-- A trimmed text does not end with a blank. -/
theorem getLast_trimSpace_mark (last : (trimSpace s).getLast? = some c) : isSpace c = false := by
  have full : trimSpace s ≠ [] := by
    intro empty
    rw [empty] at last
    cases last
  rw [getLast?_eq_some_getLast full, Option.some.injEq] at last
  have mark := rdropWhile_last_not isSpace (s.dropWhile isSpace) full
  rw [← last]
  exact Bool.eq_false_of_not_eq_true mark

theorem trimSpace_trimSpace (s : Bytes) : trimSpace (trimSpace s) = trimSpace s :=
  trimSpace_eq_self (fun _ => head_trimSpace_mark) fun _ => getLast_trimSpace_mark

/-! ## Digits -/

/-- The digit for `d`, lower case above nine. -/
def digitByte (d : Nat) : UInt8 := UInt8.ofNat (if d < 10 then 48 + d else 87 + d)

/-- The value of a hexadecimal digit of either case. -/
def digitValue (c : UInt8) : Option Nat :=
  if 48 ≤ c ∧ c ≤ 57 then some (c.toNat - 48)
  else if 97 ≤ c ∧ c ≤ 102 then some (c.toNat - 87)
  else if 65 ≤ c ∧ c ≤ 70 then some (c.toNat - 55)
  else none

/-- `c` is a digit of the given base. -/
def isDigit (base : Nat) (c : UInt8) : Bool := (digitValue c).any (· < base)

theorem digitValue_digitByte (small : d < 16) : digitValue (digitByte d) = some d := by
  interval_cases d <;> decide

theorem isDigit_digitByte {base : Nat} (small : d < base) (bound : base ≤ 16) :
    isDigit base (digitByte d) = true := by
  rw [isDigit, digitValue_digitByte (small.trans_le bound)]
  simpa using small

theorem digitByte_eq_zero (small : d < 16) (zero : digitByte d = 48) : d = 0 := by
  interval_cases d <;> first | rfl | (exact absurd zero (by decide))

/-! ## Numerals -/

/-- The numeral of `n`, most significant digit first and without leading zeros. -/
def numeral (base n : Nat) : Bytes :=
  if n = 0 then [48] else (Nat.digits base n).reverse.map digitByte

/-- The value of a digit string. -/
def numValue (base : Nat) (s : Bytes) : Nat :=
  s.foldl (fun acc c => acc * base + (digitValue c).getD 0) 0

section Numerals

variable {base n : Nat}

theorem numeral_ne_nil : numeral base n ≠ [] := by
  unfold numeral
  split
  · exact cons_ne_nil _ _
  · rename_i nonzero
    simpa only [ne_eq, map_eq_nil_iff, reverse_eq_nil_iff] using
      digits_ne_nil_iff_ne_zero.mpr nonzero

theorem isDigit_of_mem_numeral (lower : 1 < base) (upper : base ≤ 16) :
    ∀ c ∈ numeral base n, isDigit base c = true := by
  intro c member
  unfold numeral at member
  split at member
  · obtain rfl := mem_singleton.mp member
    exact isDigit_digitByte (d := 0) (by omega) upper
  · obtain ⟨d, digit, rfl⟩ := mem_map.mp member
    exact isDigit_digitByte (digits_lt_base lower (mem_reverse.mp digit)) upper

theorem notMem_numeral (lower : 1 < base) (upper : base ≤ 16) (other : isDigit base c = false) :
    c ∉ numeral base n := by
  intro member
  rw [isDigit_of_mem_numeral lower upper c member] at other
  cases other

/-- Reading a printed numeral gives the number back. -/
theorem numValue_numeral (lower : 1 < base) (upper : base ≤ 16) :
    numValue base (numeral base n) = n := by
  unfold numeral
  split
  · rename_i zero
    subst zero
    simp [numValue, digitValue]
  · -- on digits below sixteen the byte codec cancels, leaving `Nat.ofDigits`
    have codec : ∀ (ds : List Nat), (∀ d ∈ ds, d < 16) →
        numValue base (ds.reverse.map digitByte) = ofDigits base ds := by
      intro ds small
      rw [numValue, map_reverse, foldl_reverse, ofDigits_eq_foldr]
      induction ds with
      | nil => rfl
      | cons d ds ih =>
        have tail := ih fun x member => small x (mem_cons_of_mem _ member)
        simp only [map_cons, foldr_cons, tail,
          digitValue_digitByte (small d mem_cons_self), Option.getD_some]
        simp only [cast_id]
        ring
    rw [codec _ fun d member => (digits_lt_base lower member).trans_le upper]
    exact ofDigits_digits base n

theorem numeral_injective : Function.Injective (numeral 10) := by
  intro i j same
  have value := congrArg (numValue 10) same
  rwa [numValue_numeral (by decide) (by decide), numValue_numeral (by decide) (by decide)] at value

/-- A number below `base ^ k` needs at most `k` digits. -/
theorem numeral_length_le {k : Nat} (lower : 1 < base) (positive : 0 < k)
    (bound : n < base ^ k) : (numeral base n).length ≤ k := by
  unfold numeral
  split
  · exact positive
  · simp only [length_map, length_reverse]
    exact (digits_length_le_iff lower n).mpr bound

/-- A positive number is printed without a leading zero. -/
theorem head_numeral_ne_zero (lower : 1 < base) (upper : base ≤ 16) (positive : n ≠ 0) :
    (numeral base n).head? ≠ some 48 := by
  unfold numeral
  rw [if_neg positive]
  intro leading
  rw [head?_map, head?_reverse] at leading
  obtain ⟨d, last, zero⟩ := Option.map_eq_some_iff.mp leading
  have member : d ∈ digits base n := mem_of_getLast? last
  have isZero := digitByte_eq_zero ((digits_lt_base lower member).trans_le upper) zero
  have nonempty : digits base n ≠ [] := digits_ne_nil_iff_ne_zero.mpr positive
  apply getLast_digit_ne_zero base positive
  rw [getLast?_eq_getLast_of_ne_nil nonempty] at last
  exact (Option.some.inj last).trans isZero

end Numerals

end Sora.Lib
