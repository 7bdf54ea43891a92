import Sora.Lib.Json

/-!
# JSON values

Values of any nesting.  A number is kept as its literal.  The reader skips blanks between the
tokens, the printer writes none; reading what is printed (`parse_print`) gives the value with
the stray bytes of its strings replaced (`Value.fixed`).
-/

namespace Sora.Lib.Json

open List

inductive Value where
  | null
  | bool (b : Bool)
  | number (literal : Bytes)
  | string (s : Bytes)
  | array (vs : List Value)
  | object (ms : List (Bytes × Value))

/-! ## Printing -/

mutual

def Value.print : Value → Bytes
  | .null => ascii "null"
  | .bool true => ascii "true"
  | .bool false => ascii "false"
  | .number literal => literal
  | .string s => quote s
  | .array vs => 91 :: printItems vs
  | .object ms => 123 :: printFields ms

/-- The items of an array and its closing bracket. -/
def printItems : List Value → Bytes
  | [] => [93]
  | [v] => v.print ++ [93]
  | v :: vs => v.print ++ 44 :: printItems vs

/-- The members of an object and its closing brace. -/
def printFields : List (Bytes × Value) → Bytes
  | [] => [125]
  | [(key, v)] => quote key ++ 58 :: (v.print ++ [125])
  | (key, v) :: ms => quote key ++ 58 :: (v.print ++ 44 :: printFields ms)

end

/-! ## Numbers -/

def numberByte (c : UInt8) : Bool :=
  isDigit 10 c || c == 43 || c == 45 || c == 46 || c == 69 || c == 101

/-- One or more digits and nothing else. -/
def isDigits (s : Bytes) : Bool := !s.isEmpty && s.all (isDigit 10)

/-- What may follow the fraction: an exponent. -/
def isExponent : Bytes → Bool
  | [] => true
  | c :: rest =>
    (c == 69 || c == 101) &&
      isDigits (if rest.head? = some 43 ∨ rest.head? = some 45 then rest.tail else rest)

/-- What may follow the integer part. -/
def isFraction : Bytes → Bool
  | 46 :: rest =>
    !(rest.takeWhile (isDigit 10)).isEmpty && isExponent (rest.dropWhile (isDigit 10))
  | s => isExponent s

def isNumber (s : Bytes) : Bool :=
  match if s.head? = some 45 then s.tail else s with
  | [] => false
  | c :: rest =>
    if c = 48 then isFraction rest
    else isDigit 10 c && isFraction (rest.dropWhile (isDigit 10))

def intLiteral (n : Int) : Bytes :=
  if n < 0 then 45 :: numeral 10 n.natAbs else numeral 10 n.natAbs

def Value.int (n : Int) : Value := .number (intLiteral n)

/-- The integer of a literal without fraction and exponent. -/
def readInt (s : Bytes) : Option Int :=
  if s.head? = some 45 then
    if isDigits s.tail then some (-(numValue 10 s.tail : Int)) else none
  else if isDigits s then some (numValue 10 s)
  else none

/-! ## Reading -/

def isBlank (c : UInt8) : Bool := c == 32 || c == 9 || c == 10 || c == 13

def skip (s : Bytes) : Bytes := s.dropWhile isBlank

/-- The rest of a keyword. -/
def expect (word : Bytes) (v : Value) (s : Bytes) : Option (Value × Bytes) :=
  if s.take word.length = word then some (v, s.drop word.length) else none

def readNumeral (s : Bytes) : Option (Value × Bytes) :=
  let literal := s.takeWhile numberByte
  if isNumber literal then some (.number literal, s.dropWhile numberByte) else none

mutual

def readValue : Nat → Bytes → Option (Value × Bytes)
  | 0, _ => none
  | fuel + 1, s =>
    match skip s with
    | [] => none
    | c :: rest =>
      if c = 34 then (unquote rest.length rest).map fun p => (.string p.1, p.2)
      else if c = 91 then
        if (skip rest).head? = some 93 then some (.array [], (skip rest).tail)
        else (readItems fuel rest).map fun p => (.array p.1, p.2)
      else if c = 123 then
        if (skip rest).head? = some 125 then some (.object [], (skip rest).tail)
        else (readFields fuel rest).map fun p => (.object p.1, p.2)
      else if c = 110 then expect (ascii "ull") .null rest
      else if c = 116 then expect (ascii "rue") (.bool true) rest
      else if c = 102 then expect (ascii "alse") (.bool false) rest
      else readNumeral (c :: rest)

def readItems : Nat → Bytes → Option (List Value × Bytes)
  | 0, _ => none
  | fuel + 1, s => do
    let (v, s) ← readValue fuel s
    match skip s with
    | 44 :: s =>
      let (vs, s) ← readItems fuel s
      some (v :: vs, s)
    | 93 :: s => some ([v], s)
    | _ => none

def readFields : Nat → Bytes → Option (List (Bytes × Value) × Bytes)
  | 0, _ => none
  | fuel + 1, s => do
    let (key, s) ← readString (skip s)
    match skip s with
    | 58 :: s =>
      let (v, s) ← readValue fuel s
      match skip s with
      | 44 :: s =>
        let (ms, s) ← readFields fuel s
        some ((key, v) :: ms, s)
      | 125 :: s => some ([(key, v)], s)
      | _ => none
    | _ => none

end

/-- The value of a whole text. -/
def parse (s : Bytes) : Option Value := do
  let (v, rest) ← readValue (s.length + 1) s
  if skip rest = [] then some v else none

/-! ## What is read back -/

mutual

def Value.fixed : Value → Value
  | .null => .null
  | .bool b => .bool b
  | .number literal => .number literal
  | .string s => .string (fix s)
  | .array vs => .array (fixedItems vs)
  | .object ms => .object (fixedFields ms)

def fixedItems : List Value → List Value
  | [] => []
  | v :: vs => v.fixed :: fixedItems vs

def fixedFields : List (Bytes × Value) → List (Bytes × Value)
  | [] => []
  | (key, v) :: ms => (fix key, v.fixed) :: fixedFields ms

end

mutual

/-- Every number of the value is one. -/
def Value.sound : Value → Bool
  | .number literal => isNumber literal && literal.all numberByte
  | .array vs => soundItems vs
  | .object ms => soundFields ms
  | _ => true

def soundItems : List Value → Bool
  | [] => true
  | v :: vs => v.sound && soundItems vs

def soundFields : List (Bytes × Value) → Bool
  | [] => true
  | (_, v) :: ms => v.sound && soundFields ms

end

variable {c : UInt8} {v : Value}

theorem skip_cons {s : Bytes} (mark : isBlank c = false) : skip (c :: s) = c :: s := by
  simp [skip, mark]

/-- The bytes of numbers are neither blanks nor closing brackets. -/
theorem numberByte_mark : ∀ c, numberByte c = true → isBlank c = false ∧ c ≠ 93 ∧ c ≠ 125 :=
  forall_byte (by decide +kernel)

/-- A number begins with none of the bytes that begin another value. -/
theorem numberByte_first : ∀ c, numberByte c = true →
    c ≠ 34 ∧ c ≠ 91 ∧ c ≠ 123 ∧ c ≠ 110 ∧ c ≠ 116 ∧ c ≠ 102 := forall_byte (by decide +kernel)

theorem sound_number_iff {literal : Bytes} : (Value.number literal).sound = true ↔
    isNumber literal = true ∧ ∀ c ∈ literal, numberByte c = true := by
  simp [Value.sound]

/-- A printed value begins with a byte that is neither blank nor a closing bracket. -/
theorem Value.print_head (sound : v.sound = true) :
    ∃ c s, v.print = c :: s ∧ isBlank c = false ∧ c ≠ 93 ∧ c ≠ 125 := by
  cases v with
  | null => exact ⟨110, ascii "ull", by decide, by decide, by decide, by decide⟩
  | bool b =>
    cases b
    · exact ⟨102, ascii "alse", by decide, by decide, by decide, by decide⟩
    · exact ⟨116, ascii "rue", by decide, by decide, by decide, by decide⟩
  | string s => exact ⟨34, _, rfl, by decide, by decide, by decide⟩
  | array vs => exact ⟨91, printItems vs, by rw [Value.print], by decide, by decide, by decide⟩
  | object ms => exact ⟨123, printFields ms, by rw [Value.print], by decide, by decide, by decide⟩
  | number literal =>
    obtain ⟨numeral, bytes⟩ := sound_number_iff.mp sound
    cases literal with
    | nil => exact absurd numeral (by decide)
    | cons c s => exact ⟨c, s, by rw [Value.print], numberByte_mark c (bytes c mem_cons_self)⟩

theorem skip_print (sound : v.sound = true) (rest : Bytes) :
    skip (v.print ++ rest) = v.print ++ rest := by
  obtain ⟨c, s, print, blank, -⟩ := v.print_head sound
  rw [print, cons_append, skip_cons blank]

theorem readNumeral_print {literal rest : Bytes} (sound : (Value.number literal).sound = true)
    (stop : ∀ c, rest.head? = some c → numberByte c = false) :
    readNumeral (literal ++ rest) = some (.number literal, rest) := by
  obtain ⟨numeral, bytes⟩ := sound_number_iff.mp sound
  have ends : rest.takeWhile numberByte = [] ∧ rest.dropWhile numberByte = rest := by
    cases rest with
    | nil => exact ⟨rfl, rfl⟩
    | cons c rest => simp [stop c rfl]
  rw [readNumeral, takeWhile_append_of_pos bytes, dropWhile_append_of_pos bytes, ends.1, ends.2]
  simp [numeral]

/-- What follows a value inside an array or an object is no part of a number. -/
theorem stop_of_mark (mark : c ∈ [44, 93, 125]) (rest : Bytes) :
    ∀ c', (c :: rest).head? = some c' → numberByte c' = false := by
  rintro c' ⟨⟩
  simp only [mem_cons, not_mem_nil, or_false] at mark
  rcases mark with rfl | rfl | rfl <;> rfl

theorem printItems_cons (v w : Value) (vs : List Value) :
    printItems (v :: w :: vs) = v.print ++ 44 :: printItems (w :: vs) := by
  rw [printItems]
  nofun

theorem printFields_cons (key : Bytes) (v : Value) (m : Bytes × Value) (ms : List (Bytes × Value)) :
    printFields ((key, v) :: m :: ms) =
      quote key ++ 58 :: (v.print ++ 44 :: printFields (m :: ms)) := by
  rw [printFields]
  nofun

theorem readString_skip_quote (s rest : Bytes) :
    readString (skip (quote s ++ rest)) = some (fix s, rest) := by
  exact readString_quote s rest

/-- The first item begins with no closing bracket. -/
theorem head_skip_print (sound : v.sound = true) (rest : Bytes) :
    (skip (v.print ++ rest)).head? ≠ some 93 := by
  obtain ⟨c, s, print, blank, open_, -⟩ := v.print_head sound
  rw [print, cons_append, skip_cons blank]
  simpa using open_

theorem print_length_pos (sound : v.sound = true) : 0 < v.print.length := by
  obtain ⟨c, s, print, -⟩ := v.print_head sound
  rw [print]
  exact Nat.succ_pos _

-- Every call of the readers passes on one unit of fuel less, and every printed value has a byte.
mutual

theorem readValue_print (v : Value) (rest : Bytes) (fuel : Nat) (sound : v.sound = true)
    (stop : ∀ c, rest.head? = some c → numberByte c = false)
    (enough : v.print.length ≤ fuel) :
    readValue fuel (v.print ++ rest) = some (v.fixed, rest) := by
  obtain ⟨fuel, rfl⟩ : ∃ n, fuel = n + 1 :=
    Nat.exists_eq_succ_of_ne_zero ((print_length_pos sound).trans_le enough).ne'
  rw [readValue, skip_print sound]
  match v with
  | .null | .bool true | .bool false => rfl
  | .string s =>
    have read := readString_quote s rest
    rw [quote, cons_append, readString] at read
    rw [Value.print, quote, cons_append]
    simp only [if_true, read, Option.map_some, Value.fixed]
  | .number literal =>
    have read := readNumeral_print sound stop
    obtain ⟨-, bytes⟩ := sound_number_iff.mp sound
    cases literal with
    | nil => exact absurd sound (by decide)
    | cons c s =>
      obtain ⟨h₁, h₂, h₃, h₄, h₅, h₆⟩ := numberByte_first c (bytes c mem_cons_self)
      rw [Value.print, cons_append]
      simp only [h₁, h₂, h₃, h₄, h₅, h₆, if_false]
      rw [← cons_append, read, Value.fixed]
  | .array [] | .object [] => rfl
  | .array (v :: vs) =>
    have sound : soundItems (v :: vs) = true := by simpa only [Value.sound] using sound
    have first : v.sound = true := by
      rw [soundItems, Bool.and_eq_true] at sound
      exact sound.1
    have enough : (printItems (v :: vs)).length ≤ fuel := by
      rw [Value.print, length_cons] at enough
      omega
    have read := readItems_print v vs rest fuel sound enough
    have opens : (skip (printItems (v :: vs) ++ rest)).head? ≠ some 93 := by
      cases vs with
      | nil =>
        rw [printItems, append_assoc]
        exact head_skip_print first _
      | cons w vs =>
        rw [printItems_cons, append_assoc]
        exact head_skip_print first _
    rw [Value.print, cons_append]
    simp only [if_true, read, opens, Option.map_some, Value.fixed, if_false,
      show (91 : UInt8) ≠ 34 by decide]
  | .object ((key, v) :: ms) =>
    have sound : soundFields ((key, v) :: ms) = true := by simpa only [Value.sound] using sound
    have enough : (printFields ((key, v) :: ms)).length ≤ fuel := by
      rw [Value.print, length_cons] at enough
      omega
    have read := readFields_print key v ms rest fuel sound enough
    have opens : (skip (printFields ((key, v) :: ms) ++ rest)).head? ≠ some 125 := by
      cases ms with
      | nil =>
        rw [printFields, append_assoc, quote, cons_append, skip_cons (by decide)]
        simp
      | cons m ms =>
        rw [printFields_cons, append_assoc, quote, cons_append, skip_cons (by decide)]
        simp
    rw [Value.print, cons_append]
    simp only [if_true, read, opens, Option.map_some, Value.fixed, if_false,
      show (123 : UInt8) ≠ 34 by decide, show (123 : UInt8) ≠ 91 by decide]
termination_by fuel

theorem readItems_print (v : Value) (vs : List Value) (rest : Bytes) (fuel : Nat)
    (sound : soundItems (v :: vs) = true) (enough : (printItems (v :: vs)).length ≤ fuel) :
    readItems fuel (printItems (v :: vs) ++ rest) = some (fixedItems (v :: vs), rest) := by
  rw [soundItems, Bool.and_eq_true] at sound
  match vs with
  | [] =>
    rw [printItems, length_append, length_singleton] at enough
    obtain ⟨fuel, rfl⟩ : ∃ n, fuel = n + 1 := ⟨fuel - 1, by omega⟩
    have read := readValue_print v (93 :: rest) fuel sound.1 (stop_of_mark (by simp) rest)
      (by omega)
    rw [readItems, printItems, append_assoc, singleton_append, read]
    simp [skip_cons (c := 93) (by decide), fixedItems]
  | w :: vs =>
    rw [printItems_cons, length_append, length_cons] at enough
    obtain ⟨fuel, rfl⟩ : ∃ n, fuel = n + 1 := ⟨fuel - 1, by omega⟩
    have read := readValue_print v (44 :: (printItems (w :: vs) ++ rest)) fuel sound.1
      (stop_of_mark (by simp) _) (by omega)
    have more := readItems_print w vs rest fuel sound.2 (by omega)
    rw [readItems, printItems_cons, append_assoc, cons_append, read]
    simp [skip_cons (c := 44) (by decide), more, fixedItems]
termination_by fuel

theorem readFields_print (key : Bytes) (v : Value) (ms : List (Bytes × Value)) (rest : Bytes)
    (fuel : Nat) (sound : soundFields ((key, v) :: ms) = true)
    (enough : (printFields ((key, v) :: ms)).length ≤ fuel) :
    readFields fuel (printFields ((key, v) :: ms) ++ rest) =
      some (fixedFields ((key, v) :: ms), rest) := by
  rw [soundFields, Bool.and_eq_true] at sound
  match ms with
  | [] =>
    rw [printFields, length_append, length_cons, length_append, length_singleton] at enough
    obtain ⟨fuel, rfl⟩ : ∃ n, fuel = n + 1 := ⟨fuel - 1, by omega⟩
    have read := readValue_print v (125 :: rest) fuel sound.1 (stop_of_mark (by simp) rest)
      (by omega)
    rw [readFields, printFields, append_assoc, readString_skip_quote]
    simp [skip_cons (c := 58) (by decide), skip_cons (c := 125) (by decide), read, fixedFields]
  | (key', w) :: ms =>
    rw [printFields_cons, length_append, length_cons, length_append, length_cons] at enough
    obtain ⟨fuel, rfl⟩ : ∃ n, fuel = n + 1 := ⟨fuel - 1, by omega⟩
    have read := readValue_print v (44 :: (printFields ((key', w) :: ms) ++ rest)) fuel sound.1
      (stop_of_mark (by simp) _) (by omega)
    have more := readFields_print key' w ms rest fuel sound.2 (by omega)
    rw [readFields, printFields_cons, append_assoc, readString_skip_quote]
    simp [skip_cons (c := 58) (by decide), skip_cons (c := 44) (by decide), read, more, fixedFields]
termination_by fuel

end

theorem parse_print (sound : v.sound = true) : parse v.print = some v.fixed := by
  have read := readValue_print v [] (v.print.length + 1) sound nofun (Nat.le_succ _)
  rw [append_nil] at read
  simp [parse, read, skip]

/-! ## Integers -/

theorem isDigits_numeral (n : Nat) : isDigits (numeral 10 n) = true := by
  have digits : ∀ c ∈ numeral 10 n, isDigit 10 c = true :=
    isDigit_of_mem_numeral (by decide) (by decide)
  have some_ : numeral 10 n ≠ [] := numeral_ne_nil
  simpa [isDigits, some_] using digits

/-- A numeral begins with a digit, and with a zero only if it is one. -/
theorem numeral_cases (n : Nat) : ∃ c s, numeral 10 n = c :: s ∧ isDigit 10 c = true ∧
    (∀ c' ∈ s, isDigit 10 c' = true) ∧ (c = 48 → s = []) := by
  have digits : ∀ c ∈ numeral 10 n, isDigit 10 c = true :=
    isDigit_of_mem_numeral (by decide) (by decide)
  rcases Nat.eq_zero_or_pos n with rfl | positive
  · exact ⟨48, [], by decide, by decide, nofun, fun _ => rfl⟩
  · have zero : (numeral 10 n).head? ≠ some 48 :=
      head_numeral_ne_zero (by decide) (by decide) positive.ne'
    cases print : numeral 10 n with
    | nil => exact absurd print numeral_ne_nil
    | cons c s =>
      rw [print] at digits zero
      refine ⟨c, s, rfl, digits c mem_cons_self,
        fun c' member => digits c' (mem_cons_of_mem _ member), ?_⟩
      rintro rfl
      exact absurd rfl zero

theorem isNumber_numeral (n : Nat) : isNumber (numeral 10 n) = true := by
  obtain ⟨c, s, print, first, digits, zero⟩ := numeral_cases n
  have minus : (c :: s).head? ≠ some 45 := by
    rintro ⟨⟩
    cases first
  rw [print, isNumber, if_neg minus]
  by_cases here : c = 48
  · simp [here, zero here, isFraction, isExponent]
  · simp [here, first, dropWhile_eq_nil_iff.mpr digits, isFraction, isExponent]

theorem numberByte_of_isDigit (digit : isDigit 10 c = true) : numberByte c = true := by
  simp [numberByte, digit]

theorem sound_int (n : Int) : (Value.int n).sound = true := by
  have bytes : ∀ c ∈ numeral 10 n.natAbs, numberByte c = true := fun c member =>
    numberByte_of_isDigit (isDigit_of_mem_numeral (by decide) (by decide) c member)
  rw [Value.int, intLiteral, Value.sound, Bool.and_eq_true, all_eq_true]
  split
  · refine ⟨?_, forall_mem_cons.mpr ⟨by decide, bytes⟩⟩
    have number := isNumber_numeral n.natAbs
    obtain ⟨c, s, print, first, -⟩ := numeral_cases n.natAbs
    have minus : (c :: s).head? ≠ some 45 := by
      rintro ⟨⟩
      cases first
    rw [print, isNumber, if_neg minus] at number
    rw [print]
    exact number
  · exact ⟨isNumber_numeral _, bytes⟩

/-- An integer is read back. -/
theorem readInt_intLiteral (n : Int) : readInt (intLiteral n) = some n := by
  have value : numValue 10 (numeral 10 n.natAbs) = n.natAbs :=
    numValue_numeral (by decide) (by decide)
  rw [intLiteral]
  split
  · have abs : -(n.natAbs : Int) = n := by omega
    simp only [readInt, head?_cons, if_true, tail_cons, isDigits_numeral, value, abs]
  · obtain ⟨c, s, print, first, -⟩ := numeral_cases n.natAbs
    have minus : (numeral 10 n.natAbs).head? ≠ some 45 := by
      rw [print]
      rintro ⟨⟩
      cases first
    have abs : (n.natAbs : Int) = n := by omega
    rw [readInt, if_neg minus, if_pos (isDigits_numeral _), value, abs]

end Sora.Lib.Json
