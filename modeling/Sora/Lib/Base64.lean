import Sora.Lib.Bytes

/-!
# Base64

The standard and the URL alphabet, with or without padding.  Decoding skips line breaks and
ignores the unused bits of a last short group, as the decoder of the Go library does;
`decode_encode` says that it inverts encoding.
-/

namespace Sora.Lib.Base64

open List

/-- The last two characters differ between the alphabets. -/
structure Alphabet where
  c62 : UInt8
  c63 : UInt8
  deriving DecidableEq

def std : Alphabet := ⟨43, 47⟩

def url : Alphabet := ⟨45, 95⟩

def Alphabet.char (a : Alphabet) (n : Nat) : UInt8 :=
  if n < 26 then UInt8.ofNat (65 + n)
  else if n < 52 then UInt8.ofNat (71 + n)
  else if n < 62 then UInt8.ofNat (n - 4)
  else if n = 62 then a.c62 else a.c63

def Alphabet.value (a : Alphabet) (c : UInt8) : Option Nat :=
  if 65 ≤ c ∧ c ≤ 90 then some (c.toNat - 65)
  else if 97 ≤ c ∧ c ≤ 122 then some (c.toNat - 71)
  else if 48 ≤ c ∧ c ≤ 57 then some (c.toNat + 4)
  else if c = a.c62 then some 62
  else if c = a.c63 then some 63
  else none

def pad : UInt8 := 61

/-- With padding. -/
def encode (a : Alphabet) : Bytes → Bytes
  | [] => []
  | [x] => [a.char (x.toNat / 4), a.char (x.toNat % 4 * 16), pad, pad]
  | [x, y] => [a.char (x.toNat / 4), a.char (x.toNat % 4 * 16 + y.toNat / 16),
      a.char (y.toNat % 16 * 4), pad]
  | x :: y :: z :: rest => a.char (x.toNat / 4) :: a.char (x.toNat % 4 * 16 + y.toNat / 16) ::
      a.char (y.toNat % 16 * 4 + z.toNat / 64) :: a.char (z.toNat % 64) :: encode a rest

/-- The byte made of the low bits of one character and the high bits of the next. -/
def byte₁ (m n : Nat) : UInt8 := UInt8.ofNat (m * 4 + n / 16)

def byte₂ (m n : Nat) : UInt8 := UInt8.ofNat (m % 16 * 16 + n / 4)

def byte₃ (m n : Nat) : UInt8 := UInt8.ofNat (m % 4 * 64 + n)

/-- Groups of four characters, the last one padded if `padded`, else short. -/
def decodeGroups (a : Alphabet) (padded : Bool) : Bytes → Option Bytes
  | [] => some []
  | [c₁, c₂] => do
    if padded then none
    let n₁ ← a.value c₁
    let n₂ ← a.value c₂
    some [byte₁ n₁ n₂]
  | [c₁, c₂, c₃] => do
    if padded then none
    let n₁ ← a.value c₁
    let n₂ ← a.value c₂
    let n₃ ← a.value c₃
    some [byte₁ n₁ n₂, byte₂ n₂ n₃]
  | c₁ :: c₂ :: c₃ :: c₄ :: rest => do
    let n₁ ← a.value c₁
    let n₂ ← a.value c₂
    if padded = true ∧ c₃ = pad ∧ c₄ = pad ∧ rest = [] then some [byte₁ n₁ n₂]
    else
      let n₃ ← a.value c₃
      if padded = true ∧ c₄ = pad ∧ rest = [] then some [byte₁ n₁ n₂, byte₂ n₂ n₃]
      else
        let n₄ ← a.value c₄
        let bytes ← decodeGroups a padded rest
        some (byte₁ n₁ n₂ :: byte₂ n₂ n₃ :: byte₃ n₃ n₄ :: bytes)
  | _ => none

def decode (a : Alphabet) (padded : Bool) (s : Bytes) : Option Bytes :=
  decodeGroups a padded (s.filter fun c => c != 13 && c != 10)

/-- The two alphabets in use. -/
def Alphabet.Known (a : Alphabet) : Prop := a = std ∨ a = url

variable {n : Nat}

section Codec

variable {a : Alphabet}

theorem value_char (known : a.Known) (small : n < 64) : a.value (a.char n) = some n := by
  rcases known with rfl | rfl <;> interval_cases n <;> rfl

theorem char_ne (known : a.Known) (small : n < 64) :
    a.char n ≠ pad ∧ a.char n ≠ 13 ∧ a.char n ≠ 10 := by
  rcases known with rfl | rfl <;> interval_cases n <;> decide

theorem byte₁_eq (x y : Nat) (c : UInt8) (split : c.toNat = x * 4 + y / 16) : byte₁ x y = c := by
  rw [byte₁, ← split, UInt8.ofNat_toNat]

theorem byte₂_eq (x y : Nat) (c : UInt8) (split : c.toNat = x % 16 * 16 + y / 4) :
    byte₂ x y = c := by
  rw [byte₂, ← split, UInt8.ofNat_toNat]

theorem byte₃_eq (x y : Nat) (c : UInt8) (split : c.toNat = x % 4 * 64 + y) : byte₃ x y = c := by
  rw [byte₃, ← split, UInt8.ofNat_toNat]

theorem decodeGroups_encode (known : a.Known) (s : Bytes) :
    decodeGroups a true (encode a s) = some s := by
  induction s using encode.induct with
  | case1 => rfl
  | case2 x =>
    have := x.toNat_lt
    simp [encode, decodeGroups, value_char known (show x.toNat / 4 < 64 by omega),
      value_char known (show x.toNat % 4 * 16 < 64 by omega)]
    exact byte₁_eq _ _ _ (by omega)
  | case3 x y =>
    have := x.toNat_lt
    have := y.toNat_lt
    have last : y.toNat % 16 * 4 < 64 := by omega
    simp [encode, decodeGroups, value_char known (show x.toNat / 4 < 64 by omega),
      value_char known (show x.toNat % 4 * 16 + y.toNat / 16 < 64 by omega),
      value_char known last, (char_ne known last).1]
    exact ⟨byte₁_eq _ _ _ (by omega), byte₂_eq _ _ _ (by omega)⟩
  | case4 x y z rest ih =>
    have := x.toNat_lt
    have := y.toNat_lt
    have := z.toNat_lt
    have third : y.toNat % 16 * 4 + z.toNat / 64 < 64 := by omega
    have fourth : z.toNat % 64 < 64 := by omega
    simp [encode, decodeGroups, value_char known (show x.toNat / 4 < 64 by omega),
      value_char known (show x.toNat % 4 * 16 + y.toNat / 16 < 64 by omega),
      value_char known third, value_char known fourth,
      (char_ne known fourth).1, ih]
    exact ⟨byte₁_eq _ _ _ (by omega), byte₂_eq _ _ _ (by omega), byte₃_eq _ _ _ (by omega)⟩

/-- The characters of encoded text. -/
theorem mem_encode {s : Bytes} {c : UInt8} (member : c ∈ encode a s) :
    c = pad ∨ ∃ n < 64, c = a.char n := by
  induction s using encode.induct with
  | case1 => cases member
  | case2 x =>
    have := x.toNat_lt
    simp only [encode, mem_cons, not_mem_nil, or_false] at member
    rcases member with rfl | rfl | rfl | rfl
    · exact .inr ⟨_, by omega, rfl⟩
    · exact .inr ⟨_, by omega, rfl⟩
    · exact .inl rfl
    · exact .inl rfl
  | case3 x y =>
    have := x.toNat_lt
    have := y.toNat_lt
    simp only [encode, mem_cons, not_mem_nil, or_false] at member
    rcases member with rfl | rfl | rfl | rfl
    iterate 3 exact .inr ⟨_, by omega, rfl⟩
    · exact .inl rfl
  | case4 x y z rest ih =>
    have := x.toNat_lt
    have := y.toNat_lt
    have := z.toNat_lt
    simp only [encode, mem_cons] at member
    rcases member with rfl | rfl | rfl | rfl | later
    iterate 4 exact .inr ⟨_, by omega, rfl⟩
    · exact ih later

theorem decode_encode (known : a.Known) (s : Bytes) : decode a true (encode a s) = some s := by
  have unbroken : (encode a s).filter (fun c => c != 13 && c != 10) = encode a s := by
    refine filter_eq_self.mpr fun c member => ?_
    rcases mem_encode member with rfl | ⟨n, small, rfl⟩
    · rfl
    · obtain ⟨-, cr, lf⟩ := char_ne known small
      simp [cr, lf]
  rw [decode, unbroken, decodeGroups_encode known]

end Codec

end Sora.Lib.Base64
