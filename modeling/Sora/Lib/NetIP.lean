import Mathlib.Tactic.Positivity

/-!
# IP addresses and networks

An address is a family with a value below two to the family's width, a network an
address with a prefix length within that width, so neither an address nor a network
outside its family can be built.  `IP.top ip n` is the number made of the first `n`
bits; membership, masking and overlap are all stated with it.
-/

namespace Sora.Lib

inductive Family
  | v4
  | v6
  deriving DecidableEq, Repr

/-- Bits of an address of the family. -/
def Family.width : Family → Nat
  | .v4 => 32
  | .v6 => 128

@[ext] structure IP where
  family : Family
  value : Nat
  lt : value < 2 ^ family.width
  deriving DecidableEq

/-- The first `n` bits as a number. -/
def IP.top (ip : IP) (n : Nat) : Nat := ip.value / 2 ^ (ip.family.width - n)

/-- A network: an address, possibly with host bits set, and a prefix length. -/
@[ext] structure Prefix where
  ip : IP
  bits : Nat
  le : bits ≤ ip.family.width
  deriving DecidableEq

/-- The network of one address. -/
def host (ip : IP) : Prefix := ⟨ip, ip.family.width, le_rfl⟩

namespace Prefix

/-- The network contains the address; the families must agree. -/
def contains (p : Prefix) (ip : IP) : Bool :=
  p.ip.family == ip.family && p.ip.top p.bits == ip.top p.bits

/-- The network with its host bits cleared. -/
def masked (p : Prefix) : Prefix where
  ip :=
    { family := p.ip.family
      value := p.ip.top p.bits * 2 ^ (p.ip.family.width - p.bits)
      lt := (Nat.div_mul_le_self _ _).trans_lt p.ip.lt }
  bits := p.bits
  le := p.le

/-- Two networks share an address: they agree on the shorter prefix. -/
def overlaps (p q : Prefix) : Bool :=
  p.ip.family == q.ip.family &&
    p.ip.top (min p.bits q.bits) == q.ip.top (min p.bits q.bits)

@[simp] theorem masked_family (p : Prefix) : p.masked.ip.family = p.ip.family := rfl

@[simp] theorem masked_bits (p : Prefix) : p.masked.bits = p.bits := rfl

/-- Masking keeps every leading part that lies within the prefix length. -/
theorem top_masked (p : Prefix) {n : Nat} (within : n ≤ p.bits) :
    p.masked.ip.top n = p.ip.top n := by
  -- `2 ^ (w - n)` is `2 ^ (bits - n)` times the host block that masking cleared
  have split : p.ip.family.width - n =
      (p.ip.family.width - p.bits) + (p.bits - n) := by
    have := p.le
    omega
  simp only [IP.top, masked]
  rw [split, pow_add, ← Nat.div_div_eq_div_mul, ← Nat.div_div_eq_div_mul,
    Nat.mul_div_cancel _ (by positivity)]

@[simp] theorem contains_masked (p : Prefix) (ip : IP) : p.masked.contains ip = p.contains ip := by
  simp only [contains, masked_family, masked_bits, top_masked p le_rfl]

@[simp] theorem overlaps_masked (p q : Prefix) : p.masked.overlaps q = p.overlaps q := by
  simp only [overlaps, masked_family, masked_bits, top_masked p (min_le_left _ _)]

@[simp] theorem masked_masked (p : Prefix) : p.masked.masked = p.masked := by
  have value : p.masked.ip.top p.bits = p.ip.top p.bits := top_masked p le_rfl
  refine Prefix.ext (IP.ext rfl ?_) rfl
  exact congrArg (fun v => v * 2 ^ (p.ip.family.width - p.bits)) value

variable {p q : Prefix} {ip : IP}

/-- The leading part of a longer prefix decides a shorter one. -/
theorem top_congr {m n : Nat} {a b : IP} (shorter : m ≤ n) (within : n ≤ a.family.width)
    (family : a.family = b.family) (same : a.top n = b.top n) : a.top m = b.top m := by
  have split : a.family.width - m = (a.family.width - n) + (n - m) := by omega
  simp only [IP.top] at same ⊢
  rw [← family] at same ⊢
  rw [split, pow_add, ← Nat.div_div_eq_div_mul, ← Nat.div_div_eq_div_mul, same]

theorem contains_iff : p.contains ip = true ↔
    p.ip.family = ip.family ∧ p.ip.top p.bits = ip.top p.bits := by
  simp [contains]

/-- Networks overlap exactly if they share an address. -/
theorem overlaps_iff : p.overlaps q = true ↔ ∃ ip, p.contains ip = true ∧ q.contains ip = true := by
  constructor
  · intro both
    simp only [overlaps, Bool.and_eq_true, beq_iff_eq] at both
    rcases le_total p.bits q.bits with shorter | shorter
    · rw [min_eq_left shorter] at both
      exact ⟨q.ip, contains_iff.mpr both, contains_iff.mpr ⟨rfl, rfl⟩⟩
    · rw [min_eq_right shorter] at both
      exact ⟨p.ip, contains_iff.mpr ⟨rfl, rfl⟩, contains_iff.mpr ⟨both.1.symm, both.2.symm⟩⟩
  · intro shared
    obtain ⟨ip, first, second⟩ := shared
    obtain ⟨family, same⟩ := contains_iff.mp first
    obtain ⟨family', same'⟩ := contains_iff.mp second
    have here := top_congr (min_le_left p.bits q.bits) p.le family same
    have there := top_congr (min_le_right p.bits q.bits) q.le family' same'
    simp [overlaps, family, family', here, there]

/-- A network inside another one. -/
theorem contains_trans (inner : p.contains q.ip = true) (longer : p.bits ≤ q.bits)
    (inside : q.contains ip = true) : p.contains ip = true := by
  obtain ⟨family, same⟩ := contains_iff.mp inner
  obtain ⟨family', same'⟩ := contains_iff.mp inside
  exact contains_iff.mpr
    ⟨family.trans family', same.trans (top_congr longer q.le family' same')⟩

end Prefix

end Sora.Lib
