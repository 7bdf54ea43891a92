import Mathlib.Data.List.Sort

/-!
# Consecutive numbers

`span lo hi` lists the numbers above `lo` up to `hi`.
-/

namespace Sora.Lib

def span (lo hi : Nat) : List Nat := List.range' (lo + 1) (hi - lo)

variable {lo hi : Nat}

@[simp] theorem mem_span {n : Nat} : n ∈ span lo hi ↔ lo < n ∧ n ≤ hi := by
  simp only [span, List.mem_range'_1]
  omega

theorem span_sorted (lo hi : Nat) : (span lo hi).Pairwise (· < ·) := by
  simpa [span] using List.pairwise_lt_range'

theorem span_eq_nil (le : hi ≤ lo) : span lo hi = [] := by
  simp [span, Nat.sub_eq_zero_of_le le]

theorem span_succ (le : lo ≤ hi) : span lo (hi + 1) = span lo hi ++ [hi + 1] := by
  unfold span
  rw [Nat.succ_sub le, List.range'_1_concat]
  congr 2
  omega

theorem drop_span (lo hi k : Nat) : (span lo hi).drop k = span (lo + k) hi := by
  unfold span
  rw [List.drop_range']
  congr 1 <;> omega

theorem filter_span (lo hi : Nat) (p : Nat → Bool) {lo' hi' : Nat}
    (same : ∀ n, lo < n → n ≤ hi → (p n = true ↔ lo' < n ∧ n ≤ hi')) (lower : lo ≤ lo')
    (upper : hi' ≤ hi) : (span lo hi).filter p = span lo' hi' := by
  refine ((span_sorted lo hi).filter p).eq_of_mem_iff (span_sorted lo' hi') fun {n} => ?_
  simp only [List.mem_filter, mem_span]
  constructor
  · rintro ⟨⟨above, below⟩, holds⟩
    exact (same n above below).mp holds
  · rintro ⟨above, below⟩
    have within : lo < n ∧ n ≤ hi := by omega
    exact ⟨within, (same n within.1 within.2).mpr ⟨above, below⟩⟩

end Sora.Lib
