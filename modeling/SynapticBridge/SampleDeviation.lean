import Mathlib.Algebra.BigOperators.Group.List.Basic
import Mathlib.Algebra.Order.BigOperators.Group.List
import Mathlib.Analysis.Real.Sqrt
import Mathlib.Tactic.FieldSimp
import Mathlib.Tactic.LinearCombination
import Mathlib.Tactic.Linarith
import Mathlib.Tactic.Positivity

/-! Mean and squared deviations of a list, and how both move when a value joins it. A value that
is measured against a list it belongs to cannot lie too far out. -/
namespace SampleDeviation

section Field

variable {K : Type*} [Field K]

def mean (xs : List K) : K := xs.sum / xs.length

/-- The squared deviations from the mean, summed. -/
def spread (xs : List K) : K := (xs.map fun x => (x - mean xs) * (x - mean xs)).sum

theorem spread_nil : spread ([] : List K) = 0 := rfl

/-- Squared distances from any point, multiplied out. -/
theorem sum_sq_sub (xs : List K) (a : K) : (xs.map fun x => (x - a) * (x - a)).sum =
    (xs.map fun x => x * x).sum - 2 * a * xs.sum + xs.length * (a * a) := by
  induction xs with
  | nil => simp
  | cons x xs ih =>
    simp only [List.map_cons, List.sum_cons, List.length_cons, Nat.cast_add, Nat.cast_one, ih]
    ring

variable [LinearOrder K] [IsStrictOrderedRing K] {xs : List K} {x d : K}

theorem length_pos (hne : xs ≠ []) : (0 : K) < xs.length :=
  Nat.cast_pos.mpr (List.length_pos_iff.mpr hne)

theorem spread_nonneg (xs : List K) : 0 ≤ spread xs := by
  apply List.sum_nonneg
  intro a ha
  obtain ⟨x, -, rfl⟩ := List.mem_map.mp ha
  exact mul_self_nonneg _

theorem spread_eq (hne : xs ≠ []) :
    spread xs = (xs.map fun x => x * x).sum - xs.sum * xs.sum / xs.length := by
  have hlength := (length_pos (K := K) hne).ne'
  rw [spread, sum_sq_sub, mean]
  field_simp
  ring

/-- The mean follows a value that joins by one part in the new number of values. -/
theorem sub_mean_concat (xs : List K) (x : K) :
    x - mean (xs ++ [x]) = (x - mean xs) * xs.length / (xs.length + 1) := by
  have hsucc : (xs.length + 1 : K) ≠ 0 := by positivity
  rcases eq_or_ne xs [] with rfl | hne
  · simp [mean]
  · have hlength := (length_pos (K := K) hne).ne'
    simp only [mean, List.sum_append, List.sum_singleton, List.length_append,
      List.length_singleton, Nat.cast_add, Nat.cast_one]
    field_simp
    ring

theorem spread_concat (xs : List K) (x : K) : spread (xs ++ [x]) =
    spread xs + (x - mean xs) * (x - mean xs) * xs.length / (xs.length + 1) := by
  have hsucc : (xs.length + 1 : K) ≠ 0 := by positivity
  rcases eq_or_ne xs [] with rfl | hne
  · simp [spread, mean]
  · have hlength := (length_pos (K := K) hne).ne'
    rw [spread_eq hne, spread_eq (by simp)]
    simp only [mean, List.map_append, List.map_singleton, List.sum_append, List.sum_singleton,
      List.length_append, List.length_singleton, Nat.cast_add, Nat.cast_one]
    field_simp
    ring

/-- The squared distance of the value that joined, in sample variances. It is at most
`m * m / (m + 1)` when `m` values were there before. -/
theorem sq_score_le (xs : List K) (x : K) :
    (x - mean (xs ++ [x])) ^ 2 / (spread (xs ++ [x]) / xs.length) * (xs.length + 1) ≤
      (xs.length : K) ^ 2 := by
  rcases eq_or_ne xs [] with rfl | hne
  · simp
  have hlength := length_pos (K := K) hne
  have hspread := spread_nonneg (xs ++ [x])
  have hold := spread_nonneg xs
  rcases hspread.eq_or_lt with hzero | hpos
  · rw [← hzero, zero_div, div_zero, zero_mul]
    positivity
  rw [div_div_eq_mul_div, div_mul_eq_mul_div, div_le_iff₀ hpos, spread_concat, sub_mean_concat]
  have hrest : 0 ≤ (xs.length : K) ^ 2 * spread xs := by positivity
  have hsucc : (xs.length + 1 : K) ≠ 0 := by positivity
  calc ((x - mean xs) * xs.length / (xs.length + 1)) ^ 2 * xs.length * (xs.length + 1)
      = (xs.length : K) ^ 2 * ((x - mean xs) * (x - mean xs) * xs.length / (xs.length + 1)) := by
        field_simp
    _ ≤ (xs.length : K) ^ 2 *
          (spread xs + (x - mean xs) * (x - mean xs) * xs.length / (xs.length + 1)) := by
        rw [mul_add]
        linarith

/-- How far the value must lie from those before it to score more than `d`. -/
theorem lt_sq_score_iff (hd : 0 ≤ d) :
    d < (x - mean (xs ++ [x])) ^ 2 / (spread (xs ++ [x]) / xs.length) ↔
      d * (xs.length + 1) ^ 2 * spread xs <
        xs.length * (xs.length ^ 2 - d * (xs.length + 1)) * (x - mean xs) ^ 2 := by
  rcases eq_or_ne xs [] with rfl | hne
  · simpa [spread_nil] using hd
  have hlength := length_pos (K := K) hne
  have hsucc : (0 : K) < xs.length + 1 := by positivity
  have hspread := spread_nonneg (xs ++ [x])
  have hold := spread_nonneg xs
  have hjoined : spread (xs ++ [x]) * (xs.length + 1) =
      spread xs * (xs.length + 1) + (x - mean xs) ^ 2 * xs.length := by
    rw [spread_concat]
    field_simp
  rcases hspread.eq_or_lt with hzero | hpos
  · have hsq : 0 ≤ (x - mean xs) ^ 2 * (xs.length : K) := by positivity
    have hsum : 0 ≤ spread xs * (xs.length + 1 : K) := by positivity
    rw [← hzero, zero_mul] at hjoined
    have hnone : spread xs * (xs.length + 1 : K) = 0 := by linarith
    have hsame : (x - mean xs) ^ 2 * (xs.length : K) = 0 := by linarith
    rw [(mul_eq_zero.mp hnone).resolve_right hsucc.ne',
      (mul_eq_zero.mp hsame).resolve_right hlength.ne', ← hzero]
    simpa using hd
  · rw [div_div_eq_mul_div, lt_div_iff₀ hpos, sub_mean_concat,
      ← mul_lt_mul_iff_left₀ (pow_pos hsucc 2)]
    have hleft : d * spread (xs ++ [x]) * (xs.length + 1) ^ 2 =
        d * (xs.length + 1) ^ 2 * spread xs +
          d * (xs.length + 1) * ((x - mean xs) ^ 2 * xs.length) := by
      linear_combination d * (xs.length + 1) * hjoined
    have hright : ((x - mean xs) * xs.length / (xs.length + 1)) ^ 2 * xs.length *
        (xs.length + 1) ^ 2 = xs.length ^ 3 * (x - mean xs) ^ 2 := by
      field_simp
    rw [hleft, hright, ← lt_sub_iff_add_lt]
    apply iff_of_eq
    congr 1
    ring

end Field

end SampleDeviation
