import Mathlib.Algebra.BigOperators.Group.List.Basic
import Mathlib.Analysis.Real.Sqrt
import Mathlib.Tactic.LinearCombination
import Mathlib.Tactic.Linarith
import Mathlib.Tactic.Positivity
import Mathlib.Tactic.FieldSimp

/-! Dot products of coordinate lists and the bound on their cosine. The squared
bound needs only an ordered field; square roots enter with the real cosine. -/
namespace Cosine

section Field

variable {K : Type*} [Field K] [LinearOrder K] [IsStrictOrderedRing K]

def dot (u v : List K) : K := (List.zipWith (· * ·) u v).sum
def normSq (u : List K) : K := (u.map fun a => a * a).sum

omit [LinearOrder K] [IsStrictOrderedRing K] in
theorem dot_self (u : List K) : dot u u = normSq u := by
  induction u with
  | nil => rfl
  | cons a u ih =>
    simp only [dot, normSq, List.zipWith_cons_cons, List.sum_cons, List.map_cons] at ih ⊢
    rw [ih]

theorem normSq_nonneg (u : List K) : 0 ≤ normSq u := by
  apply List.sum_nonneg
  intro x hx
  obtain ⟨a, _, rfl⟩ := List.mem_map.mp hx
  exact mul_self_nonneg a

theorem normSq_eq_zero {u : List K} : normSq u = 0 ↔ ∀ a ∈ u, a = 0 := by
  induction u with
  | nil => simp [normSq]
  | cons a u ih =>
    have hu := normSq_nonneg u
    have hcons : normSq (a :: u) = a * a + normSq u := by simp [normSq]
    rw [hcons, add_eq_zero_iff_of_nonneg (mul_self_nonneg a) hu, mul_self_eq_zero, ih]
    simp

omit [LinearOrder K] [IsStrictOrderedRing K] in
theorem dot_map_mul (c : K) (u v : List K) : dot (u.map (c * ·)) v = c * dot u v := by
  induction u generalizing v with
  | nil => simp [dot]
  | cons a u ih =>
    cases v with
    | nil => simp [dot]
    | cons b v =>
      have hs := ih v
      simp only [dot, List.map_cons, List.zipWith_cons_cons, List.sum_cons] at hs ⊢
      rw [hs]
      ring

omit [LinearOrder K] [IsStrictOrderedRing K] in
theorem normSq_map_mul (c : K) (u : List K) : normSq (u.map (c * ·)) = c * c * normSq u := by
  induction u with
  | nil => simp [normSq]
  | cons a u ih =>
    simp only [normSq, List.map_cons, List.sum_cons] at ih ⊢
    rw [ih]
    ring

theorem normSq_map_eq_zero {c : K} (hc : 0 < c) {u : List K} :
    normSq (u.map (c * ·)) = 0 ↔ normSq u = 0 := by
  rw [normSq_map_mul, mul_eq_zero]
  exact or_iff_right (mul_pos hc hc).ne'

/-- The sum of the squares of `x * aᵢ - y * bᵢ`, multiplied out. -/
private theorem quadratic_nonneg {u v : List K} (h : u.length = v.length) (x y : K) :
    0 ≤ x * x * normSq u - 2 * x * y * dot u v + y * y * normSq v := by
  induction u generalizing v with
  | nil =>
    obtain rfl := List.length_eq_zero_iff.mp h.symm
    simp [normSq, dot]
  | cons a u ih =>
    cases v with
    | nil => simp at h
    | cons b v =>
      have hs := ih (v := v) (by simpa using h)
      have hq := mul_self_nonneg (x * a - y * b)
      simp only [normSq, dot, List.map_cons, List.sum_cons, List.zipWith_cons_cons] at hs ⊢
      nlinarith only [hs, hq]

theorem dot_sq_le {u v : List K} (h : u.length = v.length) :
    dot u v * dot u v ≤ normSq u * normSq v := by
  have hq := quadratic_nonneg h (normSq v) (dot u v)
  rcases eq_or_lt_of_le (normSq_nonneg v) with hz | hv
  · have hv : ∀ b ∈ v, b = 0 := normSq_eq_zero.mp hz.symm
    have hd : dot u v = 0 := by
      apply List.sum_eq_zero
      intro x hx
      obtain ⟨i, hi, rfl⟩ := List.mem_iff_getElem.mp hx
      rw [List.getElem_zipWith, hv _ (List.getElem_mem _), mul_zero]
    rw [hd, ← hz]
    simp
  · have hp : 0 ≤ normSq v * (normSq u * normSq v - dot u v * dot u v) := by
      linear_combination hq
    have := nonneg_of_mul_nonneg_right hp hv
    linarith

end Field

noncomputable def cosine (u v : List ℝ) : ℝ := dot u v / (√(normSq u) * √(normSq v))

theorem abs_cosine_le_one {u v : List ℝ} (h : u.length = v.length) : |cosine u v| ≤ 1 := by
  have hden : 0 ≤ √(normSq u) * √(normSq v) := by positivity
  rw [cosine, abs_div, abs_of_nonneg hden]
  apply div_le_one_of_le₀ _ hden
  rw [← Real.sqrt_mul (normSq_nonneg u), ← Real.sqrt_mul_self_eq_abs]
  exact Real.sqrt_le_sqrt (dot_sq_le h)

theorem cosine_le_one {u v : List ℝ} (h : u.length = v.length) : cosine u v ≤ 1 :=
  (le_abs_self _).trans (abs_cosine_le_one h)

theorem cosine_eq_zero {u v : List ℝ} (h : u.length = v.length) :
    cosine u v = 0 ↔ dot u v = 0 := by
  refine ⟨fun hc => ?_, fun hd => by rw [cosine, hd, zero_div]⟩
  rcases div_eq_zero_iff.mp hc with hd | hz
  · exact hd
  · -- a zero magnitude leaves nothing to multiply
    have hnorm : normSq u * normSq v = 0 := by
      rcases mul_eq_zero.mp hz with hz | hz
      · rw [(Real.sqrt_eq_zero (normSq_nonneg u)).mp hz, zero_mul]
      · rw [(Real.sqrt_eq_zero (normSq_nonneg v)).mp hz, mul_zero]
    have hsq : dot u v * dot u v ≤ 0 := hnorm ▸ dot_sq_le h
    exact mul_self_eq_zero.mp (le_antisymm hsq (mul_self_nonneg _))

theorem cosine_self {u : List ℝ} (h : normSq u ≠ 0) : cosine u u = 1 := by
  rw [cosine, dot_self, Real.mul_self_sqrt (normSq_nonneg u)]
  exact div_self h

/-- Only the direction counts. -/
theorem cosine_map_mul {c : ℝ} (hc : 0 < c) (u v : List ℝ) :
    cosine (u.map (c * ·)) v = cosine u v := by
  rw [cosine, cosine, dot_map_mul, normSq_map_mul, Real.sqrt_mul (mul_self_nonneg c),
    Real.sqrt_mul_self hc.le, mul_assoc]
  exact mul_div_mul_left _ _ hc.ne'

end Cosine
