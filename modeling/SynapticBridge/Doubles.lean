import Mathlib.Algebra.Order.Floor.Ring
import Mathlib.Algebra.Order.Field.Basic
import Mathlib.Data.Int.Log
import Mathlib.Data.Rat.Floor
import Mathlib.Tactic.Linarith

/-! Arithmetic on clock readings. Doubles are rationals of 53 binary digits, to which sums and
differences are rounded, ties to even; their exponent is not bounded above. -/
namespace Doubles

section Rounding

def roundEven (x : ℚ) : ℤ :=
  if Int.fract x < 1 / 2 then ⌊x⌋
  else if 1 / 2 < Int.fract x then ⌊x⌋ + 1
  else if ⌊x⌋ % 2 = 0 then ⌊x⌋ else ⌊x⌋ + 1

theorem roundEven_bounds (x : ℚ) : ⌊x⌋ ≤ roundEven x ∧ roundEven x ≤ ⌊x⌋ + 1 := by
  unfold roundEven
  split_ifs
  all_goals omega

theorem roundEven_intCast (n : ℤ) : roundEven n = n := by
  rw [roundEven, Int.fract_intCast, if_pos one_half_pos, Int.floor_intCast]

theorem roundEven_mono {x y : ℚ} (h : x ≤ y) : roundEven x ≤ roundEven y := by
  rcases (Int.floor_le_floor h).lt_or_eq with hlt | heq
  · have hx := (roundEven_bounds x).2
    have hy := (roundEven_bounds y).1
    omega
  · have hfract : Int.fract x ≤ Int.fract y := by
      unfold Int.fract
      rw [heq]
      exact sub_le_sub_right h _
    unfold roundEven
    rw [heq]
    split_ifs
    all_goals first | omega | linarith

/-- The distance of the doubles around `x`. -/
def spacing (x : ℚ) : ℚ := 2 ^ max (Int.log 2 |x| - 52) (-1074)

def toDouble (x : ℚ) : ℚ := roundEven (x / spacing x) * spacing x

theorem spacing_pos (x : ℚ) : 0 < spacing x := zpow_pos two_pos _

theorem toDouble_le {x p : ℚ} (h : x ≤ p) (n : ℤ) (multiple : p = n * spacing x) :
    toDouble x ≤ p := by
  have hpos := spacing_pos x
  have hle : x / spacing x ≤ n := (div_le_iff₀ hpos).mpr (multiple ▸ h)
  have hround : roundEven (x / spacing x) ≤ n := by
    have := roundEven_mono hle
    rwa [roundEven_intCast] at this
  rw [toDouble, multiple]
  exact mul_le_mul_of_nonneg_right (by exact_mod_cast hround) hpos.le

theorem le_toDouble {x p : ℚ} (h : p ≤ x) (n : ℤ) (multiple : p = n * spacing x) :
    p ≤ toDouble x := by
  have hpos := spacing_pos x
  have hle : (n : ℚ) ≤ x / spacing x := (le_div_iff₀ hpos).mpr (multiple ▸ h)
  have hround : n ≤ roundEven (x / spacing x) := by
    have := roundEven_mono hle
    rwa [roundEven_intCast] at this
  rw [toDouble, multiple]
  exact mul_le_mul_of_nonneg_right (by exact_mod_cast hround) hpos.le

/-- A power of two that is a multiple of a smaller one. -/
theorem zpow_multiple {e p : ℤ} (h : e ≤ p) : ∃ n : ℤ, (2 : ℚ) ^ p = n * 2 ^ e := by
  obtain ⟨k, rfl⟩ := Int.le.dest h
  refine ⟨2 ^ k, ?_⟩
  rw [zpow_add₀ two_ne_zero, mul_comm]
  norm_cast

/-- Between two positive numbers of different spacing lies a multiple of both spacings. -/
theorem power_between {x y : ℚ} (hx : 0 < x) (h : x ≤ y) (different : spacing x ≠ spacing y) :
    ∃ p, x ≤ p ∧ p ≤ y ∧ (∃ n : ℤ, p = n * spacing x) ∧ ∃ n : ℤ, p = n * spacing y := by
  have hy := hx.trans_le h
  have hlog : Int.log 2 x ≤ Int.log 2 y := Int.log_mono_right hx h
  have hlt : max (Int.log 2 x - 52) (-1074) < max (Int.log 2 y - 52) (-1074) := by
    refine lt_of_le_of_ne (by omega) fun heq => different ?_
    rw [spacing, spacing, abs_of_pos hx, abs_of_pos hy, heq]
  have hbelow : x < (2 : ℚ) ^ (Int.log 2 x + 1) := by
    exact_mod_cast Int.lt_zpow_succ_log_self one_lt_two x
  have habove : (2 : ℚ) ^ Int.log 2 y ≤ y := by
    exact_mod_cast Int.zpow_log_le_self one_lt_two hy
  refine ⟨2 ^ Int.log 2 y, hbelow.le.trans (zpow_le_zpow_right₀ one_le_two (by omega)), habove,
    ?_, ?_⟩
  · rw [spacing, abs_of_pos hx]
    exact zpow_multiple (by omega)
  · rw [spacing, abs_of_pos hy]
    exact zpow_multiple (by omega)

theorem multiple_between {x y : ℚ} (h : x ≤ y) (different : spacing x ≠ spacing y) :
    ∃ p, x ≤ p ∧ p ≤ y ∧ (∃ n : ℤ, p = n * spacing x) ∧ ∃ n : ℤ, p = n * spacing y := by
  by_cases hx : 0 < x
  · exact power_between hx h different
  by_cases hy : y < 0
  · have hneg (z : ℚ) : spacing (-z) = spacing z := by rw [spacing, spacing, abs_neg]
    rw [← hneg x, ← hneg y] at different
    obtain ⟨p, hyp, hpx, ⟨n, hn⟩, m, hm⟩ :=
      power_between (neg_pos.mpr hy) (neg_le_neg h) different.symm
    refine ⟨-p, by linarith, by linarith, ⟨-m, ?_⟩, -n, ?_⟩
    · rw [hm, hneg]
      push_cast
      ring
    · rw [hn, hneg]
      push_cast
      ring
  · exact ⟨0, not_lt.mp hx, not_lt.mp hy, ⟨0, by simp⟩, 0, by simp⟩

theorem toDouble_mono : Monotone toDouble := by
  intro x y h
  by_cases same : spacing x = spacing y
  · have hround : roundEven (x / spacing y) ≤ roundEven (y / spacing y) :=
      roundEven_mono (div_le_div_of_nonneg_right h (spacing_pos y).le)
    rw [toDouble, toDouble, same]
    exact mul_le_mul_of_nonneg_right (by exact_mod_cast hround) (spacing_pos y).le
  · obtain ⟨p, hxp, hpy, ⟨n, hn⟩, m, hm⟩ := multiple_between h same
    exact (toDouble_le hxp n hn).trans (le_toDouble hpy m hm)

end Rounding

section Arithmetic

/-- Addition and subtraction of a number format. -/
structure Arithmetic (K : Type) where
  add : K → K → K
  sub : K → K → K

/-- Subtracting one number keeps the order. -/
def Arithmetic.Orderly {K : Type} [Preorder K] (ar : Arithmetic K) : Prop :=
  ∀ w, Monotone fun x => ar.sub x w

abbrev exact {K : Type} [Field K] : Arithmetic K where
  add x y := x + y
  sub x y := x - y

def double : Arithmetic ℚ where
  add x y := toDouble (x + y)
  sub x y := toDouble (x - y)

theorem exact_orderly {K : Type} [Field K] [LinearOrder K] [IsStrictOrderedRing K] :
    (exact : Arithmetic K).Orderly := fun w _ _ h => sub_le_sub_right h w

theorem double_orderly : double.Orderly := fun w _ _ h => toDouble_mono (sub_le_sub_right h w)

end Arithmetic

end Doubles
