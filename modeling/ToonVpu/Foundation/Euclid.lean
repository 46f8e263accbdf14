import Mathlib.Data.Int.GCD
import Mathlib.Data.Int.Order.Basic

/-!
# Euclid — Euclid's algorithm with remainders that keep a sign

A remainder of truncated division has the sign of the dividend.  The last remainder that is not zero
is therefore the greatest common divisor up to its sign, and the sign depends on how many steps the
algorithm takes.
-/

namespace ToonVpu
namespace Foundation

theorem natAbs_tmod_lt {x y : ℤ} (hy : y ≠ 0) : (x.tmod y).natAbs < y.natAbs := by
  rw [Int.natAbs_tmod]
  exact Nat.mod_lt _ (Int.natAbs_pos.mpr hy)

/-- The last of `x`, `y` and the remainders that is not zero. -/
def lastRemainder (x y : ℤ) : ℤ :=
  if y = 0 then x else lastRemainder y (x.tmod y)
termination_by y.natAbs
decreasing_by exact natAbs_tmod_lt ‹_›

variable {x y : ℤ}

theorem lastRemainder_zero : lastRemainder x 0 = x := by
  rw [lastRemainder, if_pos rfl]

theorem lastRemainder_step (hy : y ≠ 0) : lastRemainder x y = lastRemainder y (x.tmod y) := by
  rw [lastRemainder, if_neg hy]

theorem natAbs_lastRemainder (x y : ℤ) : (lastRemainder x y).natAbs = Int.gcd x y := by
  induction x, y using lastRemainder.induct with
  | case1 x => rw [lastRemainder_zero, Int.gcd_zero_right]
  | case2 x y hy ih =>
    calc (lastRemainder x y).natAbs = Int.gcd y (x.tmod y) := by rw [lastRemainder_step hy, ih]
      _ = Nat.gcd (x.natAbs % y.natAbs) y.natAbs := by
        rw [Int.gcd_def, Int.natAbs_tmod, Nat.gcd_comm]
      _ = Int.gcd x y := by rw [← Nat.gcd_rec, Nat.gcd_comm, Int.gcd_def]

theorem lastRemainder_ne_zero (hy : y ≠ 0) : lastRemainder x y ≠ 0 := by
  have hpos : 0 < Int.gcd x y := Int.gcd_pos_of_ne_zero_right x hy
  rw [← natAbs_lastRemainder] at hpos
  exact Int.natAbs_pos.mp hpos

theorem lastRemainder_dvd_left (x y : ℤ) : lastRemainder x y ∣ x := by
  rw [← Int.natAbs_dvd, natAbs_lastRemainder]
  exact Int.gcd_dvd_left x y

theorem lastRemainder_dvd_right (x y : ℤ) : lastRemainder x y ∣ y := by
  rw [← Int.natAbs_dvd, natAbs_lastRemainder]
  exact Int.gcd_dvd_right x y

theorem lastRemainder_of_dvd (hy : y ≠ 0) (h : y ∣ x) : lastRemainder x y = y := by
  rw [lastRemainder_step hy, Int.tmod_eq_zero_of_dvd h, lastRemainder_zero]

theorem lastRemainder_neg (hx : x < 0) (hy : y ≤ 0) : lastRemainder x y < 0 := by
  induction x, y using lastRemainder.induct with
  | case1 x =>
    rw [lastRemainder_zero]
    exact hx
  | case2 x y hne ih =>
    rw [lastRemainder_step hne]
    apply ih (by omega)
    have hle : 0 ≤ (-x).tmod y := Int.tmod_nonneg y (by omega)
    rw [Int.neg_tmod] at hle
    omega

theorem lastRemainder_nonneg (hx : 0 ≤ x) (hy : 0 ≤ y) : 0 ≤ lastRemainder x y := by
  induction x, y using lastRemainder.induct with
  | case1 x =>
    rw [lastRemainder_zero]
    exact hx
  | case2 x y hne ih =>
    rw [lastRemainder_step hne]
    exact ih hy (Int.tmod_nonneg y hx)

/-- Without signs it is the greatest common divisor. -/
theorem lastRemainder_natCast (m n : ℕ) : lastRemainder m n = Nat.gcd m n := by
  have habs := natAbs_lastRemainder m n
  rw [Int.gcd_natCast_natCast] at habs
  have hnonneg := lastRemainder_nonneg (Int.natCast_nonneg m) (Int.natCast_nonneg n)
  omega

end Foundation
end ToonVpu
