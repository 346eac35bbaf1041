import Mathlib.Tactic.SplitIfs
import MetricWatch.Proofs.Binary64.Sign

namespace MetricWatch.Binary64

variable {x y : Binary64}

theorem word_natCast (n : Nat) : Scalar.word Binary64 n = n % 2 ^ 64 := by
  change ((n : Int) % 0x10000000000000000).toNat = n % 2 ^ 64
  omega

theorem word_of_lt {n : Nat} (h : n < 2 ^ 64) : Scalar.word Binary64 n = n := by
  rw [word_natCast, Nat.mod_eq_of_lt h]

theorem magnitude_natCast (n : Nat) :
    (n : Binary64).magnitude = nearestMagnitude (n * unit) 1 := magnitude_ofQuotient _ _ _

theorem isNaN_natCast (n : Nat) : (n : Binary64).isNaN = false := isNaN_ofQuotient _ _ _

theorem isFinite_natCast {n : Nat} (h : n < 2 ^ 64) : (n : Binary64).isFinite = true := by
  have hmono : nearestMagnitude (n * unit) 1 ≤ nearestMagnitude (2 ^ 64 * unit) 1 := by
    apply nearestMagnitude_mono Nat.one_pos Nat.one_pos
    have hle := Nat.mul_le_mul_right unit (Nat.le_of_lt h)
    omega
  have hbound : nearestMagnitude (2 ^ 64 * unit) 1 < infiniteMagnitude := by decide +kernel
  rw [isFinite, magnitude_natCast]
  exact decide_eq_true (hmono.trans_lt hbound)

theorem isFinite_ofInt {n : Int} (h : n.natAbs < 2 ^ 64) : (ofInt n).isFinite = true := by
  have hmagnitude : (ofInt n).magnitude = (n.natAbs : Binary64).magnitude := by
    rw [magnitude_natCast]
    exact magnitude_ofQuotient _ _ _
  rw [isFinite, hmagnitude]
  exact isFinite_natCast h

theorem zero_lt_natCast {n : Nat} (h : 0 < n) : (0.0 : Binary64) < (n : Binary64) := by
  exact zero_lt_ofQuotient Nat.one_pos (Nat.mul_pos h unit_pos)

theorem isNaN_div_of_isFinite (hx : x.isNaN = false) (hy : (0.0 : Binary64) < y)
    (hyf : y.isFinite = true) : (x / y).isNaN = false := by
  obtain ⟨hyn, -, hym⟩ := zero_lt_iff.1 hy
  have hyi := (isFinite_iff.1 hyf).2
  change (div x y).isNaN = false
  simp only [div, hx, hyn, hyi, Bool.false_eq_true, if_false, Nat.ne_of_gt hym]
  split
  · exact isNaN_infinity _
  · exact isNaN_ofQuotient _ _ _

theorem magnitude_zero_div (hx : x.magnitude = 0) (h : (x / y).isNaN = false) :
    (x / y).magnitude = 0 := by
  have hxn : x.isNaN = false := by simp [isNaN, hx]
  have hxi : x.isInfinite = false := by
    rw [isInfinite, hx]
    decide
  change (div x y).isNaN = false at h
  change (div x y).magnitude = 0
  simp only [div, hxn, hxi, hx, units_eq_zero hx, Bool.false_eq_true, if_false, if_true,
    Nat.zero_mul] at h ⊢
  split_ifs at h ⊢ with hyn hyi hym
  · rw [hyn] at h
    cases h
  · exact magnitude_zero _
  · exact absurd h (by decide)
  · rw [magnitude_ofQuotient, nearestMagnitude_zero]

theorem magnitude_zero_mul (hx : x.magnitude = 0) (h : (x * y).isNaN = false) :
    (x * y).magnitude = 0 := by
  have hxn : x.isNaN = false := by simp [isNaN, hx]
  change (mul x y).isNaN = false at h
  change (mul x y).magnitude = 0
  simp only [mul, hxn, hx, units_eq_zero hx, Bool.false_eq_true, if_false, true_or, if_true,
    Nat.zero_mul] at h ⊢
  split_ifs at h ⊢ with hyn hyi
  · rw [hyn] at h
    cases h
  · exact absurd h (by decide)
  · rw [magnitude_ofQuotient, nearestMagnitude_zero]

end MetricWatch.Binary64
