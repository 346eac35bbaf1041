import MetricWatch.Proofs.Regression.Exchange
import MetricWatch.Proofs.Regression.Probability

namespace MetricWatch

namespace Welch

open Binary64

variable {before after : Sample Binary64}

def freedomDividend (before after : Sample Binary64) : Binary64 :=
  (before.squaredError + after.squaredError) * (before.squaredError + after.squaredError)

def freedomDivisor (before after : Sample Binary64) : Binary64 :=
  before.squaredError * before.squaredError / ((before.size : Binary64) - 1.0) +
    after.squaredError * after.squaredError / ((after.size : Binary64) - 1.0)

theorem freedom_eq (before after : Sample Binary64) : freedom before after =
    if Scalar.IsZero before.squaredError ∨ Scalar.IsZero after.squaredError then
      pooledFreedom before after
    else if (0.0 : Binary64) < freedomDivisor before after then
      freedomDividend before after / freedomDivisor before after
    else pooledFreedom before after := by
  unfold freedom freedomDividend freedomDivisor
  rfl

/-- The samples can be tested, and both parts of the quotient for the degrees of freedom leave the
range. -/
structure Overflows (before after : Sample Binary64) : Prop where
  sizes : 2 ≤ before.size ∧ 2 ≤ after.size
  errors : ¬ (Scalar.IsZero before.squaredError ∨ Scalar.IsZero after.squaredError)
  dividend : (freedomDividend before after).isInfinite = true
  divisor : (freedomDivisor before after).isInfinite = true

instance (before after : Sample Binary64) : Decidable (Overflows before after) :=
  decidable_of_iff ((2 ≤ before.size ∧ 2 ≤ after.size) ∧
    ¬ (Scalar.IsZero before.squaredError ∨ Scalar.IsZero after.squaredError) ∧
      (freedomDividend before after).isInfinite = true ∧
        (freedomDivisor before after).isInfinite = true)
    ⟨fun ⟨hs, he, hx, hy⟩ ↦ ⟨hs, he, hx, hy⟩, fun h ↦ ⟨h.sizes, h.errors, h.dividend, h.divisor⟩⟩

theorem zero_le_squaredError {s : Sample Binary64} (hs : 2 ≤ s.size)
    (h : s.squaredError.isNaN = false) : (0.0 : Binary64) ≤ s.squaredError := by
  have hsquare := isNaN_eq_false div_isNaN_of_left h
  have hdeviation := isNaN_eq_false mul_isNaN_of_left hsquare
  exact zero_le_div (zero_le_mul_self hdeviation) (zero_lt_natCast (by omega)) h

theorem zero_lt_pred {n : Nat} (h : 2 ≤ n) : (0.0 : Binary64) < (n : Binary64) - 1.0 :=
  lt_of_lt_of_le (zero_lt_natCast Nat.one_pos) (one_le_pred h)

/-- The divisor is a sum of shares of two squares, and the dividend is no smaller than either
square. -/
theorem freedomDivisor_le (hb : 2 ≤ before.size) (ha : 2 ≤ after.size)
    (hx : (freedomDividend before after).isFinite = true)
    (hy : (freedomDivisor before after).isFinite = true) :
    (freedomDivisor before after).units ≤ 2 * (freedomDividend before after).units := by
  obtain ⟨hbf, haf⟩ := isFinite_of_add (isFinite_of_mul hx).1
  have hbn := (isFinite_iff.1 hbf).1
  have han := (isFinite_iff.1 haf).1
  have hbe := zero_le_squaredError hb hbn
  have hae := zero_le_squaredError ha han
  have hzero : (0.0 : Binary64).signedUnits = 0 := by decide
  have hbu := hzero ▸ signedUnits_mono hbe
  have hau := hzero ▸ signedUnits_mono hae
  have hsize := isSize_units hx
  have hshare {e : Binary64} {n : Nat} (he : (0.0 : Binary64) ≤ e)
      (hle : e ≤ before.squaredError + after.squaredError) (hn : 2 ≤ n) :
      AtMost (freedomDividend before after).units (e * e / ((n : Binary64) - 1.0)) := by
    refine atMost_div (k := 1) ?_ hsize (by decide) Nat.one_pos (one_le_pred hn)
    rw [Nat.one_mul]
    exact atMost_mul_self he hle hx
  exact units_add_le (hshare hbe (le_add hbf haf hbn (by omega)) hb)
    (hshare hae (le_add hbf haf han (by omega)) ha) hsize hy

theorem zero_le_freedomDivisor (hb : 2 ≤ before.size) (ha : 2 ≤ after.size)
    (h : (freedomDivisor before after).isNaN = false) :
    (0.0 : Binary64) ≤ freedomDivisor before after := by
  have hshare {e : Binary64} {n : Nat} (hn : 2 ≤ n)
      (h : (e * e / ((n : Binary64) - 1.0)).isNaN = false) :
      (0.0 : Binary64) ≤ e * e / ((n : Binary64) - 1.0) :=
    zero_le_div (zero_le_mul_self (isNaN_eq_false mul_isNaN_of_left
      (isNaN_eq_false div_isNaN_of_left h))) (zero_lt_pred hn) h
  exact add_nonneg (hshare hb (isNaN_eq_false (fun h ↦ add_isNaN (.inl h)) h))
    (hshare ha (isNaN_eq_false (fun h ↦ add_isNaN (.inr h)) h))

theorem natCast_le_zero_or (n : Nat) :
    (n : Binary64) ≤ (0.0 : Binary64) ∨ (0.5 : Binary64) ≤ (n : Binary64) := by
  cases n with
  | zero => exact .inl (by decide +kernel)
  | succ n =>
    have hone : (0.5 : Binary64) ≤ ((1 : Nat) : Binary64) := by decide +kernel
    exact .inr (le_trans hone (natCast_le_natCast (by omega)))

/-- All that is known of the degrees of freedom of samples that can be tested. -/
structure Counted (before after : Sample Binary64) (df : Binary64) : Prop where
  isNaN_iff : df.isNaN = true ↔ Overflows before after
  range : df.isNaN = false → df ≤ (0.0 : Binary64) ∨ (0.5 : Binary64) ≤ df

theorem isNaN_pooledFreedom (before after : Sample Binary64) :
    (pooledFreedom before after).isNaN = false := isNaN_natCast _

theorem counted_pooledFreedom (h : ¬ Overflows before after) :
    Counted before after (pooledFreedom before after) :=
  ⟨iff_of_false (Bool.eq_false_iff.1 (isNaN_pooledFreedom before after)) h,
    fun _ ↦ natCast_le_zero_or _⟩

theorem counted_freedom (hb : 2 ≤ before.size) (ha : 2 ≤ after.size) :
    Counted before after (freedom before after) := by
  by_cases hzero : Scalar.IsZero before.squaredError ∨ Scalar.IsZero after.squaredError
  · rw [freedom_eq, if_pos hzero]
    exact counted_pooledFreedom fun ho ↦ ho.errors hzero
  by_cases hpos : (0.0 : Binary64) < freedomDivisor before after
  · rw [freedom_eq, if_neg hzero, if_pos hpos]
    have hbn := isNaN_eq_false (fun h ↦ add_isNaN (.inl (div_isNaN_of_left
      (mul_isNaN_of_left h)))) hpos.2.1
    have han := isNaN_eq_false (fun h ↦ add_isNaN (.inr (div_isNaN_of_left
      (mul_isNaN_of_left h)))) hpos.2.1
    have hsum := add_nonneg (zero_le_squaredError hb hbn) (zero_le_squaredError ha han)
    obtain ⟨hnan, hrange⟩ := div_cases (zero_le_mul_self hsum.2.1) hpos (freedomDivisor_le hb ha)
    exact ⟨hnan.trans ⟨fun h ↦ ⟨⟨hb, ha⟩, hzero, h.1, h.2⟩, fun ho ↦ ⟨ho.dividend, ho.divisor⟩⟩,
      hrange⟩
  · rw [freedom_eq, if_neg hzero, if_neg hpos]
    refine counted_pooledFreedom fun ho ↦ hpos ?_
    have hn := Bool.eq_false_iff.2 fun h ↦ not_isInfinite_of_isNaN h ho.divisor
    exact zero_lt_of_isInfinite (zero_le_freedomDivisor hb ha hn) ho.divisor

theorem isZero_squaredError {s : Sample Binary64} (hs : 2 ≤ s.size) (h : Scalar.IsZero s.stdDev) :
    Scalar.IsZero s.squaredError := by
  have hm := magnitude_mul_self h
  have hn := isNaN_div (isFinite_of_magnitude_eq_zero hm)
    (zero_lt_natCast (n := s.size) (by omega))
  exact isZero_iff.2 ⟨hn, magnitude_zero_div hm hn⟩

/-- All that is known of a test of any two samples. -/
structure Determined (before after : Sample Binary64) (r : WelchTest Binary64) : Prop where
  freedom_isNaN_iff : r.degreesOfFreedom.isNaN = true ↔ Overflows before after
  pValue_isNaN_iff : r.pValue.isNaN = true ↔ Overflows before after ∧ Scalar.IsNumber r.tStatistic
  pValue_range : r.pValue.isNaN = false →
    (0.0 : Binary64) ≤ r.pValue ∧ r.pValue ≤ (1.0 : Binary64)

theorem determined_of_inRange {r : WelchTest Binary64} (h : ¬ Overflows before after)
    (hdf : r.degreesOfFreedom.isNaN = false)
    (hp : (0.0 : Binary64) ≤ r.pValue ∧ r.pValue ≤ (1.0 : Binary64)) :
    Determined before after r := by
  refine ⟨iff_of_false ?_ h, iff_of_false ?_ fun ho ↦ h ho.1, fun _ ↦ hp⟩
  · rw [hdf]
    exact Bool.false_ne_true
  · rw [hp.1.2.1]
    exact Bool.false_ne_true

theorem determined_untestable (h : ¬ Overflows before after) :
    Determined before after untestable :=
  determined_of_inRange h (by decide) ⟨by decide +kernel, by decide +kernel⟩

theorem determined_of_counted {df : Binary64} (h : Counted before after df) (t : Binary64) :
    Determined before after ⟨t, Tail.pValue (Scalar.abs t) df, df⟩ := by
  cases ht : t.isNaN with
  | true =>
    have hp := pValue_of_isNaN df ht
    have hzero : (0.0 : Binary64) ≤ 1.0 := Scalar.zero_le_one
    refine ⟨h.isNaN_iff, iff_of_false (fun hn ↦ ?_) fun hboth ↦ ?_, fun _ ↦ ?_⟩
    · rw [hp] at hn
      exact Bool.false_ne_true (hzero.2.1.symm.trans hn)
    · exact Bool.false_ne_true ((isNumber_iff.1 hboth.2).symm.trans ht)
    · rw [hp]
      exact ⟨hzero, Scalar.le_self_right hzero⟩
  | false =>
    have hnumber : Scalar.IsNumber (Scalar.abs t) := isNumber_iff.2 ((isNaN_abs t).trans ht)
    cases hdf : df.isNaN with
    | true =>
      have hp := Tail.pValue_isNaN hnumber hdf
      refine ⟨h.isNaN_iff, iff_of_true hp ⟨h.isNaN_iff.1 hdf, isNumber_iff.2 ht⟩, fun hfalse ↦ ?_⟩
      exact absurd (hfalse.symm.trans hp) Bool.false_ne_true
    | false =>
      refine determined_of_inRange (fun ho ↦ ?_) hdf (Tail.pValue_inRange (h.range hdf))
      exact Bool.false_ne_true (hdf.symm.trans (h.isNaN_iff.2 ho))

theorem determined_test (before after : Sample Binary64) :
    Determined before after (test before after) := by
  unfold test testBy
  split
  · exact determined_untestable fun ho ↦ by
      have hsizes := ho.sizes
      omega
  rename_i hsizes
  have hb : 2 ≤ before.size := by omega
  have ha : 2 ≤ after.size := by omega
  split
  · rename_i hdeviations
    refine determined_of_inRange (fun ho ↦ ho.errors (.inl (isZero_squaredError hb hdeviations.1)))
      (isNaN_pooledFreedom before after) ?_
    dsimp only
    split <;> decide +kernel
  dsimp only
  split
  · rename_i herror
    refine determined_untestable fun ho ↦ ?_
    have hfinite := isFinite_of_magnitude_eq_zero (magnitude_mul_self herror)
    exact Bool.false_ne_true ((isFinite_iff.1 hfinite).2.symm.trans ho.dividend)
  · exact determined_of_counted (counted_freedom hb ha) _

theorem atMost_freedomShare {s : Sample Binary64} {e : Nat} (hs : 2 ≤ s.size) (he : e = 1330)
    (h : AtMost (2 ^ e) s.stdDev) :
    AtMost (2 ^ (e + 766)) (s.squaredError * s.squaredError / ((s.size : Binary64) - 1.0)) := by
  have hsize {f : Nat} (hf : f < 2098) : IsSize (2 ^ f) := isSize_two_pow hf
  have hsquare := h.mul_self (f := e + 256) (by omega) (by omega)
  have herror : AtMost (2 ^ (e + 255)) s.squaredError := by
    refine atMost_div (k := 2) ?_ (hsize (by omega)) (by decide) two_pos (natCast_le_natCast hs)
    rwa [← Nat.pow_succ']
  refine atMost_div (k := 1) ?_ (hsize (by omega)) (by decide) Nat.one_pos (one_le_pred hs)
  rw [Nat.one_mul]
  exact herror.mul_self (by omega) (by omega)

theorem not_overflows (hb : Scalar.abs before.stdDev ≤ (1e77 : Binary64))
    (ha : Scalar.abs after.stdDev ≤ (1e77 : Binary64)) : ¬ Overflows before after := by
  rintro ⟨⟨hbs, has⟩, -, -, hinfinite⟩
  obtain ⟨e, he, hunits⟩ : ∃ e, e = 1330 ∧ (1e77 : Binary64).units ≤ 1 <<< e :=
    ⟨_, rfl, by decide +kernel⟩
  rw [Nat.one_shiftLeft] at hunits
  have hlarge : AtMost (2 ^ e) (1e77 : Binary64) := ⟨by decide +kernel, hunits⟩
  have hsum : AtMost (2 ^ (e + 767)) (freedomDivisor before after) := by
    refine (atMost_freedomShare hbs he (atMost_of_abs_le hlarge hb)).add
      (atMost_freedomShare has he (atMost_of_abs_le hlarge ha)) (isSize_two_pow (by omega)) ?_
    rw [← Nat.two_mul, ← Nat.pow_succ']
  exact Bool.false_ne_true ((isFinite_iff.1 hsum.isFinite).2.symm.trans hinfinite)

/-- A test has a probability between zero and one unless the degrees of freedom overflow while the
statistic is a number, whatever means, deviations and sizes its samples have, and it has a number of
degrees of freedom unless they overflow. No deviation up to 1e77 is large enough for that. -/
theorem probability_of_samples (before after : Sample Binary64) :
    ((test before after).degreesOfFreedom.isNaN = true ↔ Overflows before after) ∧
      ((test before after).pValue.isNaN = true ↔
        Overflows before after ∧ Scalar.IsNumber (test before after).tStatistic) ∧
      ((test before after).pValue.isNaN = false →
        (0.0 : Binary64) ≤ (test before after).pValue ∧
          (test before after).pValue ≤ (1.0 : Binary64)) ∧
      (Scalar.abs before.stdDev ≤ (1e77 : Binary64) → Scalar.abs after.stdDev ≤ (1e77 : Binary64) →
        ¬ Overflows before after) :=
  have h := determined_test before after
  ⟨h.freedom_isNaN_iff, h.pValue_isNaN_iff, h.pValue_range, not_overflows⟩

theorem probability_of_samples_apart :
    ((test ⟨0.0, 1.0, 10⟩ ⟨1.0, 1.0, 10⟩ : WelchTest Binary64).degreesOfFreedom.isNaN = false ∧
      (0.0 : Binary64) ≤ (test ⟨0.0, 1.0, 10⟩ ⟨1.0, 1.0, 10⟩).pValue ∧
      (test ⟨0.0, 1.0, 10⟩ ⟨1.0, 1.0, 10⟩).pValue ≤ (1.0 : Binary64)) := by
  obtain ⟨hdf, hp, hrange, hsmall⟩ := probability_of_samples ⟨0.0, 1.0, 10⟩ ⟨1.0, 1.0, 10⟩
  have hnot := hsmall (by decide +kernel) (by decide +kernel)
  exact ⟨Bool.eq_false_iff.2 fun h ↦ hnot (hdf.1 h),
    hrange (Bool.eq_false_iff.2 fun h ↦ hnot (hp.1 h).1)⟩

/-- Two equal samples. The deviation and the error are finite, the squares of the errors are not. -/
theorem probability_of_samples_overflow :
    (1e80 : Binary64).isFinite = true ∧ (0.0 : Binary64) ≤ 1e80 ∧
      (test ⟨0.0, 1e80, 10⟩ ⟨0.0, 1e80, 10⟩ : WelchTest Binary64).degreesOfFreedom.isNaN = true ∧
      (test ⟨0.0, 1e80, 10⟩ ⟨0.0, 1e80, 10⟩ : WelchTest Binary64).pValue.isNaN = true := by
  have hdf : (test ⟨0.0, 1e80, 10⟩ ⟨0.0, 1e80, 10⟩ : WelchTest Binary64).degreesOfFreedom.isNaN =
      true := by decide +kernel
  have h := determined_test (⟨0.0, 1e80, 10⟩ : Sample Binary64) ⟨0.0, 1e80, 10⟩
  exact ⟨by decide +kernel, by decide +kernel, hdf,
    h.pValue_isNaN_iff.2 ⟨h.freedom_isNaN_iff.1 hdf, by decide +kernel⟩⟩

end Welch

end MetricWatch
