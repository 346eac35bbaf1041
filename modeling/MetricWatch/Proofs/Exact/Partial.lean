import MetricWatch.Proofs.Exact.Arithmetic

namespace MetricWatch

inductive PartialReal where
  | undefined
  | of (x : ℝ)

namespace PartialReal

def map (f : ℝ → ℝ) : PartialReal → PartialReal
  | of x => of (f x)
  | undefined => undefined

def map₂ (f : ℝ → ℝ → ℝ) : PartialReal → PartialReal → PartialReal
  | of x, of y => of (f x y)
  | _, _ => undefined

noncomputable def quotient : PartialReal → PartialReal → PartialReal
  | of x, of y => if y = 0 then undefined else of (x / y)
  | _, _ => undefined

noncomputable def root : PartialReal → PartialReal
  | of x => if x < 0 then undefined else of √x
  | undefined => undefined

noncomputable def log : PartialReal → PartialReal
  | of x => if 0 < x then of (Real.log x) else undefined
  | undefined => undefined

/-- A comparison holds between real numbers only. -/
def Compares (r : ℝ → ℝ → Prop) : PartialReal → PartialReal → Prop
  | of x, of y => r x y
  | _, _ => False

def SortsBefore : PartialReal → PartialReal → Prop
  | _, undefined => True
  | undefined, of _ => False
  | of x, of y => x ≤ y

open Classical in
noncomputable instance : Scalar PartialReal where
  add := map₂ (· + ·)
  sub := map₂ (· - ·)
  mul := map₂ (· * ·)
  div := quotient
  neg := map (- ·)
  natCast n := of n
  ofScientific m s e := of (OfScientific.ofScientific m s e)
  le := Compares (· ≤ ·)
  lt := Compares (· < ·)
  abs := map (|·|)
  sqrt := root
  exp := map Real.exp
  ln := log
  sin := map Real.sin
  wholePart
    | of x => ⌊x⌋₊
    | undefined => 0
  word := Int.toNat
  isFinite
    | of _ => true
    | undefined => false
  sortsBefore x y := decide (SortsBefore x y)
  decidableLE _ _ := inferInstance
  decidableLT _ _ := inferInstance
  zero_le_one := (Scalar.zero_le_one : (0.0 : ℝ) ≤ 1.0)
  le_self_left {a b} h := by
    cases a with
    | undefined => exact h
    | of x => exact le_refl x
  le_self_right {a b} h := by
    cases b with
    | undefined => cases a <;> exact h
    | of y => exact le_refl y
  le_of_not_lt {a b} ha hb h := by
    cases a with
    | undefined => exact ha.elim
    | of x =>
      cases b with
      | undefined => exact hb.elim
      | of y => exact le_of_not_gt h

variable {x y : ℝ}

@[simp]
theorem of_add (x y : ℝ) : of x + of y = of (x + y) := rfl

@[simp]
theorem of_sub (x y : ℝ) : of x - of y = of (x - y) := rfl

@[simp]
theorem of_mul (x y : ℝ) : of x * of y = of (x * y) := rfl

@[simp]
theorem of_neg (x : ℝ) : -of x = of (-x) := rfl

@[simp]
theorem natCast_eq (n : Nat) : (n : PartialReal) = of n := rfl

@[simp]
theorem literal_eq (m : Nat) (s : Bool) (e : Nat) :
    (OfScientific.ofScientific m s e : PartialReal) = of (OfScientific.ofScientific m s e) := rfl

@[simp]
theorem abs_of (x : ℝ) : Scalar.abs (of x) = of (Scalar.abs x) := rfl

@[simp]
theorem exp_of (x : ℝ) : Scalar.exp (of x) = of (Scalar.exp x) := rfl

@[simp]
theorem of_le_of : of x ≤ of y ↔ x ≤ y := Iff.rfl

@[simp]
theorem of_lt_of : of x < of y ↔ x < y := Iff.rfl

theorem clamp_of (low high x : ℝ) :
    Scalar.clamp (of low) (of high) (of x) = of (Scalar.clamp low high x) := by
  simp only [Scalar.clamp, of_lt_of]
  split
  · rfl
  · split <;> rfl

theorem div_eq_of_iff {p q : PartialReal} {z : ℝ} :
    p / q = of z ↔ ∃ x y, p = of x ∧ q = of y ∧ y ≠ 0 ∧ x / y = z := by
  constructor
  · intro h
    cases p with
    | undefined => exact nomatch h
    | of x =>
      cases q with
      | undefined => exact nomatch h
      | of y =>
        change (if y = 0 then undefined else of (x / y)) = of z at h
        split at h
        · exact nomatch h
        · rename_i hy
          exact ⟨x, y, rfl, rfl, hy, of.inj h⟩
  · rintro ⟨x, y, rfl, rfl, hy, rfl⟩
    exact if_neg hy

theorem ln_eq_of_iff {p : PartialReal} {z : ℝ} :
    Scalar.ln p = of z ↔ ∃ x, p = of x ∧ 0 < x ∧ Scalar.ln x = z := by
  constructor
  · intro h
    cases p with
    | undefined => exact nomatch h
    | of x =>
      change (if 0 < x then of (Real.log x) else undefined) = of z at h
      split at h
      · rename_i hx
        exact ⟨x, rfl, hx, of.inj h⟩
      · exact nomatch h
  · rintro ⟨x, rfl, hx, rfl⟩
    exact if_pos hx

theorem of_div (h : y ≠ 0) : of x / of y = of (x / y) := div_eq_of_iff.2 ⟨x, y, rfl, rfl, h, rfl⟩

theorem ln_of (h : 0 < x) : Scalar.ln (of x) = of (Scalar.ln x) := ln_eq_of_iff.2 ⟨x, rfl, h, rfl⟩

end PartialReal

end MetricWatch
