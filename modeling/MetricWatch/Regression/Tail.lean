import MetricWatch.Scalar

namespace MetricWatch.Tail

variable {α : Type} [Scalar α]

def pi : α := 3.141592653589793

def sqrtTwo : α := 1.4142135623730951

/-- The complementary error function of a number that is not negative, by a polynomial of fifth
degree. -/
def erfc (x : α) : α :=
  let x := Scalar.larger x 0.0
  let t := 1.0 / (1.0 + 0.3275911 * x)
  let poly := ((((1.061405429 * t + -1.453152027) * t + 1.421413741) * t + -0.284496736) * t +
    0.254829592) * t
  poly * Scalar.exp (-x * x)

def normalCdf (x : α) : α :=
  if 0.0 ≤ x then 1.0 - 0.5 * erfc (x / sqrtTwo) else 0.5 * erfc (-x / sqrtTwo)

def lanczosCoefficients : List α :=
  [676.5203681218851, -1259.1392167224028, 771.3234287776531, -176.6150291621406,
    12.507343278686905, -0.13857109526572012, 9.984369578019572e-6, 1.5056327351493116e-7]

/-- Lanczos' series at a number that is not below minus one half. -/
def lanczosSum (x : α) : α :=
  lanczosCoefficients.zipIdx.foldl (fun sum (c, i) ↦ sum + c / (x + 1.0 + (i : α)))
    0.9999999999998099

def lnGammaUpper (x : α) : α :=
  let x := x - 1.0
  let t := x + 7.5
  0.5 * Scalar.ln (2.0 * pi) + (x + 0.5) * Scalar.ln t - t + Scalar.ln (lanczosSum x)

/-- The logarithm of the gamma function; below one half by reflection. -/
def lnGamma (x : α) : α :=
  if x < 0.5 then Scalar.ln (pi / Scalar.sin (pi * x)) - lnGammaUpper (1.0 - x)
  else lnGammaUpper x

/-- Keeps a divisor away from zero. -/
def guard (v : α) : α :=
  if Scalar.abs v < 1e-30 then 1e-30 else v

structure Fraction (α : Type) where
  c : α
  d : α
  value : α

def fractionStart (x a b : α) : Fraction α :=
  let d := 1.0 / guard (1.0 - (a + b) * x / (a + 1.0))
  ⟨1.0, d, d⟩

def evenStep (x a b m : α) (f : Fraction α) : Fraction α :=
  let even := m * (b - m) * x / ((a + 2.0 * m - 1.0) * (a + 2.0 * m))
  let d := 1.0 / guard (1.0 + even * f.d)
  let c := guard (1.0 + even / f.c)
  ⟨c, d, f.value * (c * d)⟩

def oddStep (x a b m : α) (f : Fraction α) : Fraction α :=
  let odd := -(a + m) * (a + b + m) * x / ((a + 2.0 * m) * (a + 2.0 * m + 1.0))
  let d := 1.0 / guard (1.0 + odd * f.d)
  let c := guard (1.0 + odd / f.c)
  ⟨c, d, f.value * (c * d)⟩

/-- Steps from index `m` on until one changes next to nothing, at most `fuel` pairs of them. -/
def fractionFrom (x a b : α) (m fuel : Nat) (f : Fraction α) : α :=
  match fuel with
  | 0 => f.value
  | fuel + 1 =>
    let f := oddStep x a b (m : α) (evenStep x a b (m : α) f)
    if Scalar.abs (f.c * f.d - 1.0) < 1e-15 then f.value
    else fractionFrom x a b (m + 1) fuel f

def betaFraction (x a b : α) : α := fractionFrom x a b 1 300 (fractionStart x a b)

/-- The regularised incomplete beta function. Reflection keeps the continued fraction
convergent. -/
def incompleteBeta (x a b : α) : α :=
  if x ≤ 0.0 then 0.0
  else if 1.0 ≤ x then 1.0
  else
    let lnBeta := lnGamma a + lnGamma b - lnGamma (a + b)
    let front := Scalar.exp (a * Scalar.ln x + b * Scalar.ln (1.0 - x) - lnBeta)
    if x < (a + 1.0) / (a + b + 2.0) then front * betaFraction x a b / a
    else 1.0 - front * betaFraction (1.0 - x) b a / b

def normalFrom : α := 30.0

/-- The probability of a statistic at least as far from zero, with `df` degrees of freedom. -/
def pValue (t df : α) : α :=
  if df ≤ 0.0 ∨ ¬ Scalar.IsNumber t then 1.0
  else
    let t := Scalar.abs t
    Scalar.clamp 0.0 1.0
      (if normalFrom < df then erfc (t / sqrtTwo)
        else incompleteBeta (df / (df + t * t)) (df / 2.0) 0.5)

end MetricWatch.Tail
