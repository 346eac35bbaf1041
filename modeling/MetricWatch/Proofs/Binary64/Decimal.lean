import MetricWatch.Binary64.Shortest
import MetricWatch.Proofs.Binary64.Rounding
import MetricWatch.Proofs.Decimal.Literal
import Mathlib.Tactic.SplitIfs

namespace MetricWatch.Binary64

theorem ofMagnitude_self (x : Binary64) : ofMagnitude x.negative x.magnitude = x := by
  have hlt : x.bits.toNat < 2 * signWeight := x.bits.toNat_lt
  have hbits : (if x.negative = true then signWeight + x.magnitude else x.magnitude) =
      x.bits.toNat := by
    simp only [negative, magnitude, decide_eq_true_eq]
    unfold signWeight at *
    split <;> omega
  rw [ofMagnitude, hbits, UInt64.ofNat_toNat]

theorem nearestMagnitude_congr {n d n' d' : Nat} (hd : 0 < d) (hd' : 0 < d')
    (h : n * d' = n' * d) : nearestMagnitude n d = nearestMagnitude n' d' :=
  Nat.le_antisymm (nearestMagnitude_mono hd hd' (Nat.le_of_eq h))
    (nearestMagnitude_mono hd' hd (Nat.le_of_eq h.symm))

theorem log2_shiftLeft {n : Nat} (hn : n ≠ 0) (s : Nat) : (n <<< s).log2 = n.log2 + s := by
  rw [Nat.shiftLeft_eq]
  induction s with
  | zero => simp
  | succ s ih =>
    have hpos : n * 2 ^ s ≠ 0 := Nat.mul_ne_zero hn (Nat.two_pow_pos s).ne'
    rw [Nat.pow_succ, ← Nat.mul_assoc, Nat.mul_comm, Nat.log2_two_mul hpos, ih, Nat.add_assoc]

theorem nearest_mul_self (n : Nat) {d : Nat} (hd : 0 < d) : nearest (n * d) d = n := by
  have hne : ¬ 0 = d := by omega
  simp [nearest, Nat.mul_div_cancel _ hd, hne]

theorem nearestMagnitude_unitsOf {m : Nat} (h : m ≤ infiniteMagnitude) :
    nearestMagnitude (unitsOf m) 1 = m := by
  by_cases hm : m < 2 * binade
  · rw [unitsOf, if_pos hm, nearestMagnitude_one hm]
  · rw [unitsOf, if_neg hm]
    have hlog : (m % binade + binade).log2 = 52 := by
      have hne : m % binade + binade ≠ 0 := by
        unfold binade
        omega
      rw [Nat.log2_eq_iff hne]
      unfold binade
      omega
    have hshift : ((m % binade + binade) <<< (m / binade - 1)).log2 - 52 = m / binade - 1 := by
      have hne : m % binade + binade ≠ 0 := by
        unfold binade
        omega
      rw [log2_shiftLeft hne, hlog, Nat.add_sub_cancel_left]
    have hparts : (m / binade - 1) * binade + (m % binade + binade) = m := by
      unfold binade at *
      omega
    simp only [nearestMagnitude, Nat.div_one, hshift]
    rw [Nat.shiftLeft_eq, Nat.shiftLeft_eq, Nat.one_mul,
      nearest_mul_self _ (Nat.two_pow_pos _), hparts, Nat.min_eq_left h]

theorem nearestMagnitude_eq_infinite {m k : Nat} (hm : m ≠ 0) (hk : 401 ≤ k) :
    nearestMagnitude (m * 10 ^ k * unit) 1 = infiniteMagnitude := by
  obtain ⟨w, hw, hbound⟩ : ∃ w, w = 401 ∧
      nearestMagnitude (Nat.pow 10 w * unit) 1 = infiniteMagnitude := ⟨_, rfl, by decide +kernel⟩
  have hwk : w ≤ k := hw ▸ hk
  apply Nat.le_antisymm (nearestMagnitude_le _ 1)
  rw [← hbound]
  apply nearestMagnitude_mono Nat.one_pos Nat.one_pos
  apply Nat.mul_le_mul_right
  apply Nat.mul_le_mul_right
  calc 10 ^ w ≤ 10 ^ k := Nat.pow_le_pow_right (by decide) hwk
    _ ≤ m * 10 ^ k := Nat.le_mul_of_pos_left _ (Nat.pos_of_ne_zero hm)

theorem nearestMagnitude_eq_zero {n d : Nat} (hd : 0 < d) (h : n * 4 ≤ d) :
    nearestMagnitude n d = 0 := by
  have hquarter : nearestMagnitude 1 4 = 0 := by decide
  have hmono : nearestMagnitude n d ≤ nearestMagnitude 1 4 :=
    nearestMagnitude_mono hd (by decide) (by omega)
  omega

theorem finePerUnit_eq_five_pow : ∃ w, w = 1074 ∧ finePerUnit = 5 ^ w :=
  ⟨1074, rfl, by decide +kernel⟩

theorem finePerUnit_pos : 0 < finePerUnit := by
  obtain ⟨w, -, h⟩ := finePerUnit_eq_five_pow
  rw [h]
  exact Nat.pow_pos (by decide)

/-- The test for what vanishes is on the safe side: ten is more than two to the power of three. -/
theorem mul_unit_le_of_log2 {m : Nat} {e : Int} (h : (m.log2 : Int) + 3 * e < -3000) :
    m * unit * 4 ≤ 10 ^ (-e).toNat := by
  obtain ⟨k, hk⟩ : ∃ k : Nat, e = -k := ⟨(-e).toNat, by omega⟩
  obtain ⟨w, hw, hunit⟩ := unit_eq_two_pow
  have hexp : m.log2 + 1 + w + 2 ≤ 3 * k := by omega
  calc m * unit * 4 ≤ 2 ^ (m.log2 + 1) * 2 ^ w * 2 ^ 2 := by
        apply Nat.mul_le_mul_right
        exact Nat.mul_le_mul (Nat.le_of_lt Nat.lt_log2_self) (Nat.le_of_eq hunit)
    _ = 2 ^ (m.log2 + 1 + w + 2) := by rw [← Nat.pow_add, ← Nat.pow_add]
    _ ≤ 2 ^ (3 * k) := Nat.pow_le_pow_right (by decide) hexp
    _ = 8 ^ k := by rw [Nat.pow_mul]
    _ ≤ 10 ^ k := Nat.pow_le_pow_left (by decide) k
    _ = 10 ^ (-e).toNat := by rw [hk, Int.neg_neg, Int.toNat_natCast]

theorem ofDecimal_eq (negative : Bool) (m : Nat) (e : Int) :
    ofDecimal negative m e =
      ofQuotient negative (m * 10 ^ e.toNat * unit) (10 ^ (-e).toNat) := by
  unfold ofDecimal
  simp only [Nat.pow_eq]
  split_ifs with hm hlarge hsmall hneg
  · rw [hm, Nat.zero_mul, Nat.zero_mul, ofQuotient, nearestMagnitude_zero, zero]
  · have hone : (-e).toNat = 0 := by omega
    rw [hone, Nat.pow_zero, ofQuotient, nearestMagnitude_eq_infinite hm (by omega), infinity]
  · have hzero : e.toNat = 0 := by omega
    rw [hzero, Nat.pow_zero, Nat.mul_one, ofQuotient,
      nearestMagnitude_eq_zero (Nat.pow_pos (by decide)) (mul_unit_le_of_log2 hsmall), zero]
  · have hone : (-e).toNat = 0 := by omega
    rw [hone, Nat.pow_zero]
  · have hzero : e.toNat = 0 := by omega
    rw [hzero, Nat.pow_zero, Nat.mul_one]

theorem ofDecimal_congr (negative : Bool) {m m' : Nat} {e e' : Int}
    (h : m * 10 ^ (e.toNat + (-e').toNat) = m' * 10 ^ (e'.toNat + (-e).toNat)) :
    ofDecimal negative m e = ofDecimal negative m' e' := by
  rw [Nat.pow_add, Nat.pow_add] at h
  have hvalue : m * 10 ^ e.toNat * unit * 10 ^ (-e').toNat =
      m' * 10 ^ e'.toNat * unit * 10 ^ (-e).toNat := by
    calc m * 10 ^ e.toNat * unit * 10 ^ (-e').toNat
        = m * (10 ^ e.toNat * 10 ^ (-e').toNat) * unit := by ring
      _ = m' * (10 ^ e'.toNat * 10 ^ (-e).toNat) * unit := by rw [h]
      _ = m' * 10 ^ e'.toNat * unit * 10 ^ (-e).toNat := by ring
  rw [ofDecimal_eq, ofDecimal_eq, ofQuotient, ofQuotient,
    nearestMagnitude_congr (Nat.pow_pos (by decide)) (Nat.pow_pos (by decide)) hvalue]

theorem ofDecimal_mul_pow (negative : Bool) (m k : Nat) (e : Int) :
    ofDecimal negative (m * 10 ^ k) e = ofDecimal negative m (e + k) := by
  apply ofDecimal_congr
  rw [Nat.mul_assoc, ← Nat.pow_add]
  congr 2
  omega

theorem ofDecimal_of_denotes (negative : Bool) {l : Decimal.Literal} {d : Decimal}
    (h : l.Denotes d) :
    ofDecimal negative l.digits l.exponent = ofDecimal negative d.digits d.exponent := by
  rcases h with ⟨hl, hd⟩ | ⟨k, hdigits, hexponent⟩
  · rw [hl, hd, ofDecimal, ofDecimal, if_pos rfl, if_pos rfl]
  · rw [hdigits, ofDecimal_mul_pow, hexponent]

theorem ofDecimal_trim (negative : Bool) (d : Decimal) :
    ofDecimal negative d.trim.digits d.trim.exponent = ofDecimal negative d.digits d.exponent := by
  fun_induction Decimal.trim d with
  | case1 d h ih =>
    have hten : d.digits = d.digits / 10 * 10 ^ 1 := by omega
    rw [ih]
    conv_rhs => rw [hten, ofDecimal_mul_pow]
    rfl
  | case2 d h => rfl

theorem ofDecimal_fine (negative : Bool) (digits scale : Nat) :
    ofDecimal negative digits ((scale : Int) - 1074) =
      ofMagnitude negative (magnitudeOfFine (digits * 10 ^ scale)) := by
  obtain ⟨w, hw, hunit⟩ := unit_eq_two_pow
  obtain ⟨w', hw', hfine⟩ := finePerUnit_eq_five_pow
  obtain rfl : w' = w := hw'.trans hw.symm
  have hexp : ((scale : Int) - 1074).toNat + w' = scale + (-((scale : Int) - 1074)).toNat := by
    omega
  have hvalue : digits * 10 ^ ((scale : Int) - 1074).toNat * unit * finePerUnit =
      digits * 10 ^ scale * 10 ^ (-((scale : Int) - 1074)).toNat := by
    rw [hunit, hfine, Nat.mul_assoc, ← Nat.mul_pow, Nat.mul_assoc, Nat.mul_assoc, ← Nat.pow_add,
      ← Nat.pow_add, hexp]
  rw [ofDecimal_eq, ofQuotient, magnitudeOfFine,
    nearestMagnitude_congr (Nat.pow_pos (by decide)) finePerUnit_pos hvalue]

theorem magnitudeOfFine_of_neighbour? {tie : Tie} {m fine scale digits : Nat}
    (h : neighbour? tie m fine scale = some digits) :
    magnitudeOfFine (digits * 10 ^ scale) = m := by
  unfold neighbour? at h
  extract_lets spacing below excess hitBelow hitAbove aboveNearer at h
  have hpow : 10 ^ scale = spacing := Nat.pow_eq.symm
  rw [hpow]
  split_ifs at h with hboth hnearer hbelow habove
  · obtain rfl := Option.some.inj h
    exact hboth.2
  · obtain rfl := Option.some.inj h
    exact hboth.1
  · obtain rfl := Option.some.inj h
    exact hbelow
  · obtain rfl := Option.some.inj h
    exact habove

theorem magnitudeOfFine_unitsOf {m : Nat} (h : m ≤ infiniteMagnitude) :
    magnitudeOfFine (unitsOf m * finePerUnit) = m := by
  have hvalue : unitsOf m * finePerUnit * 1 = unitsOf m * finePerUnit := by rw [Nat.mul_one]
  have hcongr := nearestMagnitude_congr finePerUnit_pos Nat.one_pos hvalue
  rw [magnitudeOfFine, hcongr, nearestMagnitude_unitsOf h]

/-- What is found, if anything, is a neighbour that reads back. Else the value itself is taken. -/
theorem shortestOf_eq (tie : Tie) {m : Nat} (h : m ≤ infiniteMagnitude) :
    ∃ digits scale : Nat, shortestOf tie m = Decimal.trim ⟨digits, (scale : Int) - 1074⟩ ∧
      magnitudeOfFine (digits * 10 ^ scale) = m := by
  unfold shortestOf
  dsimp only
  generalize hfound : (List.range 17).findSome? _ = found
  cases found with
  | none =>
    refine ⟨unitsOf m * finePerUnit, 0, congrArg Decimal.trim ?_, ?_⟩
    · rw [Option.getD_none]
    · rw [Nat.pow_zero, Nat.mul_one, magnitudeOfFine_unitsOf h]
  | some pair =>
    obtain ⟨k, -, hk⟩ := List.exists_of_findSome?_eq_some hfound
    obtain ⟨digits, hdigits, rfl⟩ := Option.map_eq_some_iff.1 hk
    refine ⟨digits, _, congrArg Decimal.trim ?_, magnitudeOfFine_of_neighbour? hdigits⟩
    rw [Option.getD_some]

theorem ofDecimal_shortest (tie : Tie) {x : Binary64} (h : x.isFinite = true) :
    ofDecimal x.negative (x.shortest tie).digits (x.shortest tie).exponent = x := by
  have hm : x.magnitude ≤ infiniteMagnitude := Nat.le_of_lt (of_decide_eq_true h)
  unfold shortest
  split
  · rename_i hzero
    rw [ofDecimal, if_pos rfl, zero, ← hzero, ofMagnitude_self]
  · obtain ⟨digits, scale, hdecimal, hread⟩ := shortestOf_eq tie hm
    rw [hdecimal, ofDecimal_trim, ofDecimal_fine, hread, ofMagnitude_self]

end MetricWatch.Binary64
