import Mathlib.Tactic.Ring
import MetricWatch.Decimal

namespace MetricWatch.Decimal

theorem ofDigits_eq (digits : List Char) : ofDigits digits = Nat.ofDigitChars 10 digits 0 := rfl

@[simp]
theorem ofDigits_toDigits (n : Nat) : ofDigits (Nat.toDigits 10 n) = n :=
  Nat.ofDigitChars_ten_toDigits

theorem ofDigits_append (digits digits' : List Char) :
    ofDigits (digits ++ digits') = ofDigits digits * 10 ^ digits'.length + ofDigits digits' := by
  rw [ofDigits_eq, Nat.ofDigitChars_append, Nat.ofDigitChars_eq_ofDigitChars_zero, Nat.mul_comm]
  rfl

@[simp]
theorem ofDigits_zeros (n : Nat) : ofDigits (zeros n) = 0 := by
  rw [ofDigits_eq, zeros, Nat.ofDigitChars_replicate_zero, Nat.mul_zero]

@[simp]
theorem length_zeros (n : Nat) : (zeros n).length = n := List.length_replicate

@[simp]
theorem ofDigits_zeros_append (n : Nat) (digits : List Char) :
    ofDigits (zeros n ++ digits) = ofDigits digits := by
  rw [ofDigits_append, ofDigits_zeros, Nat.zero_mul, Nat.zero_add]

@[simp]
theorem ofDigits_append_zeros (n : Nat) (digits : List Char) :
    ofDigits (digits ++ zeros n) = ofDigits digits * 10 ^ n := by
  rw [ofDigits_append, ofDigits_zeros, length_zeros, Nat.add_zero]

theorem isDigit_of_mem_toDigits {n : Nat} {c : Char} (h : c ∈ Nat.toDigits 10 n) :
    c.isDigit = true := Nat.isDigit_of_mem_toDigits (by decide) (by decide) h

theorem isDigit_of_mem_zeros {n : Nat} {c : Char} (h : c ∈ zeros n) : c.isDigit = true := by
  rw [List.eq_of_mem_replicate h]
  decide

theorem toDigits_eq_cons {n : Nat} (h : 0 < n) :
    ∃ c digits, Nat.toDigits 10 n = c :: digits ∧ c ≠ '0' := by
  induction n using Nat.strongRecOn with
  | ind n ih =>
    rcases Nat.lt_or_ge n 10 with hlt | hge
    · refine ⟨n.digitChar, [], Nat.toDigits_of_lt_base hlt, ?_⟩
      rw [Ne, Nat.digitChar_eq_zero]
      omega
    · obtain ⟨c, digits, hdigits, hc⟩ := ih (n / 10) (by omega) (by omega)
      refine ⟨c, digits ++ [Nat.digitChar (n % 10)], ?_, hc⟩
      rw [Nat.toDigits_of_base_le (by decide) hge, hdigits, List.cons_append]

end MetricWatch.Decimal
