import MetricWatch.Instant.Rfc3339
import MetricWatch.Proofs.Blank
import MetricWatch.Proofs.Decimal.Digits
import MetricWatch.Proofs.Instant.Calendar

namespace MetricWatch

open Decimal

variable {digits rest : List Char} {c : Char} {n width limit : Nat}

namespace Instant

theorem isDigit_of_mem_padded (h : c ∈ padded width n) : c.isDigit = true := by
  rcases List.mem_append.1 h with h | h
  · exact isDigit_of_mem_zeros h
  · exact isDigit_of_mem_toDigits h

theorem padded_ne_nil (width n : Nat) : padded width n ≠ [] :=
  List.append_ne_nil_of_right_ne_nil _ Nat.toDigits_ne_nil

theorem ofDigits_padded (width n : Nat) : ofDigits (padded width n) = n := by
  rw [padded, ofDigits_zeros_append, ofDigits_toDigits]

theorem length_padded (hwidth : 0 < width) (h : n < 10 ^ width) :
    (padded width n).length = width := by
  have hlength := (Nat.length_toDigits_le_iff (by decide : 1 < 10) hwidth).2 h
  rw [padded, List.length_append, length_zeros]
  omega

theorem takeNumber?_append (hne : digits ≠ []) (hdigits : ∀ c ∈ digits, c.isDigit = true)
    (hlimit : digits.length ≤ limit)
    (hrest : digits.length = limit ∨ ∃ c tail, rest = c :: tail ∧ c.isDigit = false) :
    takeNumber? limit (digits ++ rest) = some (ofDigits digits, rest) := by
  have hstop : (rest.take (limit - digits.length)).takeWhile Char.isDigit = [] := by
    rcases hrest with hlength | ⟨c, tail, rfl, hc⟩
    · rw [hlength, Nat.sub_self, List.take_zero, List.takeWhile_nil]
    · cases limit - digits.length with
      | zero => rfl
      | succ k => rw [List.take_succ_cons, List.takeWhile_cons_of_neg (Bool.eq_false_iff.1 hc)]
  have htaken : ((digits ++ rest).take limit).takeWhile Char.isDigit = digits := by
    rw [List.take_append, List.take_of_length_le hlimit, List.takeWhile_append_of_pos hdigits,
      hstop, List.append_nil]
  rw [takeNumber?, htaken, if_neg hne, List.drop_left]

theorem takeField?_padded (h : n < 100) (rest : List Char) :
    takeField? (padded 2 n ++ rest) = some (n, rest) := by
  have hlength : (padded 2 n).length = 2 := length_padded Nat.two_pos h
  have hdigits : ∀ c ∈ padded 2 n, c.isDigit = true := fun c ↦ isDigit_of_mem_padded
  rw [takeField?, dropBlanks_append (padded_ne_nil 2 n) hdigits,
    takeNumber?_append (padded_ne_nil 2 n) hdigits (Nat.le_of_eq hlength) (.inl hlength),
    ofDigits_padded]

theorem dropSeparator?_cons (h : isBlank c = false) : dropSeparator? c (c :: rest) = some rest := by
  rw [dropSeparator?, dropBlanks_cons h]
  exact if_pos rfl

theorem takeYear?_minus (rest : List Char) :
    takeYear? ('-' :: rest) = (takeNumber? rest.length rest).map fun r ↦ (-(r.1 : Int), r.2) := rfl

theorem takeYear?_plus (rest : List Char) :
    takeYear? ('+' :: rest) = (takeNumber? rest.length rest).map fun r ↦ ((r.1 : Int), r.2) := rfl

theorem takeYear?_yearText (year : Int) (rest : List Char) :
    takeYear? (yearText year ++ '-' :: rest) = some (year, '-' :: rest) := by
  have hdigits : ∀ m, ∀ c ∈ padded 4 m, c.isDigit = true := fun m c ↦ isDigit_of_mem_padded
  have hnumber : ∀ m, takeNumber? (padded 4 m ++ '-' :: rest).length (padded 4 m ++ '-' :: rest) =
      some (m, '-' :: rest) := by
    intro m
    have hlimit : (padded 4 m).length ≤ (padded 4 m ++ '-' :: rest).length := by simp
    rw [takeNumber?_append (padded_ne_nil 4 m) (hdigits m) hlimit (.inr ⟨'-', rest, rfl, rfl⟩),
      ofDigits_padded]
  unfold yearText
  split_ifs with hplain hnegative
  · have hlength : (padded 4 year.toNat).length = 4 := length_padded (by decide) (by omega)
    have htake : takeNumber? 4 (padded 4 year.toNat ++ '-' :: rest) =
        some (ofDigits (padded 4 year.toNat), '-' :: rest) :=
      takeNumber?_append (padded_ne_nil 4 _) (hdigits _) (Nat.le_of_eq hlength) (.inl hlength)
    rw [takeYear?, dropBlanks_append (padded_ne_nil 4 _) (hdigits _)]
    obtain ⟨c, tail, hcons⟩ := List.exists_cons_of_ne_nil (padded_ne_nil 4 year.toNat)
    have hc : c.isDigit = true := hdigits year.toNat c (hcons ▸ List.mem_cons_self)
    rw [hcons, List.cons_append] at htake ⊢
    split
    · rename_i heq
      rw [(List.cons.inj heq).1] at hc
      cases hc
    · rename_i heq
      rw [(List.cons.inj heq).1] at hc
      cases hc
    · have hyear : (year.toNat : Int) = year := Int.toNat_of_nonneg hplain.1
      rw [htake, ← hcons, ofDigits_padded, Option.map_some]
      dsimp only
      rw [hyear]
  · have hyear : -(year.natAbs : Int) = year := by omega
    rw [List.cons_append, takeYear?_minus, hnumber, Option.map_some, hyear]
  · have hyear : (year.natAbs : Int) = year := by omega
    rw [List.cons_append, takeYear?_plus, hnumber, Option.map_some, hyear]

theorem takeDate?_dateText {d : Date} (hmonth : d.month < 100) (hday : d.day < 100)
    (rest : List Char) : takeDate? (dateText d ++ rest) = some (d, rest) := by
  have htext : dateText d ++ rest =
      yearText d.year ++ '-' :: (padded 2 d.month ++ '-' :: (padded 2 d.day ++ rest)) := by
    simp [dateText]
  have hhyphen : isBlank '-' = false := rfl
  simp only [takeDate?, htext, takeYear?_yearText, dropSeparator?_cons hhyphen,
    takeField?_padded hmonth, takeField?_padded hday, Option.bind_eq_bind, Option.bind_some]
  rfl

theorem takeFraction?_padded (hwidth : 0 < width) (hnine : width ≤ 9) (h : n < 10 ^ width)
    (hc : c.isDigit = false) (tail : List Char) :
    takeFraction? ('.' :: padded width n ++ c :: tail) = some (n * 10 ^ (9 - width), c :: tail) := by
  have hdigits : ∀ c ∈ padded width n, c.isDigit = true := fun c ↦ isDigit_of_mem_padded
  have hlength := length_padded hwidth h
  have htaken : (padded width n ++ c :: tail).takeWhile Char.isDigit = padded width n := by
    rw [List.takeWhile_append_of_pos hdigits, List.takeWhile_cons_of_neg (Bool.eq_false_iff.1 hc),
      List.append_nil]
  have hleft : (padded width n ++ c :: tail).dropWhile Char.isDigit = c :: tail := by
    rw [List.dropWhile_append_of_pos hdigits, List.dropWhile_cons_of_neg (Bool.eq_false_iff.1 hc)]
  have hkept : (padded width n).take 9 = padded width n := List.take_of_length_le (by omega)
  rw [List.cons_append, takeFraction?, htaken, if_neg (padded_ne_nil width n)]
  dsimp only
  rw [hkept, ofDigits_padded, hlength, hleft, Nat.pow_eq]

theorem takeFraction?_fractionText {nano : Nat} (h : nano < nanosPerSecond)
    (hdigit : c.isDigit = false) (hpoint : c ≠ '.') (tail : List Char) :
    takeFraction? (fractionText nano ++ c :: tail) = some (nano, c :: tail) := by
  have hsecond : nanosPerSecond = 1000000000 := rfl
  unfold fractionText
  split_ifs with hzero hmillis hmicros
  · rw [hzero, List.nil_append]
    unfold takeFraction?
    split
    · rename_i heq
      exact absurd (List.cons.inj heq).1 hpoint
    · rfl
  · have hnano : nano / 1000000 * 10 ^ (9 - 3) = nano := by omega
    rw [takeFraction?_padded (by decide) (by decide) (by omega) hdigit, hnano]
  · have hnano : nano / 1000 * 10 ^ (9 - 6) = nano := by omega
    rw [takeFraction?_padded (by decide) (by decide) (by omega) hdigit, hnano]
  · have hnano : nano * 10 ^ (9 - 9) = nano := Nat.mul_one nano
    rw [takeFraction?_padded (by decide) (by decide) h hdigit, hnano]

/-- What the time of day of an instant is read as. -/
def clock (t : Instant) : ClockTime where
  hour := t.secondOfDay / 3600
  minute := t.secondOfDay / 60 % 60
  second := t.secondOfDay % 60 + if t.isLeap then 1 else 0
  nano := t.nano % nanosPerSecond

theorem secondOfDay_lt (t : Instant) : t.secondOfDay < 86400 := by
  unfold secondOfDay
  omega

theorem clock_second_le (t : Instant) : t.clock.second ≤ 60 := by
  unfold clock
  dsimp only
  split_ifs
  · omega
  · omega

theorem takeTime?_timeText (t : Instant) (hdigit : c.isDigit = false) (hpoint : c ≠ '.')
    (tail : List Char) : takeTime? (timeText t ++ c :: tail) = some (t.clock, c :: tail) := by
  have hday := t.secondOfDay_lt
  have hhour : t.clock.hour < 100 := by
    unfold clock
    dsimp only
    omega
  have hminute : t.clock.minute < 100 := by
    unfold clock
    dsimp only
    omega
  have hsecond : t.clock.second < 100 := Nat.lt_of_le_of_lt t.clock_second_le (by decide)
  have hnano : t.clock.nano < nanosPerSecond := Nat.mod_lt _ (by decide)
  have htext : timeText t ++ c :: tail = padded 2 t.clock.hour ++ ':' :: (padded 2 t.clock.minute ++
      ':' :: (padded 2 t.clock.second ++ (fractionText t.clock.nano ++ c :: tail))) := by
    simp [timeText, clock]
  have hcolon : isBlank ':' = false := rfl
  simp only [takeTime?, htext, takeField?_padded hhour, takeField?_padded hminute,
    takeField?_padded hsecond, dropSeparator?_cons hcolon,
    takeFraction?_fractionText hnano hdigit hpoint, Option.bind_eq_bind, Option.bind_some]
  rfl

theorem secondOfDay_add (t : Instant) :
    t.second / 86400 * 86400 + (t.secondOfDay : Int) = t.second := by
  unfold secondOfDay
  omega

theorem clock_of_isLeap {t : Instant} (h : t.isLeap = true) :
    t.secondOfDay % 60 = 59 ∧ t.clock.second = 60 ∧ t.clock.nano + nanosPerSecond = t.nano := by
  have hle : nanosPerSecond ≤ t.nano := of_decide_eq_true h
  have hlt := t.nano_lt
  have hlast : t.secondOfDay % 60 = 59 := by
    have hminute := t.leap hle
    unfold secondOfDay
    omega
  refine ⟨hlast, ?_, ?_⟩
  · simp [clock, hlast, h]
  · simp only [clock, Nat.mod_eq_sub_mod hle]
    rw [Nat.mod_eq_of_lt (by omega)]
    omega

theorem clock_of_not_isLeap {t : Instant} (h : ¬ t.isLeap = true) :
    t.clock.second = t.secondOfDay % 60 ∧ t.clock.nano = t.nano := by
  have hlt : t.nano < nanosPerSecond := Nat.lt_of_not_le fun hle ↦ h (decide_eq_true hle)
  exact ⟨by simp [clock, h], Nat.mod_eq_of_lt hlt⟩

theorem clock_secondOfDay (t : Instant) :
    t.clock.hour * 3600 + t.clock.minute * 60 + min t.clock.second 59 = t.secondOfDay := by
  have hhour : t.clock.hour = t.secondOfDay / 3600 := rfl
  have hminute : t.clock.minute = t.secondOfDay / 60 % 60 := rfl
  by_cases h : t.isLeap = true
  · obtain ⟨hlast, hsecond, -⟩ := clock_of_isLeap h
    omega
  · obtain ⟨hsecond, -⟩ := clock_of_not_isLeap h
    omega

theorem clock_nano (t : Instant) :
    (t.clock.nano + if t.clock.second = 60 then nanosPerSecond else 0) = t.nano := by
  by_cases h : t.isLeap = true
  · obtain ⟨-, hsecond, hnano⟩ := clock_of_isLeap h
    rw [if_pos hsecond, hnano]
  · obtain ⟨hsecond, hnano⟩ := clock_of_not_isLeap h
    rw [if_neg (by omega), hnano, Nat.add_zero]

theorem exists_date (t : Instant) : t.date.Exists := by
  have hfirst := t.firstSecond_le
  have hlast := t.second_lt
  exact Date.exists_ofDays (by omega) (by omega)

theorem ofLocal?_clock (t : Instant) : ofLocal? t.date t.clock 0 = some t := by
  have hday := t.secondOfDay_lt
  have hhour : t.clock.hour < 24 := by
    unfold clock
    dsimp only
    omega
  have hminute : t.clock.minute < 60 := by
    unfold clock
    dsimp only
    omega
  have hsecond : t.date.toDays * 86400 +
      (t.clock.hour * 3600 + t.clock.minute * 60 + min t.clock.second 59 : Nat) - 0 * 60 =
        t.second := by
    have hsum := t.secondOfDay_add
    rw [date, Date.toDays_ofDays, clock_secondOfDay]
    omega
  rw [ofLocal?, if_pos ⟨t.exists_date, hhour, hminute, t.clock_second_le⟩, hsecond, clock_nano,
    ofParts?_self]

theorem takeDate?_date (t : Instant) (rest : List Char) :
    takeDate? (dateText t.date ++ rest) = some (t.date, rest) := by
  obtain ⟨-, -, -, hmonth, -, hday⟩ := t.exists_date
  have hmonthDays : Date.daysInMonth t.date.year t.date.month ≤ 31 := by
    unfold Date.daysInMonth
    split_ifs
    all_goals decide
  exact takeDate?_dateText (by omega) (by omega) rest

theorem read?_text (t : Instant) : read? t.text = some t := by
  have htext : t.text = dateText t.date ++ ('T' :: (timeText t ++ ['Z'])) := by
    simp [text, localText]
  have hzone : takeZone? (dropBlanks ['Z']) = some (0, []) := rfl
  have hend : dropBlanks [] = [] := rfl
  simp only [read?, htext, takeDate?_date, takeTime?_timeText t (c := 'Z') rfl (by decide), hzone,
    hend, Option.bind_eq_bind, Option.bind_some, if_true]
  exact t.ofLocal?_clock

end Instant

end MetricWatch
