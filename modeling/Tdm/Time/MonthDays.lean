import Tdm.Time.AddDays
import Mathlib.Tactic.IntervalCases

/-!
# The length of a month

`IsDateExt` looks the length of a month up in a table and adds the leap day by the rule of the calendar;
`GetMonthDays` takes the day before the first of the following month through `mktime` and back. The
following month is written as a number that may be 13, which `mktime` carries over into the next year.
-/

namespace Tdm.Time

open Tdm.Lib

/-- The month of a text, counted from January of the year 0. -/
def monthOf (s : List UInt8) : ℤ := 12 * part s 0 4 + part s 4 2 - 1

/-! ## The table -/

theorem leapTest_iff (y : ℤ) : leapTest y = true ↔ IsLeap y := by
  have hmod (n : ℤ) : y.tmod n = 0 ↔ n ∣ y := Int.dvd_iff_tmod_eq_zero.symm
  unfold leapTest IsLeap
  simp only [Bool.or_eq_true, Bool.and_eq_true, beq_iff_eq, bne_iff_ne, ne_eq, hmod]
  omega

/-- The table and the leap day give the lengths of the calendar. -/
theorem months_eq (y : ℤ) {m : ℕ} (hlo : 1 ≤ m) (hhi : m ≤ 12) :
    (if leapTest y = true ∧ (m : ℤ) = 2 then 29 else months.getD (m - 1) 0) =
      (monthLength (12 * y + m - 1) : ℤ) := by
  have hyear : (12 * y + m - 1) / 12 = y := by omega
  have hmonth : ((12 * y + m - 1) % 12).toNat = m - 1 := by omega
  unfold monthLength
  rw [hyear, hmonth]
  unfold monthLengths
  -- only February depends on the year
  by_cases hleap : IsLeap y
  · simp only [leapTest_iff, hleap, true_and, if_true]
    interval_cases m <;> rfl
  · simp only [leapTest_iff, hleap, false_and, if_false]
    interval_cases m <;> rfl

/-- What `IsDateExt` accepts among texts of digits. -/
theorem isDateExt_iff {s : List UInt8} (h : DigitText 8 s) : isDateExt s = true ↔
    1 ≤ part s 0 4 ∧ (1 ≤ part s 4 2 ∧ part s 4 2 ≤ 12) ∧
      1 ≤ part s 6 2 ∧ part s 6 2 ≤ monthLength (monthOf s) := by
  have hcopy : s.takeWhile (· ≠ 0) = s := by
    have hall := strncpy_eq h 8
    unfold strncpy at hall
    rwa [List.take_of_length_le h.length.le] at hall
  have hlen : strlen s = 8 := by
    unfold strlen
    rw [hcopy, h.length]
  have hdigits : (s.take 8).all isDigit = true := by
    rw [List.take_of_length_le h.length.le, List.all_eq_true]
    exact h.digits
  have hyear := atoi_year h (by decide)
  have hmon := atoi_part h (i := 4) (n := 2) (by decide) (by decide) (by decide)
  have hday := atoi_part h (i := 6) (n := 2) (by decide) (by decide) (by decide)
  unfold isDateExt
  simp only [hlen, hdigits, hyear, hmon, hday, ne_eq, not_true_eq_false, if_false]
  split
  · simp only [Bool.false_eq_true, false_iff]
    omega
  · split
    · simp only [Bool.false_eq_true, false_iff]
      omega
    · rename_i hyear₀ hmonth
      have hlo : 1 ≤ part s 4 2 := by omega
      have hhi : part s 4 2 ≤ 12 := by omega
      have htable := months_eq (part s 0 4) hlo hhi
      have hindex : ((part s 4 2 : ℤ) - 1).toNat = part s 4 2 - 1 := by omega
      have hmonthOf : (12 * part s 0 4 + part s 4 2 - 1 : ℤ) = monthOf s := rfl
      rw [hmonthOf] at htable
      rw [hindex]
      split
      · rename_i hleap
        rw [if_pos hleap] at htable
        simp only [Bool.not_eq_true', Bool.or_eq_false_iff, decide_eq_false_iff_not]
        omega
      · rename_i hleap
        rw [if_neg hleap] at htable
        simp only [htable, Bool.not_eq_true', Bool.or_eq_false_iff, decide_eq_false_iff_not]
        omega

/-! ## The day before the first of the following month -/

/-- A `struct tm` by the month it lies in. -/
theorem Tm.seconds_eq (tm : Tm) : tm.seconds =
    (daysBeforeMonth (12 * (tm.year + 1900) + tm.mon) + (tm.mday - 1)) * 86400 + tm.hour * 3600 +
      tm.min * 60 + tm.sec := by
  have hyear : (12 * (tm.year + 1900) + tm.mon) / 12 = tm.year + 1900 + tm.mon / 12 := by omega
  have hmonth : (12 * (tm.year + 1900) + tm.mon) % 12 = tm.mon % 12 := by omega
  unfold Tm.seconds daysBeforeMonth
  rw [hyear, hmonth]

/-- Two characters are filled by a number with its sign. -/
theorem length_decimalPadded_month {v : ℤ} (hlo : -9 ≤ v) (hhi : v ≤ 99) :
    (decimalPadded 2 v).length = 2 := by
  have hone : v < 0 → (decimal v.natAbs).length ≤ 1 := fun hneg =>
    (length_decimal_le_iff v.natAbs 0).mpr (by omega)
  have htwo := (length_decimal_le_iff v.natAbs 1).mpr (by omega)
  rw [length_decimalPadded]
  split <;> omega

theorem length_decimalPadded_year {y : ℤ} (hlo : 0 ≤ y) (hhi : y ≤ 9999) :
    (decimalPadded 4 y).length = 4 := by
  obtain ⟨n, rfl⟩ := Int.eq_ofNat_of_zero_le hlo
  exact length_decimalPadded_of_lt (by decide) (by omega)

theorem twoChars_append {a b : List UInt8} {i : ℕ} (ha : a.length = i) (hb : b.length = 2)
    (rest : List UInt8) : twoChars (a ++ (b ++ rest)) i = some (atoi b) := by
  obtain ⟨c, d, rfl⟩ := List.length_eq_two.mp hb
  have hchar (k : ℕ) : charAt (a ++ ([c, d] ++ rest)) (i + k) = ([c, d] ++ (rest ++ [0]))[k]? := by
    unfold charAt
    rw [List.append_assoc, List.append_assoc, ← ha, List.getElem?_append_right (by omega),
      Nat.add_sub_cancel_left]
  have h₀ := hchar 0
  have h₁ := hchar 1
  unfold twoChars
  rw [← Nat.add_zero i, h₀, Nat.add_zero, h₁]
  rfl

section FirstOfMonth
variable {y v : ℤ}

/-- The first of month `v` of the year `y`, at midnight. -/
def firstText (y v : ℤ) : List UInt8 :=
  decimalPadded 4 y ++ decimalPadded 2 v ++ text "01" ++ List.replicate 6 48

/-- A printed number is copied as a whole. -/
theorem strncpy_decimalPadded {w n : ℕ} {v : ℤ} (h : (decimalPadded w v).length = n) (x : List UInt8) :
    strncpy (decimalPadded w v ++ x) n = decimalPadded w v := by
  unfold strncpy
  rw [List.take_left' h, takeWhile_ne_self (zero_notMem_decimalPadded w v)]

theorem tmpDate_first (hylo : 0 ≤ y) (hyhi : y ≤ 9999) (hvlo : -9 ≤ v) (hvhi : v ≤ 99) :
    tmpDate (decimalPadded 4 y ++ decimalPadded 2 v ++ text "01") = firstText y v := by
  have hlen : (decimalPadded 4 y ++ decimalPadded 2 v ++ text "01").length = 8 := by
    rw [List.length_append, List.length_append, length_decimalPadded_year hylo hyhi,
      length_decimalPadded_month hvlo hvhi]
    rfl
  have hzero : 0 ∉ decimalPadded 4 y ++ decimalPadded 2 v ++ text "01" := by
    simp only [List.mem_append, zero_notMem_decimalPadded, false_or]
    decide
  have hcopy : strncpy (decimalPadded 4 y ++ decimalPadded 2 v ++ text "01") 8 =
      decimalPadded 4 y ++ decimalPadded 2 v ++ text "01" := by
    unfold strncpy
    rw [List.take_of_length_le hlen.le, takeWhile_ne_self hzero]
  have hstrlen : strlen (decimalPadded 4 y ++ decimalPadded 2 v ++ text "01") = 8 := by
    unfold strlen
    rw [takeWhile_ne_self hzero, hlen]
  have hshort : strlen (decimalPadded 4 y ++ decimalPadded 2 v ++ text "01") < 14 := by omega
  simp only [tmpDate, if_pos hshort, hcopy, hlen, Nat.sub_self, List.replicate_zero, List.append_nil,
    firstText]

theorem getTimet_first (z : Zone) (hylo : 0 ≤ y) (hyhi : y ≤ 9999) (hvlo : -9 ≤ v) (hvhi : v ≤ 99) :
    getTimet z (firstText y v) =
      some (daysBeforeMonth (12 * y + v - 1) * 86400 - epoch - z.offset) := by
  have hy := length_decimalPadded_year hylo hyhi
  have hv := length_decimalPadded_month hvlo hvhi
  have hyear : atoi (strncpy (firstText y v) 4) = y := by
    unfold firstText
    rw [List.append_assoc, List.append_assoc, strncpy_decimalPadded hy,
      atoi_decimalPadded 4 (by omega) (by omega)]
  -- the text behind the year is read in steps of two characters
  have hmonth : twoChars (firstText y v) 4 = some v := by
    unfold firstText
    rw [List.append_assoc, List.append_assoc, twoChars_append hy hv,
      atoi_decimalPadded 2 (by omega) (by omega)]
  have hpair (pre pair rest : List UInt8) {n : ℤ}
      (hsplit : text "01" ++ List.replicate 6 48 = pre ++ (pair ++ rest)) (hlen : pair.length = 2)
      (hatoi : atoi pair = n) : twoChars (firstText y v) (6 + pre.length) = some n := by
    unfold firstText
    rw [List.append_assoc, hsplit, ← List.append_assoc, ← hatoi]
    refine twoChars_append ?_ hlen rest
    rw [List.length_append, List.length_append, hy, hv]
  have hday : twoChars (firstText y v) 6 = some 1 :=
    hpair [] [48, 49] (List.replicate 6 48) (by decide) rfl (by decide)
  have hhour : twoChars (firstText y v) 8 = some 0 :=
    hpair [48, 49] [48, 48] (List.replicate 4 48) (by decide) rfl (by decide)
  have hmin : twoChars (firstText y v) 10 = some 0 :=
    hpair [48, 49, 48, 48] [48, 48] (List.replicate 2 48) (by decide) rfl (by decide)
  have hsec : twoChars (firstText y v) 12 = some 0 :=
    hpair [48, 49, 48, 48, 48, 48] [48, 48] [] (by decide) rfl (by decide)
  unfold getTimet
  rw [hmonth, hday, hhour, hmin, hsec, hyear]
  show some (mktime z ⟨0, 0, 0, 1, v - 1, y - 1900, 0⟩) = _
  have hindex : 12 * (y - 1900 + 1900) + (v - 1) = 12 * y + v - 1 := by omega
  unfold mktime
  rw [Tm.seconds_eq]
  simp only [hindex, Option.some_inj]
  omega

end FirstOfMonth

/-- The beginning of the last day of month `k`. -/
def lastDay (k : ℤ) : Moment where
  date := .ofMonth k (monthLength k - 1) (by have := monthLength_bounds k; omega)
  hour := 0
  minute := 0
  second := 0
  valid := by decide

theorem seconds_lastDay (k : ℤ) : (lastDay k).seconds = (daysBeforeMonth (k + 1) - 1) * 86400 := by
  have hbounds := monthLength_bounds k
  have hnumber : (lastDay k).date.number = daysBeforeMonth k + (monthLength k - 1 : ℕ) := by
    rw [Date.number_eq]
    unfold lastDay
    rw [Date.monthNumber_ofMonth]
    rfl
  unfold Moment.seconds
  rw [hnumber, daysBeforeMonth_succ]
  show (daysBeforeMonth k + (monthLength k - 1 : ℕ)) * 86400 + ((0 * 3600 + 0 * 60 + 0 : ℕ) : ℤ) = _
  omega

/-- `GetMonthDays` gives the length of a month whose number and that of the next one are written in
two characters, as long as the month lies in a year of four digits. -/
theorem getMonthDays_eq {offset y j : ℤ} {s : List UInt8} (hlen : 4 ≤ s.length)
    (hy : atoi (strncpy s 4) = y) (hj : atoi (strncpy (s.drop 4) 2) = j) (hylo : 0 ≤ y) (hyhi : y ≤ 9999)
    (hjlo : -10 ≤ j) (hjhi : j ≤ 98) (hyear : FourDigitYear ((12 * y + j - 1) / 12)) :
    getMonthDays (.fixed offset) s = some (monthLength (12 * y + j - 1) : ℤ) := by
  have hbounds := monthLength_bounds (12 * y + j - 1)
  have htime : shiftedTime (.fixed offset)
      (decimalPadded 4 y ++ decimalPadded 2 (j + 1) ++ text "01") (-1) =
        some (instant (.fixed offset) (lastDay (12 * y + j - 1))) := by
    unfold shiftedTime
    rw [tmpDate_first hylo hyhi (by omega) (by omega),
      getTimet_first _ hylo hyhi (by omega) (by omega), daySeconds_eq, if_pos (by decide)]
    have hmonth : 12 * y + (j + 1) - 1 = 12 * y + j - 1 + 1 := by omega
    unfold instant
    rw [seconds_lastDay, hmonth]
    show some (_ + (-1) * 86400) = _
    rw [Option.some_inj]
    omega
  have hyear' : FourDigitYear (lastDay (12 * y + j - 1)).date.year := hyear
  have hstr := getTimetStr_of_standard (z := .fixed offset) rfl hyear'
  obtain ⟨hlo, hhi⟩ := hyear'
  have hdigits := (isTime_momentText (by omega) hhi).digitText
  have hday := (parts_momentText (by omega) hhi).2.2.1
  have hatoi := atoi_part hdigits (i := 6) (n := 2) (by decide) (by decide) (by decide)
  rw [hday] at hatoi
  have hlast : (((lastDay (12 * y + j - 1)).date.day + 1 : ℕ) : ℤ) = monthLength (12 * y + j - 1) := by
    show ((monthLength (12 * y + j - 1) - 1 + 1 : ℕ) : ℤ) = _
    omega
  rw [hlast] at hatoi
  unfold getMonthDays stringAt
  rw [if_pos hlen, hy]
  simp only [Option.bind_eq_bind, Option.bind_some, hj]
  unfold addDaysModified
  simp only [htime, Option.bind_eq_bind, Option.bind_some, hstr]
  rw [if_pos (by rw [hdigits.length]; decide)]
  exact congrArg some hatoi

/-! ## The two notions agree -/

/-- A text of eight digits is accepted by `IsDateExt` if and only if its day exists in its month
according to `GetMonthDays`. -/
theorem month_lengths_agree (offset : ℤ) (s : List UInt8) (h : DigitText 8 s) (hyear : 1000 ≤ part s 0 4) :
    isDateExt s = true ↔ (1 ≤ part s 4 2 ∧ part s 4 2 ≤ 12) ∧
      ∃ days, getMonthDays (.fixed offset) s = some days ∧ 1 ≤ part s 6 2 ∧ (part s 6 2 : ℤ) ≤ days := by
  have hlt := part_lt h (i := 0) (n := 4) (by decide)
  have hdays : 1 ≤ part s 4 2 → part s 4 2 ≤ 12 →
      getMonthDays (.fixed offset) s = some (monthLength (monthOf s) : ℤ) := by
    intro hlo hhi
    refine getMonthDays_eq (by rw [h.length]; decide) (atoi_year h (by decide))
      (atoi_part h (by decide) (by decide) (by decide)) (by omega) (by omega) (by omega) (by omega) ?_
    unfold FourDigitYear
    omega
  rw [isDateExt_iff h]
  constructor
  · rintro ⟨-, ⟨hlo, hhi⟩, hday, hle⟩
    exact ⟨⟨hlo, hhi⟩, _, hdays hlo hhi, hday, by exact_mod_cast hle⟩
  · rintro ⟨⟨hlo, hhi⟩, days, hresult, hday, hle⟩
    rw [hdays hlo hhi, Option.some.injEq] at hresult
    rw [← hresult] at hle
    exact ⟨by omega, ⟨hlo, hhi⟩, hday, by exact_mod_cast hle⟩

/-- December of the last year, where the following month is in a year of five digits. -/
theorem month_lengths_agree_december :
    isDateExt (text "99991231") = true ∧ getMonthDays (.fixed 28800) (text "99991231") = some 31 := by
  have hagree := month_lengths_agree 28800 (text "99991231") (by decide +kernel) (by decide)
  exact ⟨hagree.mpr ⟨by decide, 31, by decide +kernel⟩, by decide +kernel⟩

end Tdm.Time
