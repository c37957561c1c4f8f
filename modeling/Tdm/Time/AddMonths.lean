import Tdm.Time.TimetValid

/-!
# Adding months

`AddMonths` counts the months one by one, with the year, and cuts the day down to the length of the
month it arrives at. Counting is addition of month numbers, so the result is the date of the target
month; on texts without a day months act as the integers do.
-/

namespace Tdm.Time

open Tdm.Lib

/-! ## Counting -/

/-- `iYear` and `iMonth` of a month number. -/
def yearMonth (k : ℤ) : ℤ × ℤ := (k / 12, k % 12 + 1)

theorem monthUp_yearMonth (k : ℤ) : monthUp (yearMonth k) = yearMonth (k + 1) := by
  unfold monthUp yearMonth
  simp only
  split
  · -- from December to January
    ext <;> simp only <;> omega
  · ext <;> simp only <;> omega

theorem monthDown_yearMonth (k : ℤ) : monthDown (yearMonth k) = yearMonth (k - 1) := by
  unfold monthDown yearMonth
  simp only
  split
  · -- from January to December
    ext <;> simp only <;> omega
  · ext <;> simp only <;> omega

theorem iterate_monthUp (n : ℕ) (k : ℤ) : monthUp^[n] (yearMonth k) = yearMonth (k + n) := by
  induction n with
  | zero => rw [Function.iterate_zero_apply, Nat.cast_zero, Int.add_zero]
  | succ n ih =>
    rw [Function.iterate_succ_apply', ih, monthUp_yearMonth, Nat.cast_succ, Int.add_assoc]

theorem iterate_monthDown (n : ℕ) (k : ℤ) : monthDown^[n] (yearMonth k) = yearMonth (k - n) := by
  induction n with
  | zero => rw [Function.iterate_zero_apply, Nat.cast_zero, Int.sub_zero]
  | succ n ih =>
    have hsub : k - n - 1 = k - ((n + 1 : ℕ) : ℤ) := by omega
    rw [Function.iterate_succ_apply', ih, monthDown_yearMonth, hsub]

theorem countMonths_yearMonth (n k : ℤ) : countMonths n (yearMonth k) = yearMonth (k + n) := by
  unfold countMonths
  split
  · have hcast : k + (n.toNat : ℤ) = k + n := by omega
    rw [iterate_monthUp, hcast]
  · have hcast : k - ((-n).toNat : ℤ) = k + n := by omega
    rw [iterate_monthDown, hcast]

/-- The day is cut down to the length of the month. -/
theorem clampDay_eq (k : ℤ) (day : ℕ) :
    clampDay (k / 12) (k % 12 + 1) day = some ((min day (monthLength k) : ℕ) : ℤ) := by
  have hmonth : ((k % 12 + 1).toNat : ℤ) = k % 12 + 1 := by omega
  have htable := months_eq (k / 12) (m := (k % 12 + 1).toNat) (by omega) (by omega)
  have hnumber : 12 * (k / 12) + (k % 12 + 1) - 1 = k := by omega
  have hindex : (k % 12 + 1 - 1).toNat = (k % 12 + 1).toNat - 1 := by omega
  rw [hmonth, hnumber] at htable
  unfold clampDay
  split
  · rename_i hleap
    rw [if_pos hleap.symm] at htable
    congr 1
    split <;> omega
  · rename_i hleap
    rw [if_neg (mt And.symm hleap)] at htable
    split
    · rename_i htwo
      have hfeb : months.getD ((k % 12 + 1).toNat - 1) 0 = 28 := by
        rw [htwo]
        rfl
      rw [hfeb] at htable
      congr 1
      split <;> omega
    · have hget : months[(k % 12 + 1).toNat - 1]? = some (monthLength k : ℤ) := by
        rw [← htable, List.getD_eq_getElem?_getD]
        have hlt : (k % 12 + 1).toNat - 1 < months.length := by
          show (k % 12 + 1).toNat - 1 < 12
          omega
        rw [List.getElem?_eq_getElem hlt]
        rfl
      rw [if_pos (by omega), hindex, hget]
      show some _ = some _
      congr 1
      split <;> omega

/-! ## Texts -/

/-- The text of a month. -/
def monthText (k : ℤ) : List UInt8 := decimalPadded 4 (k / 12) ++ decimalPadded 2 (k % 12 + 1)

/-- The text of a day in a month. -/
def dateText (k : ℤ) (day : ℕ) : List UInt8 := monthText k ++ decimalPadded 2 day

/-- A month of the years 1 to 9999. -/
def InYears (k : ℤ) : Prop := 12 ≤ k ∧ k < 120000

instance (k : ℤ) : Decidable (InYears k) := inferInstanceAs (Decidable (_ ∧ _))

section Writing
variable {k : ℤ}

theorem decimalPadded_toNat {v : ℤ} (h : 0 ≤ v) (width : ℕ) :
    decimalPadded width v = decimalPadded width (v.toNat : ℤ) := by
  rw [Int.toNat_of_nonneg h]

theorem lengths_monthText (h : InYears k) :
    (decimalPadded 4 (k / 12)).length = 4 ∧ (decimalPadded 2 (k % 12 + 1)).length = 2 := by
  obtain ⟨hlo, hhi⟩ := h
  exact ⟨length_decimalPadded_year (by omega) (by omega),
    length_decimalPadded_month (by omega) (by omega)⟩

theorem length_monthText (h : InYears k) : (monthText k).length = 6 := by
  obtain ⟨hyear, hmonth⟩ := lengths_monthText h
  unfold monthText
  rw [List.length_append, hyear, hmonth]

theorem isDigit_of_mem_monthText (h : InYears k) {c : UInt8} (hc : c ∈ monthText k) :
    isDigit c = true := by
  obtain ⟨hlo, hhi⟩ := h
  unfold monthText at hc
  rw [decimalPadded_toNat (by omega), decimalPadded_toNat (v := k % 12 + 1) (by omega)] at hc
  rcases List.mem_append.mp hc with hc | hc
  · exact isDigit_of_mem_decimalPadded hc
  · exact isDigit_of_mem_decimalPadded hc

theorem digitText_monthText (h : InYears k) : DigitText 6 (monthText k) :=
  ⟨length_monthText h, fun _ => isDigit_of_mem_monthText h⟩

theorem digitText_dateText (h : InYears k) {d : ℕ} (hday : d ≤ 31) :
    DigitText 8 (dateText k d) where
  length := by
    unfold dateText
    rw [List.length_append, length_monthText h, length_decimalPadded_two (by omega)]
  digits c hc := by
    rcases List.mem_append.mp hc with hc | hc
    · exact isDigit_of_mem_monthText h hc
    · exact isDigit_of_mem_decimalPadded hc

/-- The parts of a text that begins with a month. -/
theorem parts_monthText_append (h : InYears k) (rest : List UInt8) :
    (part (monthText k ++ rest) 0 4 : ℤ) = k / 12 ∧ (part (monthText k ++ rest) 4 2 : ℤ) = k % 12 + 1 := by
  obtain ⟨hyear, hmonth⟩ := lengths_monthText h
  obtain ⟨hlo, hhi⟩ := h
  unfold monthText
  rw [List.append_assoc, part_head hyear, part_skip hyear _ 0, part_head hmonth,
    decimalPadded_toNat (by omega), decimalPadded_toNat (v := k % 12 + 1) (by omega),
    numeral_decimalPadded, numeral_decimalPadded]
  omega

theorem monthOf_monthText_append (h : InYears k) (rest : List UInt8) :
    monthOf (monthText k ++ rest) = k := by
  obtain ⟨hyear, hmonth⟩ := parts_monthText_append h rest
  unfold monthOf
  rw [hyear, hmonth]
  omega

theorem day_dateText (h : InYears k) {day : ℕ} (hday : day ≤ 31) : part (dateText k day) 6 2 = day := by
  have hlen : (decimalPadded 2 day).length = 2 := length_decimalPadded_two (by omega)
  unfold dateText
  rw [part_skip (length_monthText h) _ 0, ← List.append_nil (decimalPadded 2 day), part_head hlen,
    numeral_decimalPadded]

end Writing

section Reading
variable {s : List UInt8} {k : ℕ}

/-- A text of digits begins with its month. -/
theorem monthText_monthOf (h : DigitText k s) (hk : 6 ≤ k) (hmonth : 1 ≤ part s 4 2 ∧ part s 4 2 ≤ 12) :
    monthText (monthOf s) = s.take 6 := by
  have hyear : monthOf s / 12 = part s 0 4 := by
    unfold monthOf
    omega
  have hmon : monthOf s % 12 + 1 = part s 4 2 := by
    unfold monthOf
    omega
  unfold monthText
  rw [hyear, hmon, decimalPadded_part h (by decide) (by omega), decimalPadded_part h (by decide) (by omega),
    List.drop_zero, ← List.take_add]

theorem dateText_monthOf (h : DigitText 8 s) (hmonth : 1 ≤ part s 4 2 ∧ part s 4 2 ≤ 12) :
    dateText (monthOf s) (part s 6 2) = s := by
  unfold dateText
  rw [monthText_monthOf h (by decide) hmonth, decimalPadded_part h (by decide) (by decide),
    ← List.take_add]
  exact List.take_of_length_le h.length.le

/-- `iYear` and `iMonth` as `AddMonths` reads them. -/
theorem yearMonth_monthOf (h : DigitText k s) (hk : 6 ≤ k)
    (hmonth : 1 ≤ part s 4 2 ∧ part s 4 2 ≤ 12) :
    ((atoi (strncpy s 6)).tdiv 100, atoi ((strncpy s 6).drop 4)) = yearMonth (monthOf s) := by
  have hnumeral : part s 0 6 = part s 0 4 * 100 + part s 4 2 := numeral_take_add s 4 2 (by rw [h.length]; omega)
  have hsix := atoi_part h (i := 0) (n := 6) (by decide) (by decide) (by omega)
  have htwo := atoi_part h (i := 4) (n := 2) (by decide) (by decide) (by omega)
  have hdrop : (strncpy s 6).drop 4 = strncpy (s.drop 4) 2 := by
    rw [strncpy_eq h, strncpy_drop h, List.drop_take]
  rw [List.drop_zero] at hsix
  have hyear : (atoi (strncpy s 6)).tdiv 100 = part s 0 4 := by
    rw [hsix, Int.tdiv_eq_ediv_of_nonneg (by omega)]
    omega
  rw [hyear, hdrop, htwo]
  unfold yearMonth monthOf
  ext <;> simp only <;> omega

theorem digitText_of_isDateExt (hlen : s.length = 8) (h : isDateExt s = true) : DigitText 8 s := by
  refine ⟨hlen, ?_⟩
  unfold isDateExt at h
  simp only at h
  split at h
  · cases h
  · rename_i hstrlen
    split at h
    · cases h
    · rename_i hdigits
      rw [not_not] at hstrlen
      rw [hstrlen, List.take_of_length_le hlen.le, not_not, List.all_eq_true] at hdigits
      exact hdigits

end Reading

/-! ## Adding -/

section Adding
variable {s : List UInt8} {n : ℤ}

/-- A date is moved to the target month. -/
theorem addMonths_date (h : DigitText 8 s) (hmonth : 1 ≤ part s 4 2 ∧ part s 4 2 ≤ 12)
    (hday : 1 ≤ part s 6 2 ∧ part s 6 2 ≤ monthLength (monthOf s)) (htarget : InYears (monthOf s + n)) :
    addMonths s n =
      some (dateText (monthOf s + n) (min (part s 6 2) (monthLength (monthOf s + n)))) := by
  have hbounds := monthLength_bounds (monthOf s + n)
  have hread := yearMonth_monthOf h (by decide) hmonth
  have hlen := (digitText_dateText htarget (d := min (part s 6 2) (monthLength (monthOf s + n)))
    (by omega)).length
  -- the seventh character is a digit, so there is a day
  obtain ⟨c, hc⟩ : ∃ c, s[6]? = some c := ⟨_, List.getElem?_eq_getElem (by rw [h.length]; decide)⟩
  have hc₀ : c ≠ 0 := by
    rintro rfl
    exact absurd (h.digits 0 (List.mem_of_getElem? hc)) (by decide)
  have hatoi : atoi (s.drop 6) = part s 6 2 := by
    have hall : strncpy (s.drop 6) 2 = s.drop 6 := by
      rw [strncpy_drop h]
      exact List.take_of_length_le (by rw [List.length_drop, h.length])
    rw [← hall]
    exact atoi_part h (by decide) (by decide) (by decide)
  unfold addMonths
  rw [charAt_eq h (by decide), hc]
  simp only [Option.bind_eq_bind, Option.bind_some, if_pos hc₀, hatoi, hread]
  by_cases hn : n = 0
  · rw [if_pos hn, hn, Int.add_zero, Nat.min_eq_left hday.2, dateText_monthOf h hmonth]
    rfl
  · rw [if_neg hn, countMonths_yearMonth]
    unfold yearMonth
    simp only
    rw [if_pos (by omega), clampDay_eq, Option.bind_some]
    exact if_pos (lt_of_eq_of_lt hlen (by decide))

/-- A month without a day is moved likewise. -/
theorem addMonths_month (h : DigitText 6 s) (hmonth : 1 ≤ part s 4 2 ∧ part s 4 2 ≤ 12)
    (htarget : InYears (monthOf s + n)) : addMonths s n = some (monthText (monthOf s + n)) := by
  have hread := yearMonth_monthOf h (by decide) hmonth
  have hlen := length_monthText htarget
  have hend : charAt s 6 = some 0 := by
    unfold charAt
    rw [List.getElem?_append_right h.length.le, h.length]
    rfl
  unfold addMonths
  rw [hend]
  simp only [Option.bind_eq_bind, Option.bind_some, ne_eq, not_true_eq_false, if_false, hread]
  by_cases hn : n = 0
  · rw [if_pos hn, hn, Int.add_zero, monthText_monthOf h (by decide) hmonth,
      List.take_of_length_le h.length.le]
    rfl
  · rw [if_neg hn, countMonths_yearMonth]
    unfold yearMonth
    simp only
    rw [if_neg (lt_irrefl _)]
    have htake : (monthText (monthOf s + n)).take 6 = monthText (monthOf s + n) :=
      List.take_of_length_le hlen.le
    rw [← htake]
    exact if_pos (lt_of_eq_of_lt hlen (by decide))

theorem diffMonths_eq {t : List UInt8} (hs : DigitText 8 s) (ht : DigitText 8 t) :
    diffMonths s t = some (monthOf t - monthOf s) := by
  unfold diffMonths stringAt
  rw [if_pos (by rw [ht.length]; decide), if_pos (by rw [hs.length]; decide), atoi_year hs (by decide),
    atoi_year ht (by decide)]
  simp only [Option.bind_eq_bind, Option.bind_some,
    atoi_part hs (i := 4) (n := 2) (by decide) (by decide) (by decide),
    atoi_part ht (i := 4) (n := 2) (by decide) (by decide) (by decide), Option.pure_def]
  unfold monthOf
  congr 1
  omega

end Adding

/-- `AddMonths` moves a date to its target month, where it is a date again and `DiffMonths` counts the
months back. -/
def MonthShift (s : List UInt8) (n : ℤ) : Prop :=
  ∃ t, addMonths s n = some t ∧
    t = dateText (monthOf s + n) (min (part s 6 2) (monthLength (monthOf s + n))) ∧
    isDateExt t = true ∧ diffMonths s t = some n

theorem monthShift_of_date {s : List UInt8} {n : ℤ} (hlen : s.length = 8) (h : isDateExt s = true)
    (htarget : InYears (monthOf s + n)) : MonthShift s n := by
  have hdigits := digitText_of_isDateExt hlen h
  obtain ⟨-, hmonth, hday⟩ := (isDateExt_iff hdigits).mp h
  have hbounds := monthLength_bounds (monthOf s + n)
  have hle : min (part s 6 2) (monthLength (monthOf s + n)) ≤ 31 := by omega
  have htext := digitText_dateText htarget hle
  have hparts := parts_monthText_append htarget
    (decimalPadded 2 (min (part s 6 2) (monthLength (monthOf s + n)) : ℕ))
  have hmonthOf : monthOf (dateText (monthOf s + n) (min (part s 6 2) (monthLength (monthOf s + n)))) =
      monthOf s + n := monthOf_monthText_append htarget _
  refine ⟨_, addMonths_date hdigits hmonth hday htarget, rfl, ?_, ?_⟩
  · rw [isDateExt_iff htext, hmonthOf, day_dateText htarget hle]
    obtain ⟨hlo, hhi⟩ := htarget
    unfold dateText
    omega
  · rw [diffMonths_eq hdigits htext, hmonthOf]
    congr 1
    omega

/-- `AddMonths` is the arithmetic of months of the calendar: a date goes to the target month, its day
cut down to the length of that month, and months act on year-month texts. -/
theorem add_months_calendar (s : List UInt8) (n : ℤ) (hlen : s.length = 8) (hdate : isDateExt s = true)
    (hn : InYears (monthOf s + n)) (t : List UInt8) (k l : ℤ) (ht : DigitText 6 t)
    (hmonth : 1 ≤ part t 4 2 ∧ part t 4 2 ≤ 12) (hk : InYears (monthOf t + k))
    (hkl : InYears (monthOf t + (k + l))) :
    MonthShift s n ∧
    ∃ u v, addMonths t k = some u ∧ addMonths u l = some v ∧ addMonths t (k + l) = some v := by
  refine ⟨monthShift_of_date hlen hdate hn, _, _, addMonths_month ht hmonth hk, ?_,
    addMonths_month ht hmonth hkl⟩
  -- the text of the first sum is that of a month again
  have hmonthOf : monthOf (monthText (monthOf t + k)) = monthOf t + k := by
    have happend := monthOf_monthText_append hk []
    rwa [List.append_nil] at happend
  have hparts := parts_monthText_append hk []
  rw [List.append_nil] at hparts
  have hsum : monthOf (monthText (monthOf t + k)) + l = monthOf t + (k + l) := by
    rw [hmonthOf, Int.add_assoc]
  rw [addMonths_month (digitText_monthText hk) (by omega) (by rwa [hsum]), hsum]

/-- The last of January goes to the leap day, and a year back over two centuries. -/
theorem add_months_calendar_leap :
    MonthShift (text "20000131") 1 ∧ addMonths (text "20000131") 1 = some (text "20000229") ∧
    ∃ u v, addMonths (text "200001") (-2400) = some u ∧ addMonths u 13 = some v ∧
      addMonths (text "200001") (-2387) = some v := by
  obtain ⟨hshift, haction⟩ := add_months_calendar (text "20000131") 1 (by decide) (by decide +kernel)
    (by decide +kernel) (text "200001") (-2400) 13 (by decide +kernel) (by decide) (by decide +kernel)
    (by decide +kernel)
  exact ⟨hshift, by decide +kernel, haction⟩

end Tdm.Time
