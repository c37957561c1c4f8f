import Tdm.Time.AddMonths

/-!
# The two functions that add months

`AddMonth` works on instants: it adds up the lengths of the months between the month of the date and the
target month, and then corrects the sum by two terms. The correction uses the length of the last month
the loop has looked at, which is the one before the target month and not that of the date, so the result
is the date that `AddMonths` gives only by coincidence.

The months are printed with `%02d` and read back from two characters; the results are about months whose
numbers fit.
-/

namespace Tdm.Time

open Tdm.Lib

/-- `GetTimet` of the date that `AddMonths` gives, with the time of day of `s`. -/
def movedTimet (z : Zone) (s : List UInt8) (n : ℤ) : Option ℤ := do
  getTimet z ((← addMonths (s.take 8) n) ++ s.drop 8)

/-- Both functions give the same instant. -/
def MonthsAgree (z : Zone) (s : List UInt8) (n : ℤ) : Prop :=
  ∃ t, addMonth z s n = some t ∧ movedTimet z s n = some t

/-- The last month the loop looks at makes up for the days it leaves out. -/
def Coincides (s : List UInt8) (n : ℤ) : Prop :=
  n = 0 ∨
  2 ≤ n ∧ monthLength (monthOf s + n - 1) =
    monthLength (monthOf s) + min (part s 6 2) (monthLength (monthOf s + n)) ∨
  n ≤ -2 ∧ monthLength (monthOf s + n + 1) + min (part s 6 2) (monthLength (monthOf s + n)) =
    monthLength (monthOf s + n) + 2 * part s 6 2

instance (s : List UInt8) (n : ℤ) : Decidable (Coincides s n) := inferInstanceAs (Decidable (_ ∨ _))

/-- The target month lies in the years 1970 to 2037. -/
def InTimet (k : ℤ) : Prop := 23640 ≤ k ∧ k < 24456

instance (k : ℤ) : Decidable (InTimet k) := inferInstanceAs (Decidable (_ ∧ _))

/-- The numbers of all months that are looked at have two characters. -/
def Shown (s : List UInt8) (n : ℤ) : Prop := -10 ≤ part s 4 2 + n ∧ part s 4 2 + n ≤ 99

instance (s : List UInt8) (n : ℤ) : Decidable (Shown s n) := inferInstanceAs (Decidable (_ ∧ _))

/-! ## The loops -/

/-- `GetMonthDays` on a printed month. -/
theorem getMonthDays_printed (offset : ℤ) {y j : ℤ} (hylo : 1900 ≤ y) (hyhi : y ≤ 2100) (hjlo : -9 ≤ j)
    (hjhi : j ≤ 98) : getMonthDays (.fixed offset) (decimalPadded 4 y ++ decimalPadded 2 j) =
      some (monthLength (12 * y + j - 1) : ℤ) := by
  have hy := length_decimalPadded_year (y := y) (by omega) (by omega)
  have hj := length_decimalPadded_month (v := j) (by omega) (by omega)
  refine getMonthDays_eq ?_ ?_ ?_ (by omega) (by omega) (by omega) hjhi ?_
  · rw [List.length_append]
    omega
  · rw [strncpy_decimalPadded hy, atoi_decimalPadded 4 (by omega) (by omega)]
  · have hmonth := strncpy_decimalPadded hj []
    rw [List.append_nil] at hmonth
    rw [List.drop_left' hy, hmonth, atoi_decimalPadded 2 (by omega) (by omega)]
  · unfold FourDigitYear
    omega

section Loops
variable {offset y m : ℤ} {k : ℕ}

theorem monthLoop_succ {z : Zone} {step total last days total' : ℤ}
    (hprev : monthLoop z y m step k = some (total, last))
    (hdays : getMonthDays z (decimalPadded 4 y ++ decimalPadded 2 (m + step * (k + 1))) = some days)
    (hint : int (total + days) = some total') :
    monthLoop z y m step (k + 1) = some (total', days) := by
  simp only [monthLoop, hprev, hdays, hint, Option.bind_eq_bind, Option.bind_some, Option.pure_def]

/-- Forwards the loop adds up the months behind that of the date. -/
theorem monthLoop_up (offset : ℤ) (hylo : 1900 ≤ y) (hyhi : y ≤ 2100) (hmlo : 1 ≤ m) (hmhi : m + k ≤ 98) :
    monthLoop (.fixed offset) y m 1 k =
      some (daysBeforeMonth (12 * y + m + k) - daysBeforeMonth (12 * y + m),
        if k = 0 then 0 else (monthLength (12 * y + m + k - 1) : ℤ)) := by
  induction k with
  | zero => simp [monthLoop]
  | succ k ih =>
    have hadd := daysBeforeMonth_add (12 * y + m) (k + 1)
    have hsucc := daysBeforeMonth_succ (12 * y + m + k)
    have hindex : 12 * y + (m + 1 * ((k : ℤ) + 1)) - 1 = 12 * y + m + k := by omega
    have hnext : 12 * y + m + ((k + 1 : ℕ) : ℤ) = 12 * y + m + k + 1 := by omega
    have hlast : 12 * y + m + ((k + 1 : ℕ) : ℤ) - 1 = 12 * y + m + k := by omega
    rw [hnext] at hadd
    have hint : int (daysBeforeMonth (12 * y + m + k) - daysBeforeMonth (12 * y + m) +
        monthLength (12 * y + m + k)) =
        some (daysBeforeMonth (12 * y + m + k + 1) - daysBeforeMonth (12 * y + m)) := by
      rw [int_of_range (by omega) (by omega)]
      congr 1
      omega
    have hdays := getMonthDays_printed offset (j := m + 1 * ((k : ℤ) + 1)) hylo hyhi
      (by omega) (by omega)
    rw [hindex] at hdays
    rw [hlast, hnext, if_neg k.succ_ne_zero]
    exact monthLoop_succ (ih (by omega)) hdays hint

/-- Backwards it adds up the months before. -/
theorem monthLoop_down (offset : ℤ) (hylo : 1900 ≤ y) (hyhi : y ≤ 2100) (hmlo : -9 ≤ m - k) (hmhi : m ≤ 12) :
    monthLoop (.fixed offset) y m (-1) k =
      some (daysBeforeMonth (12 * y + m - 1) - daysBeforeMonth (12 * y + m - 1 - k),
        if k = 0 then 0 else (monthLength (12 * y + m - 1 - k) : ℤ)) := by
  induction k with
  | zero => simp [monthLoop]
  | succ k ih =>
    have hadd := daysBeforeMonth_add (12 * y + m - 1 - ((k + 1 : ℕ) : ℤ)) (k + 1)
    have hsucc := daysBeforeMonth_succ (12 * y + m - 1 - ((k + 1 : ℕ) : ℤ))
    have hindex : 12 * y + (m + -1 * ((k : ℤ) + 1)) - 1 = 12 * y + m - 1 - ((k + 1 : ℕ) : ℤ) := by omega
    have hnext : 12 * y + m - 1 - ((k + 1 : ℕ) : ℤ) + 1 = 12 * y + m - 1 - k := by omega
    have hfirst : 12 * y + m - 1 - ((k + 1 : ℕ) : ℤ) + ((k + 1 : ℕ) : ℤ) = 12 * y + m - 1 := by omega
    rw [hnext] at hsucc
    rw [hfirst] at hadd
    have hint : int (daysBeforeMonth (12 * y + m - 1) - daysBeforeMonth (12 * y + m - 1 - k) +
        monthLength (12 * y + m - 1 - ((k + 1 : ℕ) : ℤ))) =
        some (daysBeforeMonth (12 * y + m - 1) - daysBeforeMonth (12 * y + m - 1 - ((k + 1 : ℕ) : ℤ))) := by
      rw [int_of_range (by omega) (by omega)]
      congr 1
      omega
    have hdays := getMonthDays_printed offset (j := m + -1 * ((k : ℤ) + 1)) hylo hyhi
      (by omega) (by omega)
    rw [hindex] at hdays
    rw [if_neg k.succ_ne_zero]
    exact monthLoop_succ (ih (by omega)) hdays hint

end Loops

/-- The correction cancels the length of the month of the date. -/
theorem monthSeconds_eq {source day total target : ℤ} (hsource : 28 ≤ source ∧ source ≤ 31)
    (hday : 1 ≤ day ∧ day ≤ 31) (htotal : 0 ≤ total ∧ total ≤ 10000) (htarget : 0 ≤ target ∧ target ≤ 31) :
    monthSeconds source day (total, target) = some ((total + target - day) * 86400) := by
  have hfirst : int (total - (source - target)) = some (total - (source - target)) :=
    int_of_range (by omega) (by omega)
  have hsecond : int (total - (source - target) + (source - day)) = some (total + target - day) := by
    rw [int_of_range (by omega) (by omega)]
    congr 1
    omega
  have hhours : int ((total + target - day) * 24) = some ((total + target - day) * 24) :=
    int_of_range (by omega) (by omega)
  have hseconds : int ((total + target - day) * 24 * 3600) = some ((total + target - day) * 86400) := by
    rw [int_of_range (by omega) (by omega)]
    congr 1
    omega
  simp only [monthSeconds, hfirst, hsecond, hhours, hseconds, Option.bind_eq_bind, Option.bind_some]

/-! ## The instants -/

section Instants
variable {s : List UInt8} {n : ℤ}

/-- The instant of a text of digits, by its month. -/
theorem getTimet_month (z : Zone) (h : DigitText 14 s) :
    getTimet z s = some ((daysBeforeMonth (monthOf s) + (part s 6 2 - 1)) * 86400 + part s 8 2 * 3600 +
      part s 10 2 * 60 + part s 12 2 - epoch - z.offset) := by
  have hmonth : 12 * ((part s 0 4 : ℤ) - 1900 + 1900) + (part s 4 2 - 1) = monthOf s := by
    unfold monthOf
    omega
  rw [getTimet_parts z h, mktime, Tm.seconds_eq]
  simp only [hmonth]

theorem IsTime.month_bounds (h : IsTime s) : 1 ≤ part s 4 2 ∧ part s 4 2 ≤ 12 := by
  have hlt := (momentOf h).date.month_lt
  have hge := h.month
  have hpart : (momentOf h).date.month = part s 4 2 - 1 := rfl
  omega

theorem IsTime.day_bounds (h : IsTime s) : 1 ≤ part s 6 2 ∧ part s 6 2 ≤ monthLength (monthOf s) := by
  obtain ⟨hlo, hhi⟩ := h.month_bounds
  rw [monthLength_monthOf hlo hhi]
  exact ⟨h.day, h.date⟩

/-- The date that `AddMonths` gives differs in its month and its day only. -/
theorem movedTimet_eq (z : Zone) (h : IsTime s) (htarget : InTimet (monthOf s + n)) :
    movedTimet z s n = some ((daysBeforeMonth (monthOf s + n) +
      ((min (part s 6 2) (monthLength (monthOf s + n)) : ℕ) - 1)) * 86400 + part s 8 2 * 3600 +
      part s 10 2 * 60 + part s 12 2 - epoch - z.offset) := by
  have hdigits := h.digitText
  have hbounds := monthLength_bounds (monthOf s + n)
  have hmonth := h.month_bounds
  have hday := h.day_bounds
  have hyears : InYears (monthOf s + n) := by
    unfold InTimet at htarget
    unfold InYears
    omega
  have hle : min (part s 6 2) (monthLength (monthOf s + n)) ≤ 31 := by omega
  -- the first eight characters have the same parts
  have htake : monthOf (s.take 8) = monthOf s := by
    unfold monthOf
    rw [part_take s (by decide), part_take s (by decide)]
  have hmoved := addMonths_date (s := s.take 8) (n := n) (hdigits.take (by decide))
    (by rwa [part_take s (by decide)]) (by rwa [part_take s (by decide), htake]) (by rwa [htake])
  rw [htake, part_take s (by decide)] at hmoved
  generalize hdate : min (part s 6 2) (monthLength (monthOf s + n)) = day at *
  have htext := digitText_dateText hyears hle
  have hrest (i : ℕ) : part (dateText (monthOf s + n) day ++ s.drop 8) (8 + i) 2 = part s (8 + i) 2 := by
    rw [part_skip htext.length]
    unfold part
    rw [List.drop_drop]
  have hwhole : DigitText 14 (dateText (monthOf s + n) day ++ s.drop 8) := by
    refine ⟨?_, ?_⟩
    · rw [List.length_append, htext.length, List.length_drop, hdigits.length]
    · intro c hc
      rcases List.mem_append.mp hc with hc | hc
      · exact htext.digits c hc
      · exact hdigits.digits c (List.mem_of_mem_drop hc)
  have hmonthOf : monthOf (dateText (monthOf s + n) day ++ s.drop 8) = monthOf s + n := by
    unfold dateText
    rw [List.append_assoc]
    exact monthOf_monthText_append hyears _
  have hsix : part (dateText (monthOf s + n) day ++ s.drop 8) 6 2 = day := by
    rw [← part_take _ (show 6 + 2 ≤ 8 by decide), List.take_left' htext.length, day_dateText hyears hle]
  have h₈ := hrest 0
  have h₁₀ := hrest 2
  have h₁₂ := hrest 4
  unfold movedTimet
  rw [hmoved, Option.bind_eq_bind, Option.bind_some, getTimet_month z hwhole, hmonthOf, hsix, h₈, h₁₀, h₁₂]

/-- The days by which `AddMonth` misses the date that `AddMonths` gives. -/
def excess (s : List UInt8) (n : ℤ) : ℤ :=
  let target := monthLength (monthOf s + n)
  let day := min (part s 6 2) target
  if n = 0 then 0
  else if 0 < n then
    (if n = 1 then 0 else (monthLength (monthOf s + n - 1) : ℤ)) - (monthLength (monthOf s) + day)
  else
    2 * part s 6 2 + target - day - (if n = -1 then 0 else (monthLength (monthOf s + n + 1) : ℤ))

theorem excess_eq_zero_iff (h : IsTime s) : excess s n = 0 ↔ Coincides s n := by
  have hday := h.day_bounds
  have hsource := monthLength_bounds (monthOf s)
  have htarget := monthLength_bounds (monthOf s + n)
  unfold excess Coincides
  simp only
  -- a single month is never right, its length is missing altogether
  by_cases hzero : n = 0
  · simp [hzero]
  · rw [if_neg hzero]
    by_cases hpos : 0 < n
    · rw [if_pos hpos]
      split <;> omega
    · rw [if_neg hpos]
      split <;> omega

theorem excess_bounds (h : IsTime s) : -100 ≤ excess s n ∧ excess s n ≤ 100 := by
  have hday := h.day_bounds
  have hsource := monthLength_bounds (monthOf s)
  have htarget := monthLength_bounds (monthOf s + n)
  have hbefore := monthLength_bounds (monthOf s + n - 1)
  have hbehind := monthLength_bounds (monthOf s + n + 1)
  unfold excess
  simp only
  split_ifs <;> omega

/-- The value of `AddMonth`, measured from the date that `AddMonths` gives. -/
theorem addMonth_eq {offset : ℤ} (h : IsTime s) (htarget : InTimet (monthOf s + n)) (hshown : Shown s n)
    {t : ℤ} (ht : movedTimet (.fixed offset) s n = some t) :
    addMonth (.fixed offset) s n = some (toInt32 (t + excess s n * 86400)) := by
  have hdigits := h.digitText
  obtain ⟨hmlo, hmhi⟩ := h.month_bounds
  have hday := h.day_bounds
  have hsource := monthLength_bounds (monthOf s)
  have hbounds := monthLength_bounds (monthOf s + n)
  have hmonthOf : monthOf s = 12 * (part s 0 4 : ℤ) + part s 4 2 - 1 := rfl
  obtain ⟨hlo, hhi⟩ := htarget
  obtain ⟨hshlo, hshhi⟩ := hshown
  have hylo : 1900 ≤ (part s 0 4 : ℤ) := by omega
  have hyhi : (part s 0 4 : ℤ) ≤ 2100 := by omega
  have hmonth := atoi_part hdigits (i := 4) (n := 2) (by decide) (by decide) (by decide)
  have hdays : getMonthDays (.fixed offset) s = some (monthLength (monthOf s) : ℤ) := by
    refine getMonthDays_eq (by rw [hdigits.length]; decide) (atoi_year hdigits (by decide)) hmonth
      (by omega) (by omega) (by omega) (by omega) ?_
    unfold FourDigitYear
    omega
  have hstrlen : ¬ 31 < strlen s := by
    have hle : strlen s ≤ s.length := (List.takeWhile_sublist _).length_le
    rw [hdigits.length] at hle
    omega
  rw [movedTimet_eq _ h ⟨hlo, hhi⟩, Option.some.injEq] at ht
  unfold addMonth stringAt
  rw [getTimet_month _ hdigits, if_pos (by rw [hdigits.length]; decide),
    if_pos (by rw [hdigits.length]; decide), hdays, atoi_year hdigits (by decide)]
  simp only [Option.bind_eq_bind, Option.bind_some, hmonth,
    atoi_part hdigits (i := 6) (n := 2) (by decide) (by decide) (by decide), if_neg hstrlen]
  unfold excess
  simp only
  by_cases hzero : n = 0
  · -- the day is not cut down in its own month
    rw [if_pos hzero, if_pos hzero, Option.pure_def]
    rw [hzero, Int.add_zero, Nat.min_eq_left hday.2] at ht
    congr 2
    omega
  · rw [if_neg hzero, if_neg hzero]
    by_cases hpos : 0 < n
    · have hindex : 12 * (part s 0 4 : ℤ) + part s 4 2 + ((n - 1).toNat : ℤ) = monthOf s + n := by omega
      have hfirst : 12 * (part s 0 4 : ℤ) + part s 4 2 = monthOf s + 1 := by omega
      have hend : monthOf s + 1 + ((n - 1).toNat : ℤ) = monthOf s + n := by omega
      have hloop := monthLoop_up offset (m := part s 4 2) (k := (n - 1).toNat) hylo hyhi
        (by omega) (by omega)
      have hadd := daysBeforeMonth_add (monthOf s + 1) (n - 1).toNat
      have hsucc := daysBeforeMonth_succ (monthOf s)
      have hlast := monthLength_bounds (monthOf s + n - 1)
      have hone : (n - 1).toNat = 0 ↔ n = 1 := by omega
      rw [hindex, hfirst] at hloop
      rw [hend] at hadd
      simp only [hone] at hloop
      rw [if_pos hpos, if_pos hpos, hloop, Option.bind_some,
        monthSeconds_eq (by omega) (by omega) (by omega) (by split <;> omega), Option.bind_some,
        Option.pure_def]
      congr 2
      omega
    · have hindex : monthOf s - ((-n - 1).toNat : ℤ) = monthOf s + n + 1 := by omega
      have hend : monthOf s + n + 1 + ((-n - 1).toNat : ℤ) = monthOf s := by omega
      have hloop := monthLoop_down offset (m := part s 4 2) (k := (-n - 1).toNat) hylo hyhi
        (by omega) (by omega)
      have hadd := daysBeforeMonth_add (monthOf s + n + 1) (-n - 1).toNat
      have hsucc := daysBeforeMonth_succ (monthOf s + n)
      have hlast := monthLength_bounds (monthOf s + n + 1)
      have hone : (-n - 1).toNat = 0 ↔ n = -1 := by omega
      rw [← hmonthOf, hindex] at hloop
      rw [hend] at hadd
      simp only [hone] at hloop
      rw [if_neg hpos, if_neg hpos, hloop, Option.bind_some,
        monthSeconds_eq (by omega) (by omega) (by omega) (by split <;> omega), Option.bind_some,
        Option.pure_def]
      congr 2
      omega

end Instants

end Tdm.Time
