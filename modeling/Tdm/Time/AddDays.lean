import Tdm.Time.TimeText

/-!
# Adding days

`AddDays` and its two variants convert a date to an instant, add the seconds of the days and convert
back; `DiffDays` counts the days between two dates, both included. The seconds are computed and
converted in `int`, which holds the seconds of 24855 days. Within that bound days act on dates as the
integers do.
-/

namespace Tdm.Time

open Tdm.Lib

/-- The moment a number of days later. -/
def laterBy (m : Moment) (day : ℤ) : Moment := { m with date := .ofNumber (m.date.number + day) }

/-- A number of days whose seconds fit `int`. -/
def FitsInt (day : ℤ) : Prop := -24855 ≤ day ∧ day ≤ 24855

instance (day : ℤ) : Decidable (FitsInt day) := inferInstanceAs (Decidable (_ ∧ _))

/-! ## Days and seconds -/

theorem seconds_laterBy (m : Moment) (day : ℤ) : (laterBy m day).seconds = m.seconds + day * 86400 := by
  unfold laterBy Moment.seconds
  simp only [Date.number_ofNumber]
  omega

theorem laterBy_zero (m : Moment) : laterBy m 0 = m := by
  rw [← Moment.ofSeconds_seconds (laterBy m 0), seconds_laterBy, Int.zero_mul, Int.add_zero,
    Moment.ofSeconds_seconds]

theorem laterBy_add (m : Moment) (k l : ℤ) : laterBy (laterBy m k) l = laterBy m (k + l) := by
  rw [← Moment.ofSeconds_seconds (laterBy (laterBy m k) l),
    ← Moment.ofSeconds_seconds (laterBy m (k + l)), seconds_laterBy, seconds_laterBy, seconds_laterBy,
    Int.add_mul, Int.add_assoc]

theorem instant_laterBy (z : Zone) (m : Moment) (day : ℤ) :
    instant z (laterBy m day) = instant z m + day * 86400 := by
  unfold instant
  rw [seconds_laterBy]
  omega

theorem int_of_range {v : ℤ} (hlo : -2 ^ 31 ≤ v) (hhi : v < 2 ^ 31) : int v = some v := if_pos ⟨hlo, hhi⟩

/-- The product fits `int` if and only if every partial product does. -/
theorem daySeconds_eq (day : ℤ) : daySeconds day = if FitsInt day then some (day * 86400) else none := by
  split
  · rename_i h
    obtain ⟨hlo, hhi⟩ := h
    have hhours : int (day * 24) = some (day * 24) := int_of_range (by omega) (by omega)
    have hminutes : int (day * 24 * 60) = some (day * 24 * 60) := int_of_range (by omega) (by omega)
    have hseconds : int (day * 24 * 60 * 60) = some (day * 86400) := by
      rw [int_of_range (by omega) (by omega)]
      congr 1
      omega
    unfold daySeconds
    rw [hhours]
    show (int (day * 24 * 60)).bind _ = _
    rw [hminutes]
    exact hseconds
  · rename_i h
    unfold FitsInt at h
    rw [Option.eq_none_iff_forall_ne_some]
    intro v hv
    unfold daySeconds at hv
    obtain ⟨hours, hhours, hv⟩ := Option.bind_eq_some_iff.mp hv
    obtain ⟨minutes, hminutes, hv⟩ := Option.bind_eq_some_iff.mp hv
    -- the last product is the whole one
    simp only [int, Option.ite_none_right_eq_some, Option.some.injEq] at hhours hminutes hv
    omega

/-! ## Dates -/

section Dates
variable {offset : ℤ} {s : List UInt8} {day : ℤ}

theorem tmpDate_eq (h : IsTime s) : tmpDate s = s := by
  have hcopy : strncpy s 14 = s := by
    rw [strncpy_eq h.digitText]
    exact List.take_of_length_le h.length.le
  have hlen : strlen s = 14 := by
    have htake : s.take 14 = s := List.take_of_length_le h.length.le
    unfold strncpy at hcopy
    rw [htake] at hcopy
    unfold strlen
    rw [hcopy, h.length]
  unfold tmpDate
  rw [if_neg (by omega), hcopy]

theorem shiftedTime_eq (z : Zone) (h : IsTime s) (hfits : FitsInt day) :
    shiftedTime z s day = some (instant z (laterBy (momentOf h) day)) := by
  unfold shiftedTime
  rw [tmpDate_eq h, getTimet_eq z h, daySeconds_eq, if_pos hfits, instant_laterBy]
  rfl

theorem shiftedTime_eq_none (z : Zone) (h : IsTime s) (hfits : ¬ FitsInt day) :
    shiftedTime z s day = none := by
  unfold shiftedTime
  rw [tmpDate_eq h, getTimet_eq z h, daySeconds_eq, if_neg hfits]
  rfl

/-- Days that fit are added on the calendar. -/
theorem addDays_eq (h : IsTime s) (hfits : FitsInt day)
    (hyear : FourDigitYear (laterBy (momentOf h) day).date.year) :
    addDays (.fixed offset) s day = some (momentText (laterBy (momentOf h) day)) := by
  unfold addDays
  rw [shiftedTime_eq _ h hfits]
  exact getTimetStr_of_standard rfl hyear

theorem addDays_eq_none (h : IsTime s) (hfits : ¬ FitsInt day) :
    addDays (.fixed offset) s day = none := by
  unfold addDays
  rw [shiftedTime_eq_none _ h hfits]
  rfl

theorem fitsInt_of_addDays {t : List UInt8} (h : IsTime s)
    (hadd : addDays (.fixed offset) s day = some t) : FitsInt day := by
  by_contra hfits
  rw [addDays_eq_none h hfits] at hadd
  cases hadd

/-- The date written is a time again, the shifted one. -/
theorem isTime_laterBy {m : Moment} (hyear : FourDigitYear m.date.year) :
    ∃ h : IsTime (momentText m), momentOf h = m := by
  obtain ⟨hlo, hhi⟩ := hyear
  exact ⟨isTime_momentText (by omega) hhi, momentOf_momentText _ (by omega) hhi⟩

theorem diffDays_eq (h : IsTime s) (hfits : FitsInt day)
    (hyear : FourDigitYear (laterBy (momentOf h) day).date.year) :
    diffDays (.fixed offset) s (momentText (laterBy (momentOf h) day)) = some (day + 1) := by
  obtain ⟨ht, hmoment⟩ := isTime_laterBy hyear
  have hdiff : instant (.fixed offset) (momentOf ht) - instant (.fixed offset) (momentOf h) =
      day * 86400 := by
    rw [hmoment, instant_laterBy]
    omega
  obtain ⟨hlo, hhi⟩ := hfits
  unfold diffDays
  rw [getTimet_eq _ ht, getTimet_eq _ h]
  show (int (instant _ (momentOf ht) - instant _ (momentOf h))).bind _ = _
  rw [hdiff, int_of_range (by omega) (by omega)]
  exact congrArg (fun q => some (q + 1)) (Int.mul_tdiv_cancel day (by decide))

end Dates

/-! ## The laws -/

/-- Days act on a date, `DiffDays` counts them and the variants of `AddDays` agree with it. -/
structure DayLaws (z : Zone) (s : List UInt8) (m n : ℤ) : Prop where
  action : ∃ t u, addDays z s m = some t ∧ addDays z t n = some u ∧ addDays z s (m + n) = some u
  zero : addDays z s 0 = some s
  diff : ∃ t, addDays z s n = some t ∧ diffDays z s t = some (n + 1)
  variants : ∀ day t, addDays z s day = some t →
    addDaysModified z s day = some t ∧ returnAddDays z s day = some (some t)

theorem addDays_variants {z : Zone} {s t : List UInt8} {day : ℤ} (h : addDays z s day = some t) :
    addDaysModified z s day = some t ∧ returnAddDays z s day = some (some t) := by
  refine ⟨h, ?_⟩
  obtain ⟨time, htime, htext⟩ := Option.bind_eq_some_iff.mp h
  unfold returnAddDays
  rw [htime]
  exact congrArg some htext

theorem dayLaws_of_fits {offset : ℤ} {s : List UInt8} (h : IsTime s) {m n : ℤ}
    (hyear : ∀ day ∈ [0, m, n, m + n], FourDigitYear (laterBy (momentOf h) day).date.year)
    (hm : FitsInt m) (hn : FitsInt n) (hmn : FitsInt (m + n)) : DayLaws (.fixed offset) s m n := by
  have hyear₀ := hyear 0 (by simp)
  have hyearₘ := hyear m (by simp)
  have hyearₙ := hyear n (by simp)
  have hyear₂ := hyear (m + n) (by simp)
  obtain ⟨ht, hmoment⟩ := isTime_laterBy hyearₘ
  refine ⟨⟨_, _, addDays_eq h hm hyearₘ, ?_, addDays_eq h hmn hyear₂⟩, ?_,
    ⟨_, addDays_eq h hn hyearₙ, diffDays_eq h hn hyearₙ⟩, fun day t => addDays_variants⟩
  -- the text of the first sum is read back as the moment it was written from
  · have htwice : laterBy (momentOf ht) n = laterBy (momentOf h) (m + n) := by
      rw [hmoment, laterBy_add]
    rw [addDays_eq ht hn (by rwa [htwice]), htwice]
  · rw [addDays_eq h (by decide) hyear₀, laterBy_zero, momentOf_text]

/-- As long as the dates keep a year of four digits, days act on dates if and only if their seconds
fit `int`. -/
theorem day_laws_iff (offset : ℤ) (s : List UInt8) (h : IsTime s) (m n : ℤ)
    (hyear : ∀ day ∈ [0, m, n, m + n], FourDigitYear (laterBy (momentOf h) day).date.year) :
    DayLaws (.fixed offset) s m n ↔ FitsInt m ∧ FitsInt n ∧ FitsInt (m + n) := by
  constructor
  · rintro ⟨⟨t, u, hfirst, -, hboth⟩, -, ⟨v, hsecond, -⟩, -⟩
    exact ⟨fitsInt_of_addDays h hfirst, fitsInt_of_addDays h hsecond, fitsInt_of_addDays h hboth⟩
  · rintro ⟨hm, hn, hmn⟩
    exact dayLaws_of_fits h hyear hm hn hmn

/-- Over the end of a leap year and back. -/
theorem day_laws_iff_leap :
    DayLaws (.fixed 28800) (text "20240229123456") 366 (-365) :=
  (day_laws_iff 28800 _ (by decide +kernel) 366 (-365) (by decide +kernel)).mpr (by decide +kernel)

/-- The seconds of 30000 days, some 82 years, do not fit `int`: neither `AddDays` nor `DiffDays` has a
result. -/
theorem days_overflow :
    ∃ h : IsTime (text "20000101000000"),
      momentText (laterBy (momentOf h) 30000) = text "20820219000000" ∧
      addDays (.fixed 28800) (text "20000101000000") 30000 = none ∧
      diffDays (.fixed 28800) (text "20000101000000") (text "20820219000000") = none :=
  ⟨by decide +kernel, by decide +kernel⟩

end Tdm.Time
