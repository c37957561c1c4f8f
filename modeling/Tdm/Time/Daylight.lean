import Tdm.Time.TimeText

/-!
# Times and daylight saving

`GetTimet` reads a time as standard time, also while daylight saving is in force. `GetTimetStr` takes
the hour back by converting the instant one hour earlier. In the first hour of a period that instant
lies before the period, so the hour is taken back a second time.
-/

namespace Tdm.Time

open Tdm.Lib

/-- Daylight saving has been in force for less than an hour. -/
def Zone.FirstHour (z : Zone) (t : ℤ) : Prop := z.dst t = true ∧ z.dst (t - 3600) = false

instance (z : Zone) (t : ℤ) : Decidable (z.FirstHour t) := inferInstanceAs (Decidable (_ ∧ _))

section Shifted
variable {z : Zone} {m : Moment}

/-- `localtime` within a day of a moment with a year of four digits. -/
theorem localtime_near {t : ℤ} {m' : Moment} (h : t + z.ahead t + epoch = m'.seconds)
    (hy : FourDigitYear m.date.year) (hlo : m.seconds ≤ m'.seconds + 86400)
    (hhi : m'.seconds ≤ m.seconds + 86400) :
    localtime z t = some (tmOf m' (if z.dst t then 1 else 0)) := by
  have hafter := Moment.year_le_of_seconds_le hhi
  have hbefore := Moment.year_le_of_seconds_le hlo
  obtain ⟨hge, hle⟩ := hy
  exact localtime_eq h (by omega) (by omega)

/-- During daylight saving the first conversion only tells that it is in force. -/
theorem getTimetStr_of_dst (hdst : z.dst (instant z m) = true) (hy : FourDigitYear m.date.year) :
    getTimetStr z (instant z m) = (localtime z (instant z m - 3600)).bind (strftime 15) := by
  have hseconds : instant z m + z.ahead (instant z m) + epoch =
      (Moment.ofSeconds (m.seconds + 3600)).seconds := by
    rw [Moment.seconds_ofSeconds, z.ahead_of_dst hdst, instant]
    omega
  have hlocal := localtime_near hseconds hy (by rw [Moment.seconds_ofSeconds]; omega)
    (by rw [Moment.seconds_ofSeconds]; omega)
  rw [hdst] at hlocal
  exact timetText_of_dst hlocal rfl

/-- Later in a period the second conversion gives the moment of standard time. -/
theorem getTimetStr_later (hdst : z.dst (instant z m) = true)
    (hbefore : z.dst (instant z m - 3600) = true) (hy : FourDigitYear m.date.year) :
    getTimetStr z (instant z m) = some (momentText m) := by
  have hseconds : instant z m - 3600 + z.ahead (instant z m - 3600) + epoch = m.seconds := by
    rw [z.ahead_of_dst hbefore, instant]
    omega
  rw [getTimetStr_of_dst hdst hy, localtime_near hseconds hy (by omega) (by omega), Option.bind_some,
    strftime_tmOf hy]

/-- In the first hour it gives a moment one hour earlier. -/
theorem getTimetStr_firstHour (h : z.FirstHour (instant z m)) (hy : FourDigitYear m.date.year) :
    getTimetStr z (instant z m) = strftime 15 (tmOf (Moment.ofSeconds (m.seconds - 3600)) 0) := by
  have hseconds : instant z m - 3600 + z.ahead (instant z m - 3600) + epoch =
      (Moment.ofSeconds (m.seconds - 3600)).seconds := by
    rw [Moment.seconds_ofSeconds, z.ahead_of_standard h.2, instant]
    omega
  rw [getTimetStr_of_dst h.1 hy, localtime_near hseconds hy (by rw [Moment.seconds_ofSeconds]; omega)
    (by rw [Moment.seconds_ofSeconds]; omega), h.2, Option.bind_some, if_neg Bool.false_ne_true]

/-- A year below 1000 is written with fewer digits. -/
theorem length_strftime_lt {s : List UInt8} {isdst : ℤ} (hlo : 0 ≤ m.date.year)
    (hhi : m.date.year < 1000) (h : strftime 15 (tmOf m isdst) = some s) : s.length < 14 := by
  obtain ⟨-, hmo, hd, hh, hmi, hs⟩ := lengths_momentText hlo (by omega)
  have hyear : (decimalInt (m.date.year - 1900 + 1900)).length ≤ 3 := by
    rw [Int.sub_add_cancel, decimalInt, length_decimalPadded, if_neg (by omega)]
    have hlen := (length_decimal_le_iff m.date.year.natAbs 2).mpr (by omega)
    omega
  unfold strftime tmOf at h
  simp only [Option.ite_none_right_eq_some, Option.some.injEq] at h
  rw [← h.2]
  simp only [List.length_append]
  omega

/-- The text of another moment is another text. -/
theorem strftime_ne {m' : Moment} (hy : FourDigitYear m.date.year) (hlo : 0 ≤ m'.date.year)
    (hhi : m'.date.year ≤ 9999) (hne : m' ≠ m) (isdst : ℤ) :
    strftime 15 (tmOf m' isdst) ≠ some (momentText m) := by
  obtain ⟨hge, hle⟩ := hy
  intro htext
  -- a shorter year makes a shorter text, a year of four digits can be read back
  by_cases hyear : m'.date.year < 1000
  · have hlt := length_strftime_lt hlo hyear htext
    rw [length_momentText (by omega) hle] at hlt
    exact absurd hlt (lt_irrefl 14)
  · rw [strftime_tmOf ⟨not_lt.mp hyear, hhi⟩, Option.some.injEq] at htext
    exact hne (momentText_injective hlo hhi (by omega) hle htext)

theorem getTimetStr_ne_of_firstHour (h : z.FirstHour (instant z m)) (hy : FourDigitYear m.date.year) :
    getTimetStr z (instant z m) ≠ some (momentText m) := by
  have hseconds := Moment.seconds_ofSeconds (m.seconds - 3600)
  have hbefore : m.date.year ≤ (Moment.ofSeconds (m.seconds - 3600)).date.year + 1 :=
    Moment.year_le_of_seconds_le (by omega)
  have hafter : (Moment.ofSeconds (m.seconds - 3600)).date.year ≤ m.date.year :=
    Moment.year_le (by omega)
  obtain ⟨hge, hle⟩ := hy
  rw [getTimetStr_firstHour h ⟨hge, hle⟩]
  refine strftime_ne ⟨hge, hle⟩ (by omega) (by omega) ?_ 0
  intro heq
  rw [heq] at hseconds
  omega

end Shifted

/-- A time survives the conversion to an instant and back if and only if the instant is not in the
first hour of a period of daylight saving. -/
theorem daylight_roundtrip_iff (z : Zone) (s : List UInt8) (h : IsTime s)
    (hy : FourDigitYear (part s 0 4)) :
    (getTimet z s).bind (getTimetStr z) = some s ↔ ¬ z.FirstHour (instant z (momentOf h)) := by
  have hy' : FourDigitYear (momentOf h).date.year := hy
  have hs : some (momentText (momentOf h)) = some s := congrArg some (momentOf_text h)
  rw [getTimet_eq z h, Option.bind_some]
  constructor
  · intro htext hfirst
    exact getTimetStr_ne_of_firstHour hfirst hy' (htext.trans hs.symm)
  · intro hnot
    cases hdst : z.dst (instant z (momentOf h)) with
    | false => exact (getTimetStr_of_standard hdst hy').trans hs
    | true =>
      have hbefore : z.dst (instant z (momentOf h) - 3600) = true := by
        by_contra hfalse
        exact hnot ⟨hdst, Bool.not_eq_true _ ▸ hfalse⟩
      exact (getTimetStr_later hdst hbefore hy').trans hs

/-- One hour ahead of UTC, with daylight saving from 2024-03-31 to 2024-10-27, in both cases at
01:00 UTC. -/
def summerZone : Zone where
  offset := 3600
  dst t := 1711846800 ≤ t && t < 1729990800
  long t h := by
    rw [Bool.and_eq_true, decide_eq_true_eq, decide_eq_true_eq] at h
    refine ⟨1711846800, 1729990800, h.1, h.2, by decide, fun u hlo hhi => ?_⟩
    rw [Bool.and_eq_true, decide_eq_true_eq, decide_eq_true_eq]
    exact ⟨hlo, hhi⟩

theorem daylight_roundtrip_iff_summer :
    (getTimet summerZone (text "20240701120000")).bind (getTimetStr summerZone) =
      some (text "20240701120000") :=
  (daylight_roundtrip_iff summerZone _ (by decide +kernel) (by decide +kernel)).mpr (by decide +kernel)

/-- At the beginning of daylight saving the text goes back by an hour. -/
theorem time_lost_at_transition :
    IsTime (text "20240331023000") ∧
    (getTimet summerZone (text "20240331023000")).bind (getTimetStr summerZone) =
      some (text "20240331013000") := by
  decide +kernel

end Tdm.Time
