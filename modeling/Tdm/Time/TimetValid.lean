import Tdm.Time.MonthDays

/-!
# Times with a check of their parts

`GetTimetValid` is `GetTimet` with a check of every part, the day of the month against 0 and 31 in every
month. What passes and is no day of the month, such as the 30th of February or day 0, is carried over by
`mktime` into another month.
-/

namespace Tdm.Time

open Tdm.Lib

/-- The parts of a text lie within the bounds that `GetTimetValid` checks. -/
def InRanges (s : List UInt8) : Prop :=
  (1 ≤ part s 4 2 ∧ part s 4 2 ≤ 12) ∧ part s 6 2 ≤ 31 ∧
    part s 8 2 < 24 ∧ part s 10 2 < 60 ∧ part s 12 2 < 60

instance (s : List UInt8) : Decidable (InRanges s) := inferInstanceAs (Decidable (_ ∧ _))

/-- The parts of a text are those of a time of the calendar. -/
def CalendarValid (s : List UInt8) : Prop :=
  isDateExt (s.take 8) = true ∧ part s 8 2 < 24 ∧ part s 10 2 < 60 ∧ part s 12 2 < 60

instance (s : List UInt8) : Decidable (CalendarValid s) := inferInstanceAs (Decidable (_ ∧ _))

/-- `GetTimetValid` accepts a text if and only if it is a time of the calendar, and then gives the
instant that is written so. -/
def ValidExactly (z : Zone) (s : List UInt8) : Prop :=
  ((∃ t, getTimetValid z s = some t ∧ t ≠ -1) ↔ CalendarValid s) ∧
    ∀ t, getTimetValid z s = some t → t ≠ -1 → getTimetStr z t = some s

section Valid
variable {s : List UInt8}

theorem part_take (s : List UInt8) {i n k : ℕ} (h : i + n ≤ k) : part (s.take k) i n = part s i n := by
  unfold part
  rw [List.drop_take, List.take_take, Nat.min_eq_left (by omega)]

theorem DigitText.take {k : ℕ} (h : DigitText k s) {n : ℕ} (hn : n ≤ k) : DigitText n (s.take n) where
  length := by
    rw [List.length_take, h.length]
    omega
  digits c hc := h.digits c (List.mem_of_mem_take hc)

/-- The month of a text of digits is one of its year. -/
theorem monthLength_monthOf (hlo : 1 ≤ part s 4 2) (hhi : part s 4 2 ≤ 12) :
    monthLength (monthOf s) = (monthLengths (part s 0 4)).getD (part s 4 2 - 1) 0 := by
  have hyear : monthOf s / 12 = part s 0 4 := by
    unfold monthOf
    omega
  have hmonth : (monthOf s % 12).toNat = part s 4 2 - 1 := by
    unfold monthOf
    omega
  unfold monthLength
  rw [hyear, hmonth]

theorem calendarValid_iff (h : DigitText 14 s) (hyear : 1901 ≤ part s 0 4) :
    CalendarValid s ↔ InRanges s ∧ 1 ≤ part s 6 2 ∧ part s 6 2 ≤ monthLength (monthOf s) := by
  have hbounds := monthLength_bounds (monthOf s)
  have hmonth : monthOf (s.take 8) = monthOf s := by
    unfold monthOf
    rw [part_take s (by decide), part_take s (by decide)]
  unfold CalendarValid InRanges
  rw [isDateExt_iff (h.take (by decide)), hmonth, part_take s (by decide), part_take s (by decide),
    part_take s (by decide)]
  omega

theorem isTime_of_calendarValid (h : DigitText 14 s) (hyear : 1901 ≤ part s 0 4)
    (hvalid : CalendarValid s) : IsTime s := by
  obtain ⟨⟨⟨hlo, hhi⟩, -, htime⟩, hday, hle⟩ := (calendarValid_iff h hyear).mp hvalid
  refine ⟨h.length, h.digits, hlo, hday, ?_, htime⟩
  rwa [← monthLength_monthOf hlo hhi]

/-- Within the bounds `GetTimetValid` is `GetTimet`. -/
theorem getTimetValid_eq (z : Zone) (h : DigitText 14 s) (hyear : 1901 ≤ part s 0 4) :
    getTimetValid z s = if InRanges s then getTimet z s else some (-1) := by
  rw [getTimet_parts z h]
  unfold getTimetValid
  rw [twoChars_eq h (by decide), twoChars_eq h (by decide), twoChars_eq h (by decide),
    twoChars_eq h (by decide), twoChars_eq h (by decide), atoi_year h (by decide)]
  simp only [Option.bind_eq_bind, Option.bind_some, Option.pure_def]
  rw [if_neg (by omega)]
  by_cases hranges : InRanges s
  · rw [if_pos hranges]
    unfold InRanges at hranges
    rw [if_neg (by omega), if_neg (by omega), if_neg (by omega), if_neg (by omega), if_neg (by omega)]
  · -- the first check that fails returns -1
    rw [if_neg hranges]
    unfold InRanges at hranges
    split_ifs
    all_goals first
      | rfl
      | omega

/-- A time of the calendar is accepted, and its instant is written as it was. -/
theorem roundtrip_of_calendarValid (offset : ℤ) (h : DigitText 14 s) (hyear : 1901 ≤ part s 0 4)
    (hvalid : CalendarValid s) : (getTimet (.fixed offset) s).bind (getTimetStr (.fixed offset)) = some s := by
  have htime := isTime_of_calendarValid h hyear hvalid
  have hlt := part_lt h (i := 0) (n := 4) (by decide)
  have hfour : FourDigitYear (momentOf htime).date.year := by
    show 1000 ≤ (part s 0 4 : ℤ) ∧ (part s 0 4 : ℤ) ≤ 9999
    omega
  rw [getTimet_eq _ htime, Option.bind_some, getTimetStr_of_standard rfl hfour, momentOf_text]

end Valid

/-- `GetTimetValid` tells the times of the calendar apart from other texts if and only if the day is not
one that passes the check and is missing in its month. -/
theorem timet_valid_exact_iff (offset : ℤ) (s : List UInt8) (h : DigitText 14 s)
    (hyear : 1901 ≤ part s 0 4) (hinstant : getTimet (.fixed offset) s ≠ some (-1)) :
    ValidExactly (.fixed offset) s ↔
      ¬ (InRanges s ∧ (part s 6 2 = 0 ∨ monthLength (monthOf s) < part s 6 2)) := by
  have hvalid := calendarValid_iff h hyear
  have hresult := getTimetValid_eq (.fixed offset) h hyear
  unfold ValidExactly
  by_cases hranges : InRanges s
  · rw [if_pos hranges] at hresult
    simp only [hresult, hranges, true_and] at hvalid ⊢
    -- the text is accepted, whatever its day
    have haccepted : ∃ t, getTimet (.fixed offset) s = some t ∧ t ≠ -1 := by
      rw [getTimet_parts _ h] at hinstant ⊢
      exact ⟨_, rfl, fun heq => hinstant (congrArg some heq)⟩
    constructor
    · rintro ⟨hexact, -⟩ hday
      have hday' := hvalid.mp (hexact.mp haccepted)
      omega
    · intro hday
      have hcalendar := hvalid.mpr (by omega)
      refine ⟨iff_of_true haccepted hcalendar, ?_⟩
      intro t ht _
      have hback := roundtrip_of_calendarValid offset h hyear hcalendar
      rwa [ht, Option.bind_some] at hback
  · rw [if_neg hranges] at hresult
    simp only [hresult, hranges, false_and, iff_false, not_false_eq_true, iff_true] at hvalid ⊢
    refine ⟨⟨?_, fun hcalendar => absurd hcalendar hvalid⟩, ?_⟩
    · rintro ⟨t, ht, hne⟩
      exact absurd (Option.some.inj ht).symm hne
    · intro t ht hne
      exact absurd (Option.some.inj ht).symm hne

theorem timet_valid_exact_iff_leap : ValidExactly (.fixed 28800) (text "20240229123456") :=
  (timet_valid_exact_iff 28800 _ (by decide +kernel) (by decide) (by decide +kernel)).mpr
    (by decide +kernel)

/-- The 30th of February is taken for the second of March. -/
theorem missing_day_accepted :
    isDateExt (text "20230230") = false ∧
    (getTimetValid (.fixed 28800) (text "20230230000000")).bind (getTimetStr (.fixed 28800)) =
      some (text "20230302000000") ∧
    ¬ ValidExactly (.fixed 28800) (text "20230230000000") := by
  refine ⟨by decide +kernel, by decide +kernel, ?_⟩
  rintro ⟨hexact, -⟩
  have hvalid := hexact.mp ⟨1677686400, by decide +kernel, by decide⟩
  exact absurd hvalid (by decide +kernel)

end Tdm.Time
