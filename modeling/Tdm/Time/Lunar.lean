import Tdm.Time.TimeText

/-!
# Lunar dates

`SolarDay2LunarDay` walks a table of lunar years, month by month, until the days are used up. The walk is
a lookup in the row of months the table stands for, so consecutive days have consecutive lunar dates. The
day number is a quotient of the seconds of the instant, so it changes at midnight UTC: in the zone UTC+8
the lunar date changes at 8 in the morning, and not at the beginning of the day.
-/

namespace Tdm.Time

open Tdm.Lib

/-! ## The source -/

def giDateOrig : ℤ := 7330

def gaiDateTable : List ℕ :=
  [0x5f52, 0xe92, 0xd26, 0x352e, 0xa57, 0x8ad6, 0x35a, 0x6d5, 0x5b69, 0x749,
    0x693, 0x4a9b, 0x52b, 0xa5b, 0x2aae, 0x56a, 0x7dd5, 0xba4, 0xb49, 0x5d53,
    0xa95, 0x52d, 0x455d, 0xab5, 0x9baa, 0x5d2, 0xda5, 0xeeaa, 0xd4a, 0xc95,
    0x4a9e, 0x556, 0xad5, 0x2ada, 0x6d2, 0x6765, 0x725, 0x64b, 0x5657, 0xcab,
    0x55a, 0x356e, 0xb56, 0xbf52, 0xb52, 0xb25, 0xed2b, 0xa4b, 0x4ab, 0x52bb,
    0x5ad, 0xb6a, 0x2daa, 0xd92, 0x7ea5, 0xd25, 0xa55, 0xda5d, 0x4b6, 0x5b5,
    0x36d6]

/-- `leap` of an entry of the table. -/
def leapOf (bigSmallDist : ℕ) : ℕ :=
  if bigSmallDist >>> 12 > 12 then (bigSmallDist >>> 12) &&& 7 else bigSmallDist >>> 12

/-- `leapShift` of an entry of the table. -/
def leapShiftOf (bigSmallDist : ℕ) : ℕ := if bigSmallDist >>> 12 > 12 then 1 else 0

/-- The loop over the months of one year: the days left behind them, or `iResult`. -/
def lunarMonthLoop (iLoop leap leapShift : ℕ) : ℕ → ℕ → ℕ → ℕ → ℕ ⊕ ℕ
  | 0, _, _, iDayLeave => .inl iDayLeave
  | n + 1, iLoopMonth, bigSmallDist, iDayLeave =>
    let count := (bigSmallDist &&& 1) + 29 - if iLoopMonth = leap then leapShift else 0
    if iDayLeave < count then .inr ((iLoop <<< 9) + (iLoopMonth <<< 5) + iDayLeave + 1)
    else
      let iDayLeave := iDayLeave - count
      if iLoopMonth = leap then
        let count := 29 + leapShift
        if iDayLeave < count then
          .inr ((iLoop <<< 9) + (iLoopMonth <<< 5) + iDayLeave + 1 + (1 <<< 21))
        else lunarMonthLoop iLoop leap leapShift n (iLoopMonth + 1) (bigSmallDist >>> 1) (iDayLeave - count)
      else lunarMonthLoop iLoop leap leapShift n (iLoopMonth + 1) (bigSmallDist >>> 1) iDayLeave

/-- The loop over the years. -/
def lunarYearLoop : List ℕ → ℕ → ℕ → Option ℕ
  | [], _, _ => none
  | bigSmallDist :: table, iLoop, iDayLeave =>
    (lunarMonthLoop iLoop (leapOf bigSmallDist) (leapShiftOf bigSmallDist) 12 1 bigSmallDist iDayLeave).elim
      (fun iDayLeave => lunarYearLoop table (iLoop + 1) iDayLeave) some

/-- The text of `iResult`. -/
def lunarResult (iResult : ℕ) : List UInt8 :=
  decimalPadded 4 ((iResult >>> 9 &&& 0xFFF : ℕ) : ℤ) ++
    decimalPadded 2 ((iResult >>> 5 &&& 0xF : ℕ) : ℤ) ++
    decimalPadded 2 ((iResult &&& 0x1F : ℕ) : ℤ) ++ decimalInt ((iResult >>> 21 &&& 0x1 : ℕ) : ℤ)

/-- `SolarDay2LunarDay`; the inner `none` is the null pointer. -/
def solarDay2LunarDay (z : Zone) (solarDay : List UInt8) : Option (Option (List UInt8)) := do
  let iDayLeave := toInt32 ((← getTimet z solarDay).tdiv (24 * 3600) - giDateOrig)
  if iDayLeave < 0 ∨ iDayLeave > 22295 then return none
  else return (lunarYearLoop gaiDateTable 0 iDayLeave.toNat).map lunarResult

/-! ## The lunar calendar of the table -/

/-- A month of the lunar calendar; the years count from the first one of the table. -/
structure LunarMonth where
  year : ℕ
  month : ℕ
  leap : Bool
deriving DecidableEq

structure LunarDate where
  month : LunarMonth
  day : ℕ
deriving DecidableEq

def LunarMonth.entry (m : LunarMonth) : ℕ := gaiDateTable.getD m.year 0

/-- The month behind a month: its leap month, the next month or the first one of the next year. -/
def LunarMonth.next (m : LunarMonth) : LunarMonth :=
  if m.leap = false ∧ m.month = leapOf m.entry then ⟨m.year, m.month, true⟩
  else if m.month < 12 then ⟨m.year, m.month + 1, false⟩
  else ⟨m.year + 1, 1, false⟩

/-- The days of a month. -/
def LunarMonth.days (m : LunarMonth) : ℕ :=
  if m.leap then 29 + leapShiftOf m.entry
  else 29 + m.entry / 2 ^ (m.month - 1) % 2 - if m.month = leapOf m.entry then leapShiftOf m.entry else 0

/-- The day behind a day. -/
def LunarDate.next (d : LunarDate) : LunarDate :=
  if d.day < d.month.days then ⟨d.month, d.day + 1⟩ else ⟨d.month.next, 1⟩

/-- The writing of a lunar date. -/
def LunarDate.text (d : LunarDate) : List UInt8 :=
  decimalPadded 4 (d.month.year : ℤ) ++ decimalPadded 2 (d.month.month : ℤ) ++
    decimalPadded 2 (d.day : ℤ) ++ decimalInt (if d.month.leap then 1 else 0)

/-- The months of a year, with their lengths, from the month `month` on. -/
def yearMonths (year leap leapShift : ℕ) : ℕ → ℕ → ℕ → List (LunarMonth × ℕ)
  | 0, _, _ => []
  | n + 1, month, dist =>
    (⟨year, month, false⟩, (dist &&& 1) + 29 - if month = leap then leapShift else 0) ::
      ((if month = leap then [(⟨year, month, true⟩, 29 + leapShift)] else []) ++
        yearMonths year leap leapShift n (month + 1) (dist >>> 1))

/-- The months of a table. -/
def tableMonths : List ℕ → ℕ → List (LunarMonth × ℕ)
  | [], _ => []
  | dist :: table, year =>
    yearMonths year (leapOf dist) (leapShiftOf dist) 12 1 dist ++ tableMonths table (year + 1)

def lunarMonths : List (LunarMonth × ℕ) := tableMonths gaiDateTable 0

/-- The lunar date of a day, counted from the first one of the table. -/
def lunarDateAt (k : ℕ) : Option LunarDate := (blockAt lunarMonths k).map fun b => ⟨b.1, b.2 + 1⟩

/-! ## The loops look the day up -/

/-- `iResult` of a month and a place in it. -/
def lunarCode (m : LunarMonth) (d : ℕ) : ℕ :=
  (m.year <<< 9) + (m.month <<< 5) + d + 1 + if m.leap then 1 <<< 21 else 0

theorem lunarCode_regular (year month d : ℕ) :
    lunarCode ⟨year, month, false⟩ d = (year <<< 9) + (month <<< 5) + d + 1 := by
  rw [lunarCode, if_neg Bool.false_ne_true, Nat.add_zero]

theorem lunarCode_leap (year month d : ℕ) :
    lunarCode ⟨year, month, true⟩ d = (year <<< 9) + (month <<< 5) + d + 1 + (1 <<< 21) := by
  rw [lunarCode, if_pos rfl]

theorem lunarMonthLoop_eq (year leap shift n month dist k : ℕ) :
    lunarMonthLoop year leap shift n month dist k =
      (blockAt (yearMonths year leap shift n month dist) k).elim
        (.inl (k - ((yearMonths year leap shift n month dist).map Prod.snd).sum))
        fun b => .inr (lunarCode b.1 b.2) := by
  induction n generalizing month dist k with
  | zero => rfl
  | succ n ih =>
    rw [lunarMonthLoop, yearMonths, blockAt_cons, List.map_cons, List.sum_cons]
    simp only [ih]
    by_cases hcount : k < (dist &&& 1) + 29 - if month = leap then shift else 0
    · rw [if_pos hcount, if_pos hcount, Option.elim_some, lunarCode_regular]
    · rw [if_neg hcount, if_neg hcount]
      by_cases hleap : month = leap
      · simp only [if_pos hleap, List.singleton_append, blockAt_cons, List.map_cons, List.sum_cons]
        split
        · -- the numbers stay closed terms here: evaluated, the bit of the leap month is a large one
          rw [Option.elim_some, lunarCode_leap]
        · simp only [Nat.sub_sub]
          rw [Nat.add_assoc]
      · simp only [if_neg hleap, List.nil_append, Nat.sub_sub]

theorem lunarYearLoop_eq (table : List ℕ) (year k : ℕ) : lunarYearLoop table year k =
    (blockAt (tableMonths table year) k).map fun b => lunarCode b.1 b.2 := by
  induction table generalizing year k with
  | nil => rfl
  | cons dist table ih =>
    rw [lunarYearLoop, tableMonths, blockAt_append, lunarMonthLoop_eq]
    simp only [ih]
    split
    · rename_i hk
      cases hblock : blockAt (yearMonths year (leapOf dist) (leapShiftOf dist) 12 1 dist) k with
      | none => exact absurd ((blockAt_eq_none_iff _ _).mp hblock) (by omega)
      | some b => rw [Option.elim_some, Sum.elim_inr, Option.map_some]
    · rename_i hk
      rw [(blockAt_eq_none_iff _ _).mpr (by omega), Option.elim_none, Sum.elim_inl]

/-! ## The months of the table -/

theorem sum_lunarMonths : (lunarMonths.map Prod.snd).sum = 22295 := by decide +kernel

theorem chain_lunarMonths : lunarMonths.IsChain fun a b => b.1 = a.1.next := by decide +kernel

theorem bounds_lunarMonths : ∀ b ∈ lunarMonths,
    b.2 = b.1.days ∧ 29 ≤ b.2 ∧ b.2 ≤ 30 ∧ b.1.year ≤ 60 ∧ b.1.month ≤ 12 := by decide +kernel

/-- The bounds of the dates of the table. -/
structure LunarDate.InTable (d : LunarDate) : Prop where
  year : d.month.year ≤ 60
  month : d.month.month ≤ 12
  days : 29 ≤ d.month.days ∧ d.month.days ≤ 30
  day : 1 ≤ d.day ∧ d.day ≤ d.month.days

theorem inTable_of_lunarDateAt {k : ℕ} {d : LunarDate} (h : lunarDateAt k = some d) : d.InTable := by
  obtain ⟨⟨m, i⟩, hblock, rfl⟩ := Option.map_eq_some_iff.mp h
  obtain ⟨n, hmem, hi⟩ := mem_of_blockAt hblock
  obtain ⟨hdays, hlo, hhi, hyear, hmonth⟩ := bounds_lunarMonths _ hmem
  simp only at hdays hlo hhi
  subst hdays
  exact ⟨hyear, hmonth, ⟨hlo, hhi⟩, Nat.le_add_left 1 i, hi⟩

theorem lunarDateAt_eq_none_iff (k : ℕ) : lunarDateAt k = none ↔ 22295 ≤ k := by
  unfold lunarDateAt
  rw [Option.map_eq_none_iff, blockAt_eq_none_iff, sum_lunarMonths]

/-- Consecutive days have consecutive lunar dates. -/
theorem lunarDateAt_succ {k : ℕ} {d e : LunarDate} (h : lunarDateAt k = some d)
    (h' : lunarDateAt (k + 1) = some e) : e = d.next := by
  obtain ⟨⟨m, i⟩, hblock, rfl⟩ := Option.map_eq_some_iff.mp h
  obtain ⟨⟨m', i'⟩, hblock', rfl⟩ := Option.map_eq_some_iff.mp h'
  have hpos (b) (hb : b ∈ lunarMonths) : 0 < b.2 := by
    have := bounds_lunarMonths b hb
    omega
  obtain ⟨n, hmem, hnext⟩ := blockAt_succ chain_lunarMonths hpos hblock hblock'
  have hdays : n = m.days := (bounds_lunarMonths _ hmem).1
  unfold LunarDate.next
  obtain ⟨hlt, rfl, rfl⟩ | ⟨hfull, rfl, n', rfl⟩ := hnext
  · rw [if_pos (hdays ▸ hlt)]
  · rw [if_neg (by simp only; omega)]

/-! ## Texts -/

section Text
variable {d e : LunarDate}

theorem LunarDate.InTable.next_ne (h : d.InTable) : d.next ≠ d := by
  have hdays := h.days
  unfold LunarDate.next
  intro heq
  split at heq
  · have hday := congrArg LunarDate.day heq
    simp only at hday
    omega
  · have hday := congrArg LunarDate.day heq
    simp only at hday
    omega

/-- The parts of a date that is written in nine characters. -/
structure LunarDate.Narrow (d : LunarDate) : Prop where
  year : d.month.year ≤ 61
  month : d.month.month ≤ 12
  day : d.day ≤ 30

theorem LunarDate.InTable.narrow (h : d.InTable) : d.Narrow where
  year := h.year.trans (by decide)
  month := h.month
  day := h.day.2.trans h.days.2

theorem LunarMonth.next_bounds {m : LunarMonth} (hyear : m.year ≤ 60) (hmonth : m.month ≤ 12) :
    m.next.year ≤ 61 ∧ m.next.month ≤ 12 := by
  unfold LunarMonth.next
  split
  · exact ⟨by simp only; omega, hmonth⟩
  · split
    · exact ⟨by simp only; omega, by simp only; omega⟩
    · exact ⟨by simp only; omega, by simp only; omega⟩

theorem LunarDate.InTable.narrow_next (h : d.InTable) : d.next.Narrow := by
  have hdays := h.days
  unfold LunarDate.next
  split
  · exact ⟨h.year.trans (by decide), h.month, by simp only; omega⟩
  · have hnext := LunarMonth.next_bounds h.year h.month
    exact ⟨hnext.1, hnext.2, by simp only; omega⟩

theorem LunarDate.Narrow.text_inj (hd : d.Narrow) (he : e.Narrow) (h : d.text = e.text) : d = e := by
  have hfour {v w : ℕ} (hv : v ≤ 61) (hw : w ≤ 61) :
      (decimalPadded 4 (v : ℤ)).length = (decimalPadded 4 (w : ℤ)).length := by
    rw [length_decimalPadded_of_lt (by decide) (by omega), length_decimalPadded_of_lt (by decide) (by omega)]
  have htwo {v w : ℕ} (hv : v ≤ 30) (hw : w ≤ 30) :
      (decimalPadded 2 (v : ℤ)).length = (decimalPadded 2 (w : ℤ)).length := by
    rw [length_decimalPadded_two (by omega), length_decimalPadded_two (by omega)]
  have hmonths := hd.month
  have hmonths' := he.month
  unfold LunarDate.text at h
  simp only [List.append_assoc] at h
  obtain ⟨hyear, h⟩ := List.append_inj h (hfour hd.year he.year)
  obtain ⟨hmonth, h⟩ := List.append_inj h (htwo (by omega) (by omega))
  obtain ⟨hday, hleap⟩ := List.append_inj h (htwo hd.day he.day)
  have hyear := Int.ofNat_inj.mp (decimalPadded_injective 4 hyear)
  have hmonth := Int.ofNat_inj.mp (decimalPadded_injective 2 hmonth)
  have hday := Int.ofNat_inj.mp (decimalPadded_injective 2 hday)
  have hleap := decimalPadded_injective 0 hleap
  obtain ⟨⟨y, m, l⟩, i⟩ := d
  obtain ⟨⟨y', m', l'⟩, i'⟩ := e
  simp only at hyear hmonth hday hleap
  have hflag : l = l' := by
    cases l <;> cases l' <;> simp_all
  rw [hyear, hmonth, hday, hflag]

/-- The parts come out of `iResult` as they were packed. -/
theorem lunarResult_code {m : LunarMonth} {i : ℕ} (hyear : m.year ≤ 60) (hmonth : m.month ≤ 12)
    (hi : i < 30) : lunarResult (lunarCode m i) = LunarDate.text ⟨m, i + 1⟩ := by
  have hflag : lunarCode m i = m.year * 512 + m.month * 32 + i + 1 + if m.leap then 2097152 else 0 := by
    unfold lunarCode
    simp only [Nat.shiftLeft_eq]
  have hy : lunarCode m i >>> 9 &&& (2 ^ 12 - 1) = m.year := by
    rw [Nat.shiftRight_eq_div_pow, Nat.and_two_pow_sub_one_eq_mod _ 12, hflag]
    split <;> omega
  have hm : lunarCode m i >>> 5 &&& (2 ^ 4 - 1) = m.month := by
    rw [Nat.shiftRight_eq_div_pow, Nat.and_two_pow_sub_one_eq_mod _ 4, hflag]
    split <;> omega
  have hd : lunarCode m i &&& (2 ^ 5 - 1) = i + 1 := by
    rw [Nat.and_two_pow_sub_one_eq_mod _ 5, hflag]
    split <;> omega
  have hl : lunarCode m i >>> 21 &&& (2 ^ 1 - 1) = if m.leap then 1 else 0 := by
    rw [Nat.shiftRight_eq_div_pow, Nat.and_two_pow_sub_one_eq_mod _ 1, hflag]
    split <;> omega
  norm_num only at hy hm hd hl
  unfold lunarResult LunarDate.text
  rw [hy, hm, hd, hl]
  cases m.leap <;> rfl

end Text

/-- The loops find the lunar date. -/
theorem lunarYearLoop_text (k : ℕ) :
    (lunarYearLoop gaiDateTable 0 k).map lunarResult = (lunarDateAt k).map LunarDate.text := by
  rw [lunarYearLoop_eq, Option.map_map]
  unfold lunarDateAt
  rw [Option.map_map]
  refine Option.map_congr fun ⟨m, i⟩ hblock => ?_
  obtain ⟨n, hmem, hi⟩ := mem_of_blockAt hblock
  obtain ⟨-, -, hhi, hyear, hmonth⟩ := bounds_lunarMonths _ hmem
  exact lunarResult_code hyear hmonth (lt_of_lt_of_le hi hhi)

/-! ## Days in the zone UTC+8 -/

/-- The days from 1990-01-27 on, the first day of the table in the zone UTC+8. -/
def lunarDay (d : Date) : ℤ := d.number - (daysBeforeYear 1990 + 26)

/-- The day lies in the range of the table. -/
def InLunarTable (d : Date) : Prop := 0 ≤ lunarDay d ∧ lunarDay d < 22295

instance (d : Date) : Decidable (InLunarTable d) := inferInstanceAs (Decidable (_ ∧ _))

/-- `b` is the writing of the day behind the one that `a` is the writing of. -/
def LunarSuccessor (a b : List UInt8) : Prop :=
  ∃ d : LunarDate, d.InTable ∧ a = d.text ∧ b = d.next.text

/-- The day that is looked up: midnight UTC is at 8 in the morning. -/
def lunarIndex {s : List UInt8} (h : IsTime s) : ℤ :=
  lunarDay (momentOf h).date + if part s 8 2 < 8 then 0 else 1

section Days
variable {s t : List UInt8}

/-- The quotient of the source, less the origin; before 1970 it is rounded up. -/
theorem instant_tdiv (h : IsTime s) :
    (instant (.fixed 28800) (momentOf h)).tdiv (24 * 3600) - giDateOrig = lunarIndex h ∨
    (instant (.fixed 28800) (momentOf h)).tdiv (24 * 3600) - giDateOrig = lunarIndex h + 1 ∧
      lunarIndex h < -1 := by
  have htime := h.time
  have hseconds : instant (.fixed 28800) (momentOf h) =
      (lunarDay (momentOf h).date + 7331) * 86400 +
        (part s 8 2 * 3600 + part s 10 2 * 60 + part s 12 2) - 28800 := by
    unfold instant Moment.seconds lunarDay epoch daysBeforeYear Zone.fixed
    simp only [momentOf]
    omega
  have hquot : instant (.fixed 28800) (momentOf h) / 86400 - giDateOrig = lunarIndex h := by
    unfold lunarIndex giDateOrig
    rw [hseconds]
    split <;> omega
  have hday : (24 * 3600 : ℤ) = 86400 := rfl
  have hsign : Int.sign 86400 = 1 := rfl
  rw [hday, Int.tdiv_eq_ediv, hsign]
  split
  · left
    omega
  · right
    unfold giDateOrig at *
    omega

theorem lunarIndex_bounds (h : IsTime s) : -2 ^ 30 ≤ lunarIndex h ∧ lunarIndex h < 2 ^ 30 := by
  have hyear : part s 0 4 < 10 ^ 4 := part_lt h.digitText (by decide)
  have hday := (momentOf h).date.dayOfYear_lt
  have hsum : (monthLengths (momentOf h).date.year).sum ≤ 366 := by
    have := daysBeforeYear_succ (momentOf h).date.year
    unfold daysBeforeYear at this
    omega
  have hdate : (momentOf h).date.year = part s 0 4 := rfl
  unfold lunarIndex lunarDay Date.number daysBeforeYear
  rw [hdate] at *
  split <;> omega

/-- The lunar date is looked up by the day in UTC. -/
theorem solarDay2LunarDay_eq (h : IsTime s) : solarDay2LunarDay (.fixed 28800) s =
    some (if lunarIndex h < 0 then none else (lunarDateAt (lunarIndex h).toNat).map LunarDate.text) := by
  have hbounds := lunarIndex_bounds h
  have htotal := (lunarDateAt_eq_none_iff (lunarIndex h).toNat).mpr
  unfold solarDay2LunarDay
  rw [getTimet_eq _ h]
  simp only [Option.bind_eq_bind, Option.bind_some, lunarYearLoop_text]
  obtain hindex | ⟨hindex, hneg⟩ := instant_tdiv h
  · rw [hindex, toInt32_of_range (by omega) (by omega)]
    by_cases hneg : lunarIndex h < 0
    · rw [if_pos (.inl hneg), if_pos hneg]
      rfl
    · rw [if_neg hneg]
      by_cases hbeyond : lunarIndex h > 22295
      · rw [if_pos (.inr hbeyond), htotal (by omega)]
        rfl
      · rw [if_neg (by omega)]
        rfl
  · rw [hindex, toInt32_of_range (by omega) (by omega), if_pos (.inl (by omega)), if_pos (by omega)]
    rfl

/-- A result is the writing of the date of a day of the table. -/
theorem exists_lunarDateAt {a : List UInt8} (h : IsTime s)
    (ha : solarDay2LunarDay (.fixed 28800) s = some (some a)) :
    0 ≤ lunarIndex h ∧ ∃ d, lunarDateAt (lunarIndex h).toNat = some d ∧ d.text = a := by
  rw [solarDay2LunarDay_eq h, Option.some_inj] at ha
  split at ha
  · cases ha
  · exact ⟨by omega, Option.map_eq_some_iff.mp ha⟩

/-- The results of a day and the next one differ. -/
theorem text_succ_ne {k : ℕ} (hk : k < 22295) :
    (lunarDateAt k).map LunarDate.text ≠ (lunarDateAt (k + 1)).map LunarDate.text := by
  obtain ⟨d, hd⟩ : ∃ d, lunarDateAt k = some d :=
    Option.ne_none_iff_exists'.mp fun h => absurd ((lunarDateAt_eq_none_iff k).mp h) (by omega)
  have htable := inTable_of_lunarDateAt hd
  rw [hd]
  cases he : lunarDateAt (k + 1) with
  | none => exact Option.some_ne_none _
  | some e =>
    have hnext := lunarDateAt_succ hd he
    rw [hnext]
    intro heq
    exact htable.next_ne (htable.narrow.text_inj htable.narrow_next (Option.some_inj.mp heq)).symm

/-- The successor is the date of the next day and no other date near it. -/
theorem lunarSuccessor_iff {i j : ℕ} {d e : LunarDate} (hd : lunarDateAt i = some d)
    (he : lunarDateAt j = some e) (hle : i ≤ j) (hge : j ≤ i + 2) :
    LunarSuccessor d.text e.text ↔ j = i + 1 := by
  have hdtable := inTable_of_lunarDateAt hd
  have hetable := inTable_of_lunarDateAt he
  constructor
  · rintro ⟨c, hc, hcd, hce⟩
    have hcd := hdtable.narrow.text_inj hc.narrow hcd
    subst hcd
    have hce := hetable.narrow.text_inj hdtable.narrow_next hce
    by_contra hj
    obtain hj | hj : j = i ∨ j = i + 2 := by omega
    · -- the date itself
      subst hj
      rw [hd, Option.some_inj] at he
      exact hdtable.next_ne (he.trans hce).symm
    · -- two days on, the day between them has the date in question
      subst hj
      obtain ⟨f, hf⟩ : ∃ f, lunarDateAt (i + 1) = some f := by
        refine Option.ne_none_iff_exists'.mp fun h => ?_
        have hbeyond := (lunarDateAt_eq_none_iff (i + 1)).mp h
        rw [(lunarDateAt_eq_none_iff (i + 2)).mpr (by omega)] at he
        cases he
      have hfnext := lunarDateAt_succ hd hf
      have henext := lunarDateAt_succ hf he
      exact (inTable_of_lunarDateAt hf).next_ne (henext ▸ hce.trans hfnext.symm)
  · rintro rfl
    exact ⟨d, hdtable, rfl, congrArg LunarDate.text (lunarDateAt_succ hd he)⟩

end Days

/-- In the zone UTC+8 two times of one day of the table have the same lunar date, and times of consecutive
days have consecutive ones, if and only if both times or neither lie before 8 in the morning. -/
theorem lunar_day_iff_same_side (s t : List UInt8) (hs : IsTime s) (ht : IsTime t) :
    ((momentOf hs).date = (momentOf ht).date → InLunarTable (momentOf hs).date →
      (solarDay2LunarDay (.fixed 28800) s = solarDay2LunarDay (.fixed 28800) t ↔
        (part s 8 2 < 8 ↔ part t 8 2 < 8))) ∧
    ((momentOf ht).date.number = (momentOf hs).date.number + 1 → ∀ a b,
      solarDay2LunarDay (.fixed 28800) s = some (some a) →
      solarDay2LunarDay (.fixed 28800) t = some (some b) →
      (LunarSuccessor a b ↔ (part s 8 2 < 8 ↔ part t 8 2 < 8))) := by
  refine ⟨fun hdate htable => ?_, fun hnext a b ha hb => ?_⟩
  · obtain ⟨hlo, hhi⟩ := htable
    obtain ⟨k, hk⟩ := Int.eq_ofNat_of_zero_le hlo
    have hne := text_succ_ne (k := k) (by omega)
    have hsindex : lunarIndex hs = (if part s 8 2 < 8 then k else k + 1 : ℕ) := by
      unfold lunarIndex
      rw [hk]
      split <;> simp
    have htindex : lunarIndex ht = (if part t 8 2 < 8 then k else k + 1 : ℕ) := by
      unfold lunarIndex
      rw [← hdate, hk]
      split <;> simp
    rw [solarDay2LunarDay_eq hs, solarDay2LunarDay_eq ht, Option.some_inj, if_neg (by omega),
      if_neg (by omega), hsindex, htindex, Int.toNat_natCast, Int.toNat_natCast]
    by_cases hs8 : part s 8 2 < 8
    · by_cases ht8 : part t 8 2 < 8
      · simp only [hs8, ht8, if_true]
      · simp only [hs8, ht8, if_true, if_false, iff_false, not_true, hne]
    · by_cases ht8 : part t 8 2 < 8
      · simp only [hs8, ht8, if_true, if_false, iff_true, hne.symm]
      · simp only [hs8, ht8, if_false]
  · obtain ⟨hspos, d, hd, rfl⟩ := exists_lunarDateAt hs ha
    obtain ⟨htpos, e, he, rfl⟩ := exists_lunarDateAt ht hb
    have hdays : lunarIndex ht = lunarDay (momentOf hs).date + 1 + if part t 8 2 < 8 then 0 else 1 := by
      unfold lunarIndex lunarDay
      omega
    have hindex : lunarIndex hs = lunarDay (momentOf hs).date + if part s 8 2 < 8 then 0 else 1 := rfl
    rw [lunarSuccessor_iff hd he (by split at hdays <;> split at hindex <;> omega)
      (by split at hdays <;> split at hindex <;> omega)]
    split at hdays <;> split at hindex <;> omega

theorem lunar_day_iff_same_side_night :
    solarDay2LunarDay (.fixed 28800) (text "19900127000000") =
      solarDay2LunarDay (.fixed 28800) (text "19900127075959") ∧
    LunarSuccessor (text "000001010") (text "000001020") := by
  have hfirst : IsTime (text "19900127000000") := by decide +kernel
  have hmorning : IsTime (text "19900127075959") := by decide +kernel
  have hsecond : IsTime (text "19900128000000") := by decide +kernel
  refine ⟨((lunar_day_iff_same_side _ _ hfirst hmorning).1 (by decide +kernel +revert)
    (by decide +kernel +revert)).mpr (by decide +kernel), ?_⟩
  exact ((lunar_day_iff_same_side _ _ hfirst hsecond).2 (by decide +kernel +revert) _ _
    (by decide +kernel) (by decide +kernel)).mpr (by decide +kernel)

/-- The lunar date changes during the first day of the table. -/
theorem lunar_date_changes_in_the_day :
    IsTime (text "19900127075959") ∧ IsTime (text "19900127080000") ∧
    solarDay2LunarDay (.fixed 28800) (text "19900127075959") = some (some (text "000001010")) ∧
    solarDay2LunarDay (.fixed 28800) (text "19900127080000") = some (some (text "000001020")) := by
  decide +kernel

end Tdm.Time
