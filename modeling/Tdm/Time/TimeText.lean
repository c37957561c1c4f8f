import Tdm.Lib.CString
import Tdm.Time.Timecomm
import Tdm.Lib.TextOrder

/-!
# Calendar-valid times

`IsTime` says which texts of 14 digits are times of the calendar. Such a text is the writing of one
moment (`momentOf`), the number its digits stand for is the moment's stamp, and `GetTimet` returns the
instant of the moment read as standard time. In the other direction `GetTimetStr` writes the moment
the clocks show, when its year has four digits.
-/

namespace Tdm.Time

open Tdm.Lib

/-! ## Texts -/

/-- The number written in `n` characters from `i` on. -/
def part (s : List UInt8) (i n : ℕ) : ℕ := numeral 0 ((s.drop i).take n)

/-- A text of `k` digits. -/
structure DigitText (k : ℕ) (s : List UInt8) : Prop where
  length : s.length = k
  digits : ∀ c ∈ s, isDigit c = true

instance (k : ℕ) (s : List UInt8) : Decidable (DigitText k s) :=
  decidable_of_iff (s.length = k ∧ s.all isDigit = true)
    ⟨fun h => ⟨h.1, List.all_eq_true.mp h.2⟩, fun h => ⟨h.length, List.all_eq_true.mpr h.digits⟩⟩

/-- A calendar-valid time of 14 digits. -/
structure IsTime (s : List UInt8) : Prop where
  length : s.length = 14
  digits : ∀ c ∈ s, isDigit c = true
  month : 1 ≤ part s 4 2
  day : 1 ≤ part s 6 2
  date : part s 6 2 ≤ (monthLengths (part s 0 4)).getD (part s 4 2 - 1) 0
  time : part s 8 2 < 24 ∧ part s 10 2 < 60 ∧ part s 12 2 < 60

instance (s : List UInt8) : Decidable (IsTime s) :=
  decidable_of_iff
    (s.length = 14 ∧ s.all isDigit = true ∧ 1 ≤ part s 4 2 ∧ 1 ≤ part s 6 2 ∧
      part s 6 2 ≤ (monthLengths (part s 0 4)).getD (part s 4 2 - 1) 0 ∧
      part s 8 2 < 24 ∧ part s 10 2 < 60 ∧ part s 12 2 < 60)
    ⟨fun ⟨hlen, hdigits, hmonth, hday, hdate, htime⟩ =>
        ⟨hlen, List.all_eq_true.mp hdigits, hmonth, hday, hdate, htime⟩,
      fun h => ⟨h.length, List.all_eq_true.mpr h.digits, h.month, h.day, h.date, h.time⟩⟩

/-- The moment a time is the writing of. -/
def momentOf {s : List UInt8} (h : IsTime s) : Moment where
  date := ⟨part s 0 4, part s 4 2 - 1, part s 6 2 - 1, by have := h.day; have := h.date; omega⟩
  hour := part s 8 2
  minute := part s 10 2
  second := part s 12 2
  valid := h.time

/-- The year of a time has four digits, the first of them not 0. -/
def FourDigitYear (y : ℤ) : Prop := 1000 ≤ y ∧ y ≤ 9999

instance (y : ℤ) : Decidable (FourDigitYear y) := inferInstanceAs (Decidable (_ ∧ _))

/-- The writing of a moment. -/
def momentText (m : Moment) : List UInt8 :=
  decimalPadded 4 m.date.year ++ decimalPadded 2 (m.date.month + 1) ++ decimalPadded 2 (m.date.day + 1) ++
    decimalPadded 2 m.hour ++ decimalPadded 2 m.minute ++ decimalPadded 2 m.second

theorem IsTime.digitText {s : List UInt8} (h : IsTime s) : DigitText 14 s := ⟨h.length, h.digits⟩

section Parts
variable {s : List UInt8} {k : ℕ}

theorem isDigit_part (h : DigitText k s) {i n : ℕ} {c : UInt8} (hc : c ∈ (s.drop i).take n) :
    isDigit c = true :=
  h.digits c (List.mem_of_mem_drop (List.mem_of_mem_take hc))

theorem length_part (h : DigitText k s) {i n : ℕ} (hin : i + n ≤ k) :
    ((s.drop i).take n).length = n := by
  rw [List.length_take, List.length_drop, h.length]
  omega

theorem part_lt (h : DigitText k s) {i n : ℕ} (hin : i + n ≤ k) : part s i n < 10 ^ n := by
  have hlt := numeral_lt fun c hc => isDigit_part h (c := c) (i := i) (n := n) hc
  rwa [length_part h hin] at hlt

/-- A run of digits is the padded writing of its number. -/
theorem decimalPadded_part (h : DigitText k s) {i n : ℕ} (hpos : 0 < n) (hin : i + n ≤ k) :
    decimalPadded n (part s i n) = (s.drop i).take n := by
  refine numeral_injective ?_ (fun c hc => isDigit_of_mem_decimalPadded hc)
    (fun c hc => isDigit_part h hc) (numeral_decimalPadded n (part s i n))
  rw [length_decimalPadded_of_lt hpos (part_lt h hin), length_part h hin]

/-- Reading on behind a part. -/
theorem numeral_take_add (s : List UInt8) (i n : ℕ) (h : i + n ≤ s.length) :
    numeral 0 (s.take (i + n)) = numeral 0 (s.take i) * 10 ^ n + part s i n := by
  rw [List.take_add, numeral_append, numeral_eq, List.length_take, List.length_drop,
    Nat.min_eq_left (by omega)]
  rfl

theorem stamp_momentOf (h : IsTime s) : (momentOf h).stamp = numeral 0 s := by
  have hlen := h.length
  have hmonth := h.month
  have hday := h.day
  have hyear : numeral 0 (s.take 4) = part s 0 4 := rfl
  have h6 : numeral 0 (s.take 6) = _ := numeral_take_add s 4 2 (by omega)
  have h8 : numeral 0 (s.take 8) = _ := numeral_take_add s 6 2 (by omega)
  have h10 : numeral 0 (s.take 10) = _ := numeral_take_add s 8 2 (by omega)
  have h12 : numeral 0 (s.take 12) = _ := numeral_take_add s 10 2 (by omega)
  -- the last step reads the whole text
  have h14 : numeral 0 (s.take 14) = _ := numeral_take_add s 12 2 (by omega)
  rw [List.take_of_length_le hlen.le] at h14
  unfold Moment.stamp momentOf
  simp only
  omega

theorem momentOf_text (h : IsTime s) : momentText (momentOf h) = s := by
  have hmonth : ((part s 4 2 - 1 : ℕ) : ℤ) + 1 = part s 4 2 := by
    have := h.month
    omega
  have hday : ((part s 6 2 - 1 : ℕ) : ℤ) + 1 = part s 6 2 := by
    have := h.day
    omega
  unfold momentText momentOf
  simp only [hmonth, hday]
  have hdigits := h.digitText
  rw [decimalPadded_part hdigits (by decide) (by decide),
    decimalPadded_part hdigits (by decide) (by decide),
    decimalPadded_part hdigits (by decide) (by decide),
    decimalPadded_part hdigits (by decide) (by decide),
    decimalPadded_part hdigits (by decide) (by decide),
    decimalPadded_part hdigits (by decide) (by decide), List.drop_zero, ← List.take_add, ← List.take_add, ← List.take_add, ← List.take_add,
    ← List.take_add]
  exact List.take_of_length_le h.length.le

/-! ## Reading -/

theorem charAt_eq (h : DigitText k s) {i : ℕ} (hi : i < k) : charAt s i = s[i]? :=
  List.getElem?_append_left (h.length.symm ▸ hi)

theorem twoChars_eq (h : DigitText k s) {i : ℕ} (hi : i + 2 ≤ k) :
    twoChars s i = some (part s i 2 : ℤ) := by
  -- both characters exist, and the buffer holds nothing else before its end
  obtain ⟨c, d, hcd⟩ := List.length_eq_two.mp (length_part h hi)
  have hc : s[i]? = some c := by
    have hget : ((s.drop i).take 2)[0]? = some c := by rw [hcd]; rfl
    rwa [List.getElem?_take_of_lt (by decide), List.getElem?_drop] at hget
  have hd : s[i + 1]? = some d := by
    have hget : ((s.drop i).take 2)[1]? = some d := by rw [hcd]; rfl
    rwa [List.getElem?_take_of_lt (by decide), List.getElem?_drop] at hget
  have hatoi : atoi [c, d] = part s i 2 := by
    have hlt := part_lt h hi
    rw [part, hcd] at hlt ⊢
    exact atoi_digits (by simp) (fun e he => isDigit_part h (hcd ▸ he)) (hlt.trans (by decide))
  unfold twoChars
  rw [charAt_eq h (by omega), charAt_eq h (by omega), hc, hd]
  exact congrArg some hatoi

/-- Digits end no string. -/
theorem strncpy_drop (h : DigitText k s) (i n : ℕ) : strncpy (s.drop i) n = (s.drop i).take n := by
  refine takeWhile_ne_self fun hzero => ?_
  have hdigit := isDigit_iff.mp (isDigit_part h hzero)
  exact absurd hdigit.1 (by decide)

theorem strncpy_eq (h : DigitText k s) (n : ℕ) : strncpy s n = s.take n := by
  have hcopy := strncpy_drop h 0 n
  rwa [List.drop_zero] at hcopy

theorem atoi_part (h : DigitText k s) {i n : ℕ} (hpos : 0 < n) (hsmall : n ≤ 9) (hin : i + n ≤ k) :
    atoi (strncpy (s.drop i) n) = part s i n := by
  have hlt := part_lt h hin
  have hpow : 10 ^ n ≤ 10 ^ 9 := Nat.pow_le_pow_right (by decide) hsmall
  have hlen := length_part h hin
  rw [strncpy_drop h]
  refine atoi_digits ?_ (fun c hc => isDigit_part h hc) ?_
  · exact List.ne_nil_of_length_pos (by omega)
  · exact hlt.trans_le (hpow.trans (by decide))

theorem atoi_year (h : DigitText k s) (hk : 4 ≤ k) : atoi (strncpy s 4) = part s 0 4 := by
  have hatoi := atoi_part h (i := 0) (n := 4) (by decide) (by decide) (by omega)
  rwa [List.drop_zero] at hatoi

end Parts

/-- The instant of a moment of standard time. -/
def instant (z : Zone) (m : Moment) : ℤ := m.seconds - epoch - z.offset

/-- A moment as a `struct tm`. -/
def tmOf (m : Moment) (isdst : ℤ) : Tm :=
  ⟨m.second, m.minute, m.hour, m.date.day + 1, m.date.month, m.date.year - 1900, isdst⟩

theorem mktime_tmOf (z : Zone) (m : Moment) (isdst : ℤ) : mktime z (tmOf m isdst) = instant z m := by
  have hmonth := m.date.month_lt
  have hquot : (m.date.month : ℤ) / 12 = 0 := by omega
  have hrem : ((m.date.month : ℤ) % 12).toNat = m.date.month := by omega
  have hyear : m.date.year - 1900 + 1900 + 0 = m.date.year := by omega
  unfold mktime instant Tm.seconds tmOf
  simp only [hquot, hrem, hyear]
  unfold Moment.seconds Date.number Date.dayOfYear
  omega

/-- `GetTimet` passes on what is written in a text of digits. -/
theorem getTimet_parts (z : Zone) {s : List UInt8} (h : DigitText 14 s) :
    getTimet z s = some (mktime z ⟨part s 12 2, part s 10 2, part s 8 2, part s 6 2, part s 4 2 - 1,
      part s 0 4 - 1900, 0⟩) := by
  unfold getTimet
  rw [twoChars_eq h (by decide), twoChars_eq h (by decide), twoChars_eq h (by decide),
    twoChars_eq h (by decide), twoChars_eq h (by decide), atoi_year h (by decide)]
  rfl

/-- `GetTimet` reads a time as standard time. -/
theorem getTimet_eq (z : Zone) {s : List UInt8} (h : IsTime s) :
    getTimet z s = some (instant z (momentOf h)) := by
  have hmonth : (part s 4 2 : ℤ) - 1 = (part s 4 2 - 1 : ℕ) := by
    have := h.month
    omega
  have hday : (part s 6 2 : ℤ) = (part s 6 2 - 1 : ℕ) + 1 := by
    have := h.day
    omega
  rw [getTimet_parts z h.digitText, ← mktime_tmOf z _ 0]
  unfold tmOf momentOf
  simp only [← hmonth, ← hday]

/-- Times are in the order of their instants if and only if they are in the order of texts. -/
theorem instant_lt_iff (z : Zone) {s t : List UInt8} (hs : IsTime s) (ht : IsTime t) :
    instant z (momentOf hs) < instant z (momentOf ht) ↔ TextLT s t := by
  have hstamp : (momentOf hs).stamp < (momentOf ht).stamp ↔ numeral 0 s < numeral 0 t := by
    rw [stamp_momentOf, stamp_momentOf]
    omega
  rw [textLT_iff_numeral_lt (hs.length.trans ht.length.symm) hs.digits ht.digits, ← hstamp,
    ← Moment.seconds_lt_iff]
  unfold instant
  omega

/-! ## Writing -/

theorem length_decimalPadded_two {n : ℕ} (h : n < 100) : (decimalPadded 2 n).length = 2 :=
  length_decimalPadded_of_lt (by decide) h

theorem numeral_two (n : ℕ) : numeral 0 (decimalPadded 2 (n + 1)) = n + 1 :=
  numeral_decimalPadded 2 (n + 1)

/-- A year of four digits needs no padding. -/
theorem decimalInt_year {y : ℤ} (h : FourDigitYear y) : decimalInt y = decimalPadded 4 y := by
  obtain ⟨hlo, hhi⟩ := h
  lift y to ℕ using by omega
  have hlen : 4 ≤ (decimal y).length := by
    have hnot := (length_decimal_le_iff y 2).not.mpr (by omega)
    omega
  unfold decimalInt
  rw [decimalPadded_natCast, decimalPadded_natCast, Nat.sub_eq_zero_of_le hlen, Nat.zero_sub]

section Writing
variable {m : Moment}

/-- The parts of a writing, with their lengths. -/
theorem lengths_momentText (hlo : 0 ≤ m.date.year) (hhi : m.date.year ≤ 9999) :
    (decimalPadded 4 m.date.year).length = 4 ∧
    (decimalPadded 2 (m.date.month + 1)).length = 2 ∧ (decimalPadded 2 (m.date.day + 1)).length = 2 ∧
    (decimalPadded 2 m.hour).length = 2 ∧ (decimalPadded 2 m.minute).length = 2 ∧
    (decimalPadded 2 m.second).length = 2 := by
  have hbounds := m.bounds
  obtain ⟨y, hy⟩ := Int.eq_ofNat_of_zero_le hlo
  refine ⟨?_, length_decimalPadded_two (n := m.date.month + 1) (by omega),
    length_decimalPadded_two (n := m.date.day + 1) (by omega), length_decimalPadded_two (by omega),
    length_decimalPadded_two (by omega), length_decimalPadded_two (by omega)⟩
  rw [hy]
  exact length_decimalPadded_of_lt (by decide) (by omega)

theorem length_momentText (hlo : 0 ≤ m.date.year) (hhi : m.date.year ≤ 9999) :
    (momentText m).length = 14 := by
  obtain ⟨hy, hmo, hd, hh, hmi, hs⟩ := lengths_momentText hlo hhi
  unfold momentText
  simp only [List.length_append]
  omega

theorem strftime_tmOf (h : FourDigitYear m.date.year) (isdst : ℤ) :
    strftime 15 (tmOf m isdst) = some (momentText m) := by
  have htext : decimalInt (m.date.year - 1900 + 1900) = decimalPadded 4 m.date.year := by
    rw [Int.sub_add_cancel, decimalInt_year h]
  have hlen := length_momentText (m := m) (by have := h.1; omega) h.2
  unfold strftime tmOf
  simp only [htext]
  exact if_pos (hlen.trans_lt (by decide))

theorem part_head {a : List UInt8} {n : ℕ} (h : a.length = n) (s : List UInt8) :
    part (a ++ s) 0 n = numeral 0 a := by
  unfold part
  rw [List.drop_zero, List.take_left' h]

theorem part_skip {a : List UInt8} {k : ℕ} (h : a.length = k) (s : List UInt8) (j n : ℕ) :
    part (a ++ s) (k + j) n = part s j n := by
  unfold part
  rw [← h, List.drop_append, List.drop_of_length_le (by omega), List.nil_append, Nat.add_sub_cancel_left]

theorem isDigit_of_mem_momentText (hlo : 0 ≤ m.date.year) {c : UInt8} (hc : c ∈ momentText m) :
    isDigit c = true := by
  obtain ⟨y, hy⟩ := Int.eq_ofNat_of_zero_le hlo
  unfold momentText at hc
  rw [hy] at hc
  simp only [List.mem_append] at hc
  rcases hc with ((((hc | hc) | hc) | hc) | hc) | hc
  · exact isDigit_of_mem_decimalPadded hc
  · exact isDigit_of_mem_decimalPadded (n := m.date.month + 1) hc
  · exact isDigit_of_mem_decimalPadded (n := m.date.day + 1) hc
  · exact isDigit_of_mem_decimalPadded hc
  · exact isDigit_of_mem_decimalPadded hc
  · exact isDigit_of_mem_decimalPadded hc

/-- What is read in the writing of a moment. -/
theorem parts_momentText (hlo : 0 ≤ m.date.year) (hhi : m.date.year ≤ 9999) :
    (part (momentText m) 0 4 : ℤ) = m.date.year ∧
    part (momentText m) 4 2 = m.date.month + 1 ∧ part (momentText m) 6 2 = m.date.day + 1 ∧
    part (momentText m) 8 2 = m.hour ∧ part (momentText m) 10 2 = m.minute ∧
    part (momentText m) 12 2 = m.second := by
  obtain ⟨hy, hmo, hd, hh, hmi, hs⟩ := lengths_momentText hlo hhi
  unfold momentText
  simp only [List.append_assoc]
  refine ⟨?_, ?_, ?_, ?_, ?_, ?_⟩
  · obtain ⟨y, hyear⟩ := Int.eq_ofNat_of_zero_le hlo
    rw [part_head hy, hyear]
    exact congrArg Nat.cast (numeral_decimalPadded 4 y)
  · rw [part_skip hy _ 0, part_head hmo]
    exact numeral_two _
  · rw [part_skip hy _ 2, part_skip hmo _ 0, part_head hd]
    exact numeral_two _
  · rw [part_skip hy _ 4, part_skip hmo _ 2, part_skip hd _ 0, part_head hh]
    exact numeral_decimalPadded 2 _
  · rw [part_skip hy _ 6, part_skip hmo _ 4, part_skip hd _ 2, part_skip hh _ 0, part_head hmi]
    exact numeral_decimalPadded 2 _
  · rw [part_skip hy _ 8, part_skip hmo _ 6, part_skip hd _ 4, part_skip hh _ 2, part_skip hmi _ 0,
      ← List.append_nil (decimalPadded 2 _), part_head hs]
    exact numeral_decimalPadded 2 _

/-- The writing of a moment is a time, -/
theorem isTime_momentText (hlo : 0 ≤ m.date.year) (hhi : m.date.year ≤ 9999) :
    IsTime (momentText m) := by
  obtain ⟨hy, hmo, hd, hh, hmi, hs⟩ := parts_momentText hlo hhi
  have hvalid := m.date.valid
  refine ⟨length_momentText hlo hhi, fun c => isDigit_of_mem_momentText hlo, by omega, by omega, ?_, ?_⟩
  · rw [hy, hmo, hd, Nat.add_sub_cancel]
    omega
  · rw [hh, hmi, hs]
    exact m.valid

/-- and is read as that moment. -/
theorem momentOf_momentText (h : IsTime (momentText m)) (hlo : 0 ≤ m.date.year)
    (hhi : m.date.year ≤ 9999) : momentOf h = m := by
  obtain ⟨hy, hmo, hd, hh, hmi, hs⟩ := parts_momentText hlo hhi
  ext
  · exact hy
  · show part (momentText m) 4 2 - 1 = _
    omega
  · show part (momentText m) 6 2 - 1 = _
    omega
  · exact hh
  · exact hmi
  · exact hs

theorem momentText_injective {m' : Moment} (hlo : 0 ≤ m.date.year) (hhi : m.date.year ≤ 9999)
    (hlo' : 0 ≤ m'.date.year) (hhi' : m'.date.year ≤ 9999) (h : momentText m = momentText m') :
    m = m' := by
  have hstamp {n : Moment} (hl : 0 ≤ n.date.year) (hh : n.date.year ≤ 9999) :
      n.stamp = numeral 0 (momentText n) := by
    rw [← stamp_momentOf (isTime_momentText hl hh), momentOf_momentText _ hl hh]
  refine Moment.stamp_injective ?_
  rw [hstamp hlo hhi, hstamp hlo' hhi', h]

end Writing

/-- `localtime` shows the moment the clocks are at. -/
theorem localtime_eq {z : Zone} {t : ℤ} {m : Moment} (h : t + z.ahead t + epoch = m.seconds)
    (hlo : 0 ≤ m.date.year) (hhi : m.date.year ≤ 10000) :
    localtime z t = some (tmOf m (if z.dst t then 1 else 0)) := by
  unfold localtime
  simp only [h, Moment.ofSeconds_seconds]
  rw [if_pos (by omega)]
  rfl

theorem timetText_of_standard {z : Zone} {t : ℤ} {tm : Tm} (h : localtime z t = some tm)
    (hdst : tm.isdst ≠ 1) : timetText z t = strftime 15 tm := by
  simp only [timetText, h, Option.bind_eq_bind, Option.bind_some, if_neg hdst]

theorem timetText_of_dst {z : Zone} {t : ℤ} {tm : Tm} (h : localtime z t = some tm)
    (hdst : tm.isdst = 1) : timetText z t = (localtime z (t - 3600)).bind (strftime 15) := by
  simp only [timetText, h, Option.bind_eq_bind, Option.bind_some, if_pos hdst]

theorem Zone.ahead_of_standard {z : Zone} {t : ℤ} (h : z.dst t = false) : z.ahead t = z.offset := by
  rw [Zone.ahead, h, if_neg Bool.false_ne_true, Int.add_zero]

theorem Zone.ahead_of_dst {z : Zone} {t : ℤ} (h : z.dst t = true) : z.ahead t = z.offset + 3600 := by
  rw [Zone.ahead, h, if_pos rfl]

/-- Outside daylight saving `GetTimetStr` writes the moment of standard time. -/
theorem getTimetStr_of_standard {z : Zone} {m : Moment} (hdst : z.dst (instant z m) = false)
    (h : FourDigitYear m.date.year) : getTimetStr z (instant z m) = some (momentText m) := by
  have hseconds : instant z m + z.ahead (instant z m) + epoch = m.seconds := by
    rw [z.ahead_of_standard hdst, instant]
    omega
  have hlocal := localtime_eq hseconds (by have := h.1; omega) (by have := h.2; omega)
  rw [hdst, if_neg Bool.false_ne_true] at hlocal
  unfold getTimetStr
  rw [timetText_of_standard hlocal Int.zero_ne_one, strftime_tmOf h]

end Tdm.Time
