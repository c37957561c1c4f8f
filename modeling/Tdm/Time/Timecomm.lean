import Tdm.Lib.Calendar
import Tdm.Lib.CNumber
import Tdm.Lib.CArray

/-!
# Times as texts

`timecomm.c` keeps times as texts of the form `yyyymmddhhmmss` and converts them to seconds with
`mktime` and back with `localtime` and `strftime`. The library functions are those of a zone: a
standard offset and the instants at which daylight saving is in force, one hour ahead. `time_t` has 64
bits and does not overflow here; `int` has 32.

A text is the list of its bytes, with a `'\0'` behind them. Reading behind that, an overflow of `int`
and the conversion of a number that does not fit `int` have no result. Neither has the text of a
buffer into which `strftime` could not write.
-/

namespace Tdm.Time

open Tdm.Lib

/-! ## The C library -/

/-- `struct tm`. -/
structure Tm where
  sec : ℤ
  min : ℤ
  hour : ℤ
  mday : ℤ
  mon : ℤ
  year : ℤ
  isdst : ℤ
deriving DecidableEq

/-- A time zone. Every period of daylight saving lasts at least one day. -/
structure Zone where
  offset : ℤ
  dst : ℤ → Bool
  long : ∀ t, dst t = true →
    ∃ a b, a ≤ t ∧ t < b ∧ a + 86400 ≤ b ∧ ∀ u, a ≤ u → u < b → dst u = true

/-- A zone without daylight saving. -/
def Zone.fixed (offset : ℤ) : Zone := ⟨offset, fun _ => false, fun _ h => by cases h⟩

/-- The beginning of 1970, in seconds from the beginning of the year 0. -/
def epoch : ℤ := daysBeforeYear 1970 * 86400

/-- The seconds a `struct tm` stands for; parts out of range are carried into the next ones. -/
def Tm.seconds (tm : Tm) : ℤ :=
  let year := tm.year + 1900 + tm.mon / 12
  let firstDay := daysBeforeYear year + ((monthLengths year).take (tm.mon % 12).toNat).sum
  (firstDay + (tm.mday - 1)) * 86400 + tm.hour * 3600 + tm.min * 60 + tm.sec

/-- `mktime` of a `struct tm` whose `tm_isdst` is 0, that is, of a standard time. -/
def mktime (z : Zone) (tm : Tm) : ℤ := tm.seconds - epoch - z.offset

/-- What the clocks are ahead of UTC at an instant. -/
def Zone.ahead (z : Zone) (t : ℤ) : ℤ := z.offset + if z.dst t then 3600 else 0

/-- `localtime`; the year has to fit `tm_year`. -/
def localtime (z : Zone) (t : ℤ) : Option Tm :=
  let m := Moment.ofSeconds (t + z.ahead t + epoch)
  if -2 ^ 31 ≤ m.date.year - 1900 ∧ m.date.year - 1900 < 2 ^ 31 then
    some ⟨m.second, m.minute, m.hour, m.date.day + 1, m.date.month, m.date.year - 1900,
      if z.dst t then 1 else 0⟩
  else none

/-- `strftime(s, max, "%Y%m%d%H%M%S", tm)`. -/
def strftime (max : ℕ) (tm : Tm) : Option (List UInt8) :=
  let s := decimalInt (tm.year + 1900) ++ decimalPadded 2 (tm.mon + 1) ++ decimalPadded 2 tm.mday ++
    decimalPadded 2 tm.hour ++ decimalPadded 2 tm.min ++ decimalPadded 2 tm.sec
  if s.length < max then some s else none

/-- A value of type `int`. -/
def int (v : ℤ) : Option ℤ := if -2 ^ 31 ≤ v ∧ v < 2 ^ 31 then some v else none

/-- `strncpy(dst, s, n)` into a buffer of zeros longer than `n`, as a string. -/
def strncpy (s : List UInt8) (n : ℕ) : List UInt8 := (s.take n).takeWhile (· ≠ 0)

/-- `strlen`. -/
def strlen (s : List UInt8) : ℕ := (s.takeWhile (· ≠ 0)).length

/-! ## Texts and instants -/

/-- `s[i]`. -/
def charAt (s : List UInt8) (i : ℕ) : Option UInt8 := (s ++ [0])[i]?

/-- The number the two characters at `i` stand for. -/
def twoChars (s : List UInt8) (i : ℕ) : Option ℤ := do
  let c ← charAt s i
  let d ← charAt s (i + 1)
  return atoi [c, d]

/-- `GetTimet`. -/
def getTimet (z : Zone) (sInTimes : List UInt8) : Option ℤ := do
  let mon ← twoChars sInTimes 4
  let mday ← twoChars sInTimes 6
  let hour ← twoChars sInTimes 8
  let min ← twoChars sInTimes 10
  let sec ← twoChars sInTimes 12
  return mktime z
    { year := atoi (strncpy sInTimes 4) - 1900
      mon := mon - 1
      mday := mday
      hour := hour
      min := min
      sec := sec
      isdst := 0 }

/-- `GetTimetValid`. -/
def getTimetValid (z : Zone) (sInTimes : List UInt8) : Option ℤ := do
  let mon ← twoChars sInTimes 4
  let mday ← twoChars sInTimes 6
  let hour ← twoChars sInTimes 8
  let min ← twoChars sInTimes 10
  let sec ← twoChars sInTimes 12
  let year := atoi (strncpy sInTimes 4) - 1900
  if year ≤ 0 then return -1
  else if mon - 1 < 0 ∨ mon - 1 > 11 then return -1
  else if mday < 0 ∨ mday > 31 then return -1
  else if hour < 0 ∨ hour > 23 then return -1
  else if min < 0 ∨ min > 59 then return -1
  else if sec < 0 ∨ sec > 59 then return -1
  else return mktime z ⟨sec, min, hour, mday, mon - 1, year, 0⟩

/-- The text of an instant that the next two functions write, if they can. -/
def timetText (z : Zone) (ttime : ℤ) : Option (List UInt8) := do
  let tm ← localtime z ttime
  -- daylight saving is taken back by looking at the instant one hour earlier
  let tm ← if tm.isdst = 1 then localtime z (ttime - 3600) else some tm
  strftime 15 tm

/-- `GetTimetStr`: the text stored in `sTime`; none when it returns -1. -/
def getTimetStr (z : Zone) (ttime : ℤ) : Option (List UInt8) := timetText z ttime

/-- `ReturnTimetStr`; none is the null pointer. -/
def returnTimetStr (z : Zone) (ttime : ℤ) : Option (List UInt8) := timetText z ttime

/-! ## Comparing dates -/

def incmGeLe : ℤ := 0
def incmGtLt : ℤ := 1
def incmGeLt : ℤ := 2
def incmGtLe : ℤ := 3

def dpmDay : ℤ := 0
def dpmHour : ℤ := 1
def dpmMin : ℤ := 2
def dpmSec : ℤ := 3

/-- `IsDateBetween`. -/
def isDateBetween (z : Zone) (sCheckedDate sBeginDate sEndDate : List UInt8) : Option Bool := do
  let beginTimet ← getTimet z sBeginDate
  let endTimet ← getTimet z sEndDate
  let checkedTimet ← getTimet z sCheckedDate
  return beginTimet ≤ checkedTimet && checkedTimet ≤ endTimet

/-- The `switch(includeMode)` of `IsDateBetweenExt`. -/
def included (includeMode beginTimet checkedTimet endTimet : ℤ) : Bool :=
  if includeMode = incmGeLe then beginTimet ≤ checkedTimet && checkedTimet ≤ endTimet
  else if includeMode = incmGtLt then beginTimet < checkedTimet && checkedTimet < endTimet
  else if includeMode = incmGeLt then beginTimet ≤ checkedTimet && checkedTimet < endTimet
  else if includeMode = incmGtLe then beginTimet < checkedTimet && checkedTimet ≤ endTimet
  else beginTimet ≤ checkedTimet && checkedTimet ≤ endTimet

/-- `IsDateBetweenExt`. -/
def isDateBetweenExt (z : Zone) (sCheckedDate sBeginDate sEndDate : List UInt8) (includeMode : ℤ) :
    Option Bool := do
  let beginTimet ← getTimet z sBeginDate
  let endTimet ← getTimet z sEndDate
  let checkedTimet ← getTimet z sCheckedDate
  return included includeMode beginTimet checkedTimet endTimet

/-- The number of characters `IsValidDateExt` compares. -/
def precision (datePreMode : ℤ) : ℕ :=
  if datePreMode = dpmHour then 10 else if datePreMode = dpmMin then 12
  else if datePreMode = dpmSec then 14 else 8

/-- The first `n` characters of a date, filled up with the beginning of the day. -/
def truncated (n : ℕ) (sDate : List UInt8) : List UInt8 :=
  strncpy sDate n ++ List.replicate (14 - n) 48

/-- `IsValidDateExt`. -/
def isValidDateExt (z : Zone) (sCheckedDate sBeginDate sEndDate : List UInt8)
    (includeMode datePreMode : ℤ) : Option Bool :=
  let n := precision datePreMode
  isDateBetweenExt z (truncated n sCheckedDate) (truncated n sBeginDate) (truncated n sEndDate)
    includeMode

/-! ## Intervals -/

/-- An interval with its ends put in order. -/
def inOrder (beginTime endTime : ℤ) : ℤ × ℤ :=
  if beginTime > endTime then (endTime, beginTime) else (beginTime, endTime)

/-- Both ends of an interval, in order. -/
def timeInterval (z : Zone) (sBeginTime sEndTime : List UInt8) : Option (ℤ × ℤ) := do
  let beginTime ← getTimet z sBeginTime
  let endTime ← getTimet z sEndTime
  return inOrder beginTime endTime

/-- What is stored through a pointer that may be null. -/
def storeTime (z : Zone) (given : Bool) (t : ℤ) : Option (Option (List UInt8)) :=
  if given then (getTimetStr z t).map some else some none

/-- `GetTimeIntersection`: none inside for `FALSE`, else what is stored in `sBeginTime` and
`sEndTime`, which are `given` when their pointers are not null. -/
def getTimeIntersection (z : Zone) (sBeginTime1 sEndTime1 sBeginTime2 sEndTime2 : List UInt8)
    (beginGiven endGiven : Bool) : Option (Option (Option (List UInt8) × Option (List UInt8))) := do
  let (beginTime1, endTime1) ← timeInterval z sBeginTime1 sEndTime1
  let (beginTime2, endTime2) ← timeInterval z sBeginTime2 sEndTime2
  if beginTime1 > endTime2 ∨ beginTime2 > endTime1 ∨ beginTime1 = endTime1 ∨ beginTime2 = endTime2 then
    return none
  else
    let sBeginTime ← storeTime z beginGiven (if beginTime1 < beginTime2 then beginTime2 else beginTime1)
    let sEndTime ← storeTime z endGiven (if endTime1 < endTime2 then endTime1 else endTime2)
    return some (sBeginTime, sEndTime)

/-- `GetTimeUnion`. -/
def getTimeUnion (z : Zone) (sBeginTime1 sEndTime1 sBeginTime2 sEndTime2 : List UInt8)
    (beginGiven endGiven : Bool) : Option (Option (Option (List UInt8) × Option (List UInt8))) := do
  let (beginTime1, endTime1) ← timeInterval z sBeginTime1 sEndTime1
  let (beginTime2, endTime2) ← timeInterval z sBeginTime2 sEndTime2
  if beginTime1 > endTime2 ∨ beginTime2 > endTime1 then
    return none
  else
    let sBeginTime ← storeTime z beginGiven (if beginTime1 < beginTime2 then beginTime1 else beginTime2)
    let sEndTime ← storeTime z endGiven (if endTime1 < endTime2 then endTime2 else endTime1)
    return some (sBeginTime, sEndTime)

/-! ## Days -/

/-- `day*24*60*60`. -/
def daySeconds (day : ℤ) : Option ℤ := do
  let hours ← int (day * 24)
  let minutes ← int (hours * 60)
  int (minutes * 60)

/-- `sTmpDate`: a date without a time of day begins at midnight. -/
def tmpDate (sDate : List UInt8) : List UInt8 :=
  if strlen sDate < 14 then
    let day := strncpy sDate 8
    day ++ List.replicate (8 - day.length) 0 ++ List.replicate 6 48
  else strncpy sDate 14

/-- The instant `day` days after a date, as the three functions below compute it. -/
def shiftedTime (z : Zone) (sDate : List UInt8) (day : ℤ) : Option ℤ := do
  let time ← getTimet z (tmpDate sDate)
  return time + (← daySeconds day)

/-- `AddDays`: the text stored in `sOut`. -/
def addDays (z : Zone) (sDate : List UInt8) (day : ℤ) : Option (List UInt8) := do
  getTimetStr z (← shiftedTime z sDate day)

/-- `AddDaysModified`: the text stored over `sDate`. -/
def addDaysModified (z : Zone) (sDate : List UInt8) (day : ℤ) : Option (List UInt8) := do
  getTimetStr z (← shiftedTime z sDate day)

/-- `ReturnAddDays`; none inside is the null pointer. -/
def returnAddDays (z : Zone) (sDate : List UInt8) (day : ℤ) : Option (Option (List UInt8)) := do
  return returnTimetStr z (← shiftedTime z sDate day)

/-- `DiffDays`. -/
def diffDays (z : Zone) (sBeginDate sEndDate : List UInt8) : Option ℤ := do
  let tEndDate ← getTimet z sEndDate
  let tBeginDate ← getTimet z sBeginDate
  let seconds ← int (tEndDate - tBeginDate)
  return seconds.tdiv (24 * 60 * 60) + 1

/-! ## Seconds -/

/-- `AddSeconds`: the text stored in `sOut`. -/
def addSeconds (z : Zone) (sDate : List UInt8) (iSecond : ℤ) : Option (List UInt8) := do
  getTimetStr z ((← getTimet z sDate) + iSecond)

/-- `AddSecondsModified`: the text stored over `sDate`. -/
def addSecondsModified (z : Zone) (sDate : List UInt8) (iSecond : ℤ) : Option (List UInt8) := do
  getTimetStr z ((← getTimet z sDate) + iSecond)

/-- `ReturnAddSeconds`; none inside is the null pointer. -/
def returnAddSeconds (z : Zone) (sDate : List UInt8) (iSecond : ℤ) :
    Option (Option (List UInt8)) := do
  return returnTimetStr z ((← getTimet z sDate) + iSecond)

/-- `DiffSeconds`; the difference is converted to `int`. -/
def diffSeconds (z : Zone) (sBeginDate sEndDate : List UInt8) : Option ℤ := do
  let tEndDate ← getTimet z sEndDate
  let tBeginDate ← getTimet z sBeginDate
  return toInt32 (tEndDate - tBeginDate)

/-! ## Months -/

/-- The string at `s+i`. -/
def stringAt (s : List UInt8) (i : ℕ) : Option (List UInt8) :=
  if i ≤ s.length then some (s.drop i) else none

/-- `Months`. -/
def months : List ℤ := [31, 28, 31, 30, 31, 30, 31, 31, 30, 31, 30, 31]

/-- The test for leap years in `IsDateExt` and `AddMonths`. -/
def leapTest (iyear : ℤ) : Bool :=
  iyear.tmod 4 == 0 && iyear.tmod 100 != 0 || iyear.tmod 400 == 0

/-- `IsDateExt`. When the test of the length has passed, all characters it reads are there. -/
def isDateExt (sDate : List UInt8) : Bool :=
  let len := strlen sDate
  let iyear := atoi (strncpy sDate 4)
  let imon := atoi (strncpy (sDate.drop 4) 2)
  let iday := atoi (strncpy (sDate.drop 6) 2)
  if len ≠ 8 then false
  else if ¬ (sDate.take len).all isDigit then false
  else if iyear = 0 then false
  else if imon < 1 ∨ imon > 12 then false
  else if leapTest iyear ∧ imon = 2 then !(iday ≤ 0 || iday > 29)
  else !(iday ≤ 0 || iday > months.getD (imon - 1).toNat 0)

/-- A round of the loop of `AddMonths` that counts up, on `iYear` and `iMonth`. -/
def monthUp (p : ℤ × ℤ) : ℤ × ℤ := if p.2 + 1 = 13 then (p.1 + 1, 1) else (p.1, p.2 + 1)

/-- A round of the loop that counts down. -/
def monthDown (p : ℤ × ℤ) : ℤ × ℤ := if p.2 - 1 = 0 then (p.1 - 1, 12) else (p.1, p.2 - 1)

/-- Both loops. -/
def countMonths (iMonthCount : ℤ) (p : ℤ × ℤ) : ℤ × ℤ :=
  if 0 < iMonthCount then monthUp^[iMonthCount.toNat] p else monthDown^[(-iMonthCount).toNat] p

/-- The day in the month that was counted to. -/
def clampDay (iYear iMonth iDay : ℤ) : Option ℤ :=
  if iMonth = 2 ∧ leapTest iYear then some (if iDay > 29 then 29 else iDay)
  else if iMonth = 2 then some (if iDay > 28 then 28 else iDay)
  else do
    let days ← if 1 ≤ iMonth then months[(iMonth - 1).toNat]? else none
    return if days < iDay then days else iDay

/-- `AddMonths` on a date that does not stand in its static buffer; that buffer has 9 bytes. -/
def addMonths (sDate : List UInt8) (iMonthCount : ℤ) : Option (List UInt8) := do
  let sTemp := strncpy sDate 6
  let iYear := (atoi sTemp).tdiv 100
  let iMonth := atoi (sTemp.drop 4)
  let c ← charAt sDate 6
  let iDay := if c ≠ 0 then atoi (sDate.drop 6) else 0
  if iMonthCount = 0 then return sDate
  else
    let (iYear, iMonth) := countMonths iMonthCount (iYear, iMonth)
    if 0 < iDay then
      let iDay ← clampDay iYear iMonth iDay
      let sTemp := decimalPadded 4 iYear ++ decimalPadded 2 iMonth ++ decimalPadded 2 iDay
      if sTemp.length < 9 then return sTemp else none
    else
      let sTemp := decimalPadded 4 iYear ++ decimalPadded 2 iMonth
      if sTemp.length < 9 then return sTemp.take 6 else none

/-- `DiffMonths`. -/
def diffMonths (sBeginDate sEndDate : List UInt8) : Option ℤ := do
  let iYear1 := atoi (strncpy sEndDate 4)
  let iYear2 := atoi (strncpy sBeginDate 4)
  let iMonth1 := atoi (strncpy (← stringAt sEndDate 4) 2)
  let iMonth2 := atoi (strncpy (← stringAt sBeginDate 4) 2)
  return (iYear1 - iYear2) * 12 + (iMonth1 - iMonth2)

/-- `GetMonthDays`: the day before the first of the following month. -/
def getMonthDays (z : Zone) (sDate : List UInt8) : Option ℤ := do
  let year := atoi (strncpy sDate 4)
  let month := atoi (strncpy (← stringAt sDate 4) 2)
  let sTmpDate := decimalPadded 4 year ++ decimalPadded 2 (month + 1) ++ text "01"
  let sTmpDate ← addDaysModified z sTmpDate (-1)
  return atoi (strncpy (← stringAt sTmpDate 6) 2)

/-- `iTotalDay` and `iTargetMonthDay` after `k` rounds of a loop of `AddMonth`, which goes through the
months after (`step` is 1) or before (`step` is -1) that of the date. -/
def monthLoop (z : Zone) (iYear iMonth step : ℤ) : ℕ → Option (ℤ × ℤ)
  | 0 => some (0, 0)
  | k + 1 => do
    let (iTotalDay, _) ← monthLoop z iYear iMonth step k
    let sTmp := decimalPadded 4 iYear ++ decimalPadded 2 (iMonth + step * (k + 1))
    let iTargetMonthDay ← getMonthDays z sTmp
    return (← int (iTotalDay + iTargetMonthDay), iTargetMonthDay)

/-- `iTotalDay*24*3600` for the days the loop has counted, corrected by the days of the date. -/
def monthSeconds (iSourceMonthDay iDay : ℤ) (p : ℤ × ℤ) : Option ℤ := do
  let iTotalDay ← int (p.1 - (iSourceMonthDay - p.2))
  let iTotalDay ← int (iTotalDay + (iSourceMonthDay - iDay))
  let hours ← int (iTotalDay * 24)
  int (hours * 3600)

/-- `AddMonth`; the instant is converted to `int`. -/
def addMonth (z : Zone) (sDate : List UInt8) (iMonthCount : ℤ) : Option ℤ := do
  let tDate ← getTimet z sDate
  let iYear := atoi (strncpy sDate 4)
  let iMonth := atoi (strncpy (← stringAt sDate 4) 2)
  let iDay := atoi (strncpy (← stringAt sDate 6) 2)
  let iSourceMonthDay ← getMonthDays z sDate
  if iMonthCount = 0 then return toInt32 tDate
  -- `sTmp` has 32 bytes
  else if 31 < strlen sDate then none
  else if iMonthCount > 0 then
    let p ← monthLoop z iYear iMonth 1 (iMonthCount - 1).toNat
    return toInt32 (tDate + (← monthSeconds iSourceMonthDay iDay p))
  else
    let p ← monthLoop z iYear iMonth (-1) (-iMonthCount - 1).toNat
    return toInt32 (tDate - (← monthSeconds iSourceMonthDay iDay p))

end Tdm.Time
