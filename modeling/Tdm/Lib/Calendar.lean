import Mathlib.Algebra.Order.Ring.Int
import Mathlib.Data.List.Chain
import Mathlib.Data.List.GetD

/-!
# The proleptic Gregorian calendar

Dates and moments are structures that carry their validity. Days are counted from the first of January
of the year 0 and seconds from the beginning of that day; `Date.number` and `Moment.seconds` are the
two counts, `Date.ofNumber` and `Moment.ofSeconds` their inverses. The counts are strictly monotone in
the usual reading of a date, most significant part first (`Moment.seconds_lt_iff`).

Months and days of the month are counted from 0.
-/

namespace Tdm.Lib

/-! ## A row of blocks -/

/-- The block a position falls into and its place there, in a row of blocks of the given lengths. -/
def locate : List ℕ → ℕ → ℕ × ℕ
  | [], k => (0, k)
  | n :: ns, k => if k < n then (0, k) else ((locate ns (k - n)).1 + 1, (locate ns (k - n)).2)

theorem locate_sum_add (ns : List ℕ) {i d : ℕ} (h : d < ns.getD i 0) :
    locate ns ((ns.take i).sum + d) = (i, d) := by
  induction ns generalizing i with
  | nil => simp at h
  | cons n ns ih =>
    cases i with
    | zero =>
      have hd : d < n := h
      rw [List.take_zero, List.sum_nil, Nat.zero_add, locate, if_pos hd]
    | succ i =>
      have hrest : n + (ns.take i).sum + d - n = (ns.take i).sum + d := by omega
      have hd : d < ns.getD i 0 := by rwa [List.getD_cons_succ] at h
      rw [List.take_succ_cons, List.sum_cons, locate, if_neg (by omega), hrest, ih hd]

theorem locate_spec (ns : List ℕ) {k : ℕ} (h : k < ns.sum) :
    (locate ns k).2 < ns.getD (locate ns k).1 0 ∧
      (ns.take (locate ns k).1).sum + (locate ns k).2 = k := by
  induction ns generalizing k with
  | nil => simp at h
  | cons n ns ih =>
    rw [locate]
    split
    · rename_i hk
      exact ⟨hk, by simp⟩
    · rename_i hk
      rw [List.sum_cons] at h
      obtain ⟨hlt, hsum⟩ := ih (k := k - n) (by omega)
      refine ⟨by rwa [List.getD_cons_succ], ?_⟩
      rw [List.take_succ_cons, List.sum_cons]
      omega

/-- What lies before the end of a block lies before the next ones. -/
theorem sum_take_lt (ns : List ℕ) {i j d : ℕ} (h : d < ns.getD i 0) (hij : i < j) :
    (ns.take i).sum + d < (ns.take j).sum := by
  induction ns generalizing i j with
  | nil => simp at h
  | cons n ns ih =>
    obtain ⟨j, rfl⟩ : ∃ j', j = j' + 1 := ⟨j - 1, by omega⟩
    rw [List.take_succ_cons, List.sum_cons]
    cases i with
    | zero =>
      have hd : d < n := h
      rw [List.take_zero, List.sum_nil]
      omega
    | succ i =>
      rw [List.getD_cons_succ] at h
      have hrest := ih h (Nat.lt_of_succ_lt_succ hij)
      rw [List.take_succ_cons, List.sum_cons]
      omega

theorem sum_take_succ (ns : List ℕ) (i : ℕ) :
    (ns.take (i + 1)).sum = (ns.take i).sum + ns.getD i 0 := by
  rw [List.take_add_one, List.sum_append, List.getD_eq_getElem?_getD]
  cases ns[i]? <;> rfl

section Labels
variable {α : Type*}

/-- The label of the block a position falls into and its place there, in a row of labelled blocks. -/
def blockAt (bs : List (α × ℕ)) (k : ℕ) : Option (α × ℕ) :=
  bs[(locate (bs.map Prod.snd) k).1]?.map fun b => (b.1, (locate (bs.map Prod.snd) k).2)

theorem blockAt_nil (k : ℕ) : blockAt ([] : List (α × ℕ)) k = none := rfl

theorem blockAt_cons (b : α × ℕ) (bs : List (α × ℕ)) (k : ℕ) :
    blockAt (b :: bs) k = if k < b.2 then some (b.1, k) else blockAt bs (k - b.2) := by
  unfold blockAt
  rw [List.map_cons, locate]
  split
  · rfl
  · rw [List.getElem?_cons_succ]

theorem blockAt_append (as bs : List (α × ℕ)) (k : ℕ) : blockAt (as ++ bs) k =
    if k < (as.map Prod.snd).sum then blockAt as k else blockAt bs (k - (as.map Prod.snd).sum) := by
  induction as generalizing k with
  | nil => rfl
  | cons a as ih =>
    rw [List.cons_append, blockAt_cons, blockAt_cons, ih, List.map_cons, List.sum_cons]
    by_cases ha : k < a.2
    · rw [if_pos ha, if_pos ha, if_pos (by omega)]
    · rw [if_neg ha, if_neg ha, Nat.sub_sub]
      by_cases hrest : k - a.2 < (as.map Prod.snd).sum
      · rw [if_pos hrest, if_pos (by omega)]
      · rw [if_neg hrest, if_neg (by omega)]

theorem blockAt_eq_none_iff (bs : List (α × ℕ)) (k : ℕ) :
    blockAt bs k = none ↔ (bs.map Prod.snd).sum ≤ k := by
  induction bs generalizing k with
  | nil => simp [blockAt_nil]
  | cons b bs ih =>
    rw [blockAt_cons, List.map_cons, List.sum_cons]
    split
    · simp only [reduceCtorEq, false_iff]
      omega
    · rw [ih]
      omega

theorem mem_of_blockAt {bs : List (α × ℕ)} {k d : ℕ} {a : α} (h : blockAt bs k = some (a, d)) :
    ∃ n, (a, n) ∈ bs ∧ d < n := by
  induction bs generalizing k with
  | nil => cases h
  | cons b bs ih =>
    rw [blockAt_cons] at h
    split at h
    · rename_i hk
      cases h
      exact ⟨b.2, List.mem_cons_self .., hk⟩
    · obtain ⟨n, hmem, hd⟩ := ih h
      exact ⟨n, List.mem_cons_of_mem _ hmem, hd⟩

/-- The next position is the next place in the block, or the first place of the next block. -/
theorem blockAt_succ {R : α × ℕ → α × ℕ → Prop} {bs : List (α × ℕ)} (hchain : bs.IsChain R)
    (hpos : ∀ b ∈ bs, 0 < b.2) {k d d' : ℕ} {a a' : α} (h : blockAt bs k = some (a, d))
    (h' : blockAt bs (k + 1) = some (a', d')) :
    ∃ n, (a, n) ∈ bs ∧
      (d + 1 < n ∧ a' = a ∧ d' = d + 1 ∨ d + 1 = n ∧ d' = 0 ∧ ∃ n', R (a, n) (a', n')) := by
  induction bs generalizing k with
  | nil => cases h
  | cons b bs ih =>
    rw [blockAt_cons] at h h'
    by_cases hk : k < b.2
    · rw [if_pos hk, Option.some_inj, Prod.mk.injEq] at h
      obtain ⟨rfl, rfl⟩ := h
      refine ⟨b.2, List.mem_cons_self .., ?_⟩
      by_cases hk' : k + 1 < b.2
      · rw [if_pos hk', Option.some_inj, Prod.mk.injEq] at h'
        exact .inl ⟨hk', h'.1.symm, h'.2.symm⟩
      · -- the block is full, the next one has a place
        have hzero : k + 1 - b.2 = 0 := by omega
        rw [if_neg hk', hzero] at h'
        cases bs with
        | nil => cases h'
        | cons c bs =>
          rw [blockAt_cons, if_pos (hpos c (by simp))] at h'
          cases h'
          exact .inr ⟨by omega, rfl, c.2, hchain.rel⟩
    · have hsub : k + 1 - b.2 = k - b.2 + 1 := by omega
      rw [if_neg hk] at h
      rw [if_neg (by omega), hsub] at h'
      obtain ⟨n, hmem, hnext⟩ := ih hchain.of_cons (fun c hc => hpos c (List.mem_cons_of_mem _ hc)) h h'
      exact ⟨n, List.mem_cons_of_mem _ hmem, hnext⟩

end Labels

/-! ## Years -/

/-- Leap years. -/
def IsLeap (y : ℤ) : Prop := y % 4 = 0 ∧ (y % 100 = 0 → y % 400 = 0)

instance (y : ℤ) : Decidable (IsLeap y) := inferInstanceAs (Decidable (_ ∧ (_ → _)))

/-- The lengths of the months of a year. -/
def monthLengths (y : ℤ) : List ℕ :=
  [31, if IsLeap y then 29 else 28, 31, 30, 31, 30, 31, 31, 30, 31, 30, 31]

/-- The days from the beginning of the year 0 to that of the year `y`. -/
def daysBeforeYear (y : ℤ) : ℤ := 365 * y + (y + 3) / 4 - (y + 99) / 100 + (y + 399) / 400

theorem sum_monthLengths (y : ℤ) : (monthLengths y).sum = if IsLeap y then 366 else 365 := by
  unfold monthLengths
  split <;> rfl

theorem daysBeforeYear_succ (y : ℤ) :
    daysBeforeYear (y + 1) = daysBeforeYear y + (monthLengths y).sum := by
  rw [sum_monthLengths]
  unfold daysBeforeYear
  split
  · rename_i hleap
    unfold IsLeap at hleap
    omega
  · rename_i hleap
    unfold IsLeap at hleap
    omega

/-- A year ends before the later ones begin. -/
theorem daysBeforeYear_add_le {y y' : ℤ} (h : y < y') :
    daysBeforeYear y + (monthLengths y).sum ≤ daysBeforeYear y' := by
  rw [← daysBeforeYear_succ]
  unfold daysBeforeYear
  omega

/-- The year day number `n` lies in: 400 years have 146097 days, which gives the year or one next to
it. -/
def yearOfDay (n : ℤ) : ℤ :=
  if n < daysBeforeYear (400 * n / 146097) then 400 * n / 146097 - 1
  else if daysBeforeYear (400 * n / 146097 + 1) ≤ n then 400 * n / 146097 + 1
  else 400 * n / 146097

theorem yearOfDay_spec (n : ℤ) :
    daysBeforeYear (yearOfDay n) ≤ n ∧ n < daysBeforeYear (yearOfDay n + 1) := by
  rw [yearOfDay]
  -- the quotient differs from the year by one at most
  split
  · rename_i hlt
    rw [Int.sub_add_cancel]
    refine ⟨?_, hlt⟩
    unfold daysBeforeYear
    omega
  · split
    · rename_i hle
      refine ⟨hle, ?_⟩
      unfold daysBeforeYear
      omega
    · rename_i hlt hle
      exact ⟨not_lt.mp hlt, not_le.mp hle⟩

theorem yearOfDay_unique {n y : ℤ} (hle : daysBeforeYear y ≤ n) (hlt : n < daysBeforeYear (y + 1)) :
    yearOfDay n = y := by
  obtain ⟨hle', hlt'⟩ := yearOfDay_spec n
  rw [daysBeforeYear_succ] at hlt hlt'
  rcases lt_trichotomy (yearOfDay n) y with h | h | h
  · have := daysBeforeYear_add_le h
    omega
  · exact h
  · have := daysBeforeYear_add_le h
    omega

/-! ## Months

Months are counted through from January of the year 0, so that month `k` lies in the year `k / 12`. -/

/-- The length of month `k`. -/
def monthLength (k : ℤ) : ℕ := (monthLengths (k / 12)).getD (k % 12).toNat 0

/-- The days from the beginning of the year 0 to that of month `k`. -/
def daysBeforeMonth (k : ℤ) : ℤ :=
  daysBeforeYear (k / 12) + ((monthLengths (k / 12)).take (k % 12).toNat).sum

theorem monthLength_bounds (k : ℤ) : 28 ≤ monthLength k ∧ monthLength k ≤ 31 := by
  have hall : ∀ n ∈ monthLengths (k / 12), 28 ≤ n ∧ n ≤ 31 := by
    unfold monthLengths
    split <;> decide
  have hlt : (k % 12).toNat < (monthLengths (k / 12)).length := by
    show (k % 12).toNat < 12
    omega
  unfold monthLength
  rw [List.getD_eq_getElem _ _ hlt]
  exact hall _ (List.getElem_mem hlt)

/-- The next month begins when a month is over. -/
theorem daysBeforeMonth_succ (k : ℤ) : daysBeforeMonth (k + 1) = daysBeforeMonth k + monthLength k := by
  unfold daysBeforeMonth monthLength
  by_cases hlast : k % 12 = 11
  · -- behind December the year changes
    have hyear : (k + 1) / 12 = k / 12 + 1 := by omega
    have hmonth : ((k + 1) % 12).toNat = 0 := by omega
    have hall : (monthLengths (k / 12)).take (11 + 1) = monthLengths (k / 12) :=
      List.take_of_length_le le_rfl
    have hsum := sum_take_succ (monthLengths (k / 12)) 11
    rw [hall] at hsum
    have heleven : (k % 12).toNat = 11 := by omega
    rw [hyear, hmonth, heleven, daysBeforeYear_succ, List.take_zero, List.sum_nil, hsum]
    omega
  · have hyear : (k + 1) / 12 = k / 12 := by omega
    have hmonth : ((k + 1) % 12).toNat = (k % 12).toNat + 1 := by omega
    rw [hyear, hmonth, sum_take_succ]
    omega

/-- Months have between 28 and 31 days. -/
theorem daysBeforeMonth_add (k : ℤ) (i : ℕ) :
    daysBeforeMonth k + 28 * i ≤ daysBeforeMonth (k + i) ∧
      daysBeforeMonth (k + i) ≤ daysBeforeMonth k + 31 * i := by
  induction i with
  | zero => simp
  | succ i ih =>
    have hbounds := monthLength_bounds (k + i)
    have hcast : k + ((i + 1 : ℕ) : ℤ) = k + i + 1 := by omega
    rw [hcast, daysBeforeMonth_succ]
    omega

/-! ## Dates -/

/-- A day of the calendar. -/
@[ext] structure Date where
  year : ℤ
  month : ℕ
  day : ℕ
  valid : day < (monthLengths year).getD month 0
deriving DecidableEq

namespace Date

/-- The day of the year, counted from 0. -/
def dayOfYear (d : Date) : ℕ := ((monthLengths d.year).take d.month).sum + d.day

/-- The days from the beginning of the year 0. -/
def number (d : Date) : ℤ := daysBeforeYear d.year + d.dayOfYear

/-- The date of a day number. -/
def ofNumber (n : ℤ) : Date :=
  let p := locate (monthLengths (yearOfDay n)) (n - daysBeforeYear (yearOfDay n)).toNat
  ⟨yearOfDay n, p.1, p.2, (locate_spec _ (by
    obtain ⟨hle, hlt⟩ := yearOfDay_spec n
    rw [daysBeforeYear_succ] at hlt
    omega)).1⟩

theorem month_lt (d : Date) : d.month < 12 := by
  by_contra h
  have hnone : (monthLengths d.year).getD d.month 0 = 0 :=
    List.getD_eq_default _ _ (not_lt.mp h)
  have hvalid := d.valid
  omega

theorem day_lt (d : Date) : d.day < 31 := by
  have hall : ∀ n ∈ monthLengths d.year, n ≤ 31 := by
    unfold monthLengths
    split <;> decide
  have hvalid := d.valid
  rw [List.getD_eq_getElem _ _ d.month_lt] at hvalid
  have hle := hall _ (List.getElem_mem d.month_lt)
  omega

theorem dayOfYear_lt (d : Date) : d.dayOfYear < (monthLengths d.year).sum := by
  have hlt := sum_take_lt _ d.valid d.month_lt
  have hall : (monthLengths d.year).take 12 = monthLengths d.year := List.take_of_length_le le_rfl
  rwa [hall] at hlt

/-- The month of a date. -/
def monthNumber (d : Date) : ℤ := 12 * d.year + d.month

theorem monthNumber_div (d : Date) : d.monthNumber / 12 = d.year := by
  have hmonth := d.month_lt
  unfold monthNumber
  omega

theorem monthNumber_mod (d : Date) : (d.monthNumber % 12).toNat = d.month := by
  have hmonth := d.month_lt
  unfold monthNumber
  omega

theorem number_eq (d : Date) : d.number = daysBeforeMonth d.monthNumber + d.day := by
  unfold number dayOfYear daysBeforeMonth
  rw [monthNumber_div, monthNumber_mod]
  omega

/-- A day of month `k`. -/
def ofMonth (k : ℤ) (day : ℕ) (h : day < monthLength k) : Date := ⟨k / 12, (k % 12).toNat, day, h⟩

theorem monthNumber_ofMonth {k : ℤ} {day : ℕ} (h : day < monthLength k) :
    (ofMonth k day h).monthNumber = k := by
  show 12 * (k / 12) + ((k % 12).toNat : ℤ) = k
  omega

theorem number_ofNumber (n : ℤ) : (ofNumber n).number = n := by
  obtain ⟨hle, hlt⟩ := yearOfDay_spec n
  rw [daysBeforeYear_succ] at hlt
  have hsum := (locate_spec (monthLengths (yearOfDay n))
    (k := (n - daysBeforeYear (yearOfDay n)).toNat) (by omega)).2
  unfold number dayOfYear ofNumber
  simp only [hsum]
  omega

theorem ofNumber_number (d : Date) : ofNumber d.number = d := by
  have hlt := d.dayOfYear_lt
  have hyear : yearOfDay d.number = d.year := by
    refine yearOfDay_unique ?_ ?_
    · unfold number
      omega
    · rw [daysBeforeYear_succ]
      unfold number
      omega
  have hday : (d.number - daysBeforeYear d.year).toNat = d.dayOfYear := by
    unfold number
    omega
  have hlocate : locate (monthLengths d.year) d.dayOfYear = (d.month, d.day) :=
    locate_sum_add _ d.valid
  unfold ofNumber
  ext
  · exact hyear
  · simp only [hyear, hday, hlocate]
  · simp only [hyear, hday, hlocate]

/-- A date that is read earlier comes earlier. -/
theorem number_lt {d d' : Date} (h : d.year < d'.year ∨ d.year = d'.year ∧
    (d.month < d'.month ∨ d.month = d'.month ∧ d.day < d'.day)) : d.number < d'.number := by
  unfold number
  -- the part that decides lies in a later year, a later month or on a later day
  rcases h with hyear | ⟨hyear, hmonth | ⟨hmonth, hday⟩⟩
  · have hle := daysBeforeYear_add_le hyear
    have hlt := d.dayOfYear_lt
    omega
  · have hlt := sum_take_lt _ d.valid hmonth
    unfold dayOfYear
    rw [← hyear]
    omega
  · unfold dayOfYear
    rw [← hyear, ← hmonth]
    omega

end Date

/-! ## Moments -/

/-- A second of the calendar. -/
@[ext] structure Moment where
  date : Date
  hour : ℕ
  minute : ℕ
  second : ℕ
  valid : hour < 24 ∧ minute < 60 ∧ second < 60
deriving DecidableEq

namespace Moment

/-- The seconds from the beginning of the year 0. -/
def seconds (m : Moment) : ℤ :=
  m.date.number * 86400 + (m.hour * 3600 + m.minute * 60 + m.second : ℕ)

/-- The moment of a count of seconds. -/
def ofSeconds (t : ℤ) : Moment where
  date := .ofNumber (t / 86400)
  hour := (t % 86400).toNat / 3600
  minute := (t % 86400).toNat % 3600 / 60
  second := (t % 86400).toNat % 60
  valid := by omega

theorem seconds_ofSeconds (t : ℤ) : (ofSeconds t).seconds = t := by
  show (Date.ofNumber (t / 86400)).number * 86400 +
    ((t % 86400).toNat / 3600 * 3600 + (t % 86400).toNat % 3600 / 60 * 60 +
      (t % 86400).toNat % 60 : ℕ) = t
  rw [Date.number_ofNumber]
  omega

theorem ofSeconds_seconds (m : Moment) : ofSeconds m.seconds = m := by
  have hvalid := m.valid
  have hday : m.seconds / 86400 = m.date.number := by
    unfold seconds
    omega
  have hrest : (m.seconds % 86400).toNat = m.hour * 3600 + m.minute * 60 + m.second := by
    unfold seconds
    omega
  ext1
  · show Date.ofNumber (m.seconds / 86400) = m.date
    rw [hday, Date.ofNumber_number]
  · show (m.seconds % 86400).toNat / 3600 = m.hour
    rw [hrest]
    omega
  · show (m.seconds % 86400).toNat % 3600 / 60 = m.minute
    rw [hrest]
    omega
  · show (m.seconds % 86400).toNat % 60 = m.second
    rw [hrest]
    omega

/-- The moment written as one number, two decimal places for each part below the year. -/
def stamp (m : Moment) : ℤ :=
  ((((m.date.year * 100 + (m.date.month + 1)) * 100 + (m.date.day + 1)) * 100 + m.hour) * 100 +
    m.minute) * 100 + m.second

theorem bounds (m : Moment) : m.date.month < 12 ∧ m.date.day < 31 ∧
    m.hour < 24 ∧ m.minute < 60 ∧ m.second < 60 :=
  ⟨m.date.month_lt, m.date.day_lt, m.valid⟩

theorem stamp_injective {m m' : Moment} (h : m.stamp = m'.stamp) : m = m' := by
  have hbounds := m.bounds
  have hbounds' := m'.bounds
  unfold stamp at h
  ext
  · omega
  · omega
  · omega
  · omega
  · omega
  · omega

theorem seconds_lt_of_stamp_lt {m m' : Moment} (h : m.stamp < m'.stamp) : m.seconds < m'.seconds := by
  have hbounds := m.bounds
  have hbounds' := m'.bounds
  unfold stamp at h
  -- either the dates are in order, or they agree and the times of day are
  by_cases hdate : m.date.number < m'.date.number
  · unfold seconds
    omega
  · have hnot := mt Date.number_lt hdate
    have hsame : m.date.year = m'.date.year ∧ m.date.month = m'.date.month ∧
        m.date.day = m'.date.day := by
      omega
    have heq : m.date = m'.date := Date.ext hsame.1 hsame.2.1 hsame.2.2
    unfold seconds
    rw [heq] at h ⊢
    omega

/-- Moments are in the order of their counts of seconds if and only if they are in the order they
are read. -/
theorem seconds_lt_iff {m m' : Moment} : m.seconds < m'.seconds ↔ m.stamp < m'.stamp := by
  rcases lt_trichotomy m.stamp m'.stamp with h | h | h
  · exact iff_of_true (seconds_lt_of_stamp_lt h) h
  · rw [stamp_injective h]
    simp
  · exact iff_of_false (seconds_lt_of_stamp_lt h).not_gt h.not_gt

theorem year_le {m m' : Moment} (h : m.seconds ≤ m'.seconds) : m.date.year ≤ m'.date.year := by
  by_contra hyear
  have hlt := Date.number_lt (.inl (not_le.mp hyear))
  have hbounds' := m'.bounds
  unfold seconds at h
  omega

/-- A day later the year is the next one at most. -/
theorem year_le_of_seconds_le {m m' : Moment} (h : m'.seconds ≤ m.seconds + 86400) :
    m'.date.year ≤ m.date.year + 1 := by
  by_contra hyear
  have hbounds := m.bounds
  have hlt := m.date.dayOfYear_lt
  have hend := daysBeforeYear_succ m.date.year
  -- a whole year lies between the two
  have hnext : daysBeforeYear (m.date.year + 1) + 365 ≤ daysBeforeYear m'.date.year := by
    have hle := daysBeforeYear_add_le (not_le.mp hyear)
    rw [sum_monthLengths] at hle
    split at hle <;> omega
  unfold seconds Date.number at h
  omega

end Moment
end Tdm.Lib
