import Tdm.Time.TimeText
import Mathlib.Data.Int.ConditionallyCompleteOrder
import Mathlib.Order.Interval.Set.LinearOrder
import Mathlib.Order.Interval.Set.UnorderedInterval

/-!
# Union and intersection of time intervals

`GetTimeUnion` and `GetTimeIntersection` put the ends of both intervals in order and return the ends
of the union or of the intersection as texts, when the intervals share a point. Texts are compared as
texts here, and an interval contains what lies between its ends in either order; the functions work on
instants. In a zone without daylight saving the ends they write are texts among those they were given.
-/

namespace Tdm.Time

open Tdm.Lib

/-- A calendar-valid time with a year of four digits. -/
structure ValidTime (s : List UInt8) : Prop where
  isTime : IsTime s
  year : FourDigitYear (part s 0 4)

/-- A time lies between two others, in whichever order they are given. -/
def InSpan (t b e : List UInt8) : Prop :=
  (¬ TextLT t b ∧ ¬ TextLT e t) ∨ (¬ TextLT t e ∧ ¬ TextLT b t)

instance (t b e : List UInt8) : Decidable (InSpan t b e) := inferInstanceAs (Decidable (_ ∨ _))

/-- Two intervals share a point. -/
def SharePoint (b₁ e₁ b₂ e₂ : List UInt8) : Prop :=
  ∃ t, ValidTime t ∧ InSpan t b₁ e₁ ∧ InSpan t b₂ e₂

/-- A function of two intervals returns `TRUE` if and only if `shares` holds, with the ends of an
interval that contains, for `IsDateBetween`, exactly the times in `member`. -/
def Describes (z : Zone) (r : Option (Option (Option (List UInt8) × Option (List UInt8))))
    (shares : Prop) (member : List UInt8 → Prop) : Prop :=
  (¬ shares → r = some none) ∧
  (shares → ∃ sBegin sEnd, r = some (some (some sBegin, some sEnd)) ∧
    ∀ t, IsTime t → (isDateBetween z t sBegin sEnd = some true ↔ member t))

/-! ## Instants and texts -/

section Texts
variable {offset : ℤ}

/-- The instants of valid times. -/
def IsInstant (z : Zone) (x : ℤ) : Prop :=
  ∃ s, ∃ h : ValidTime s, instant z (momentOf h.isTime) = x

theorem ValidTime.isInstant {s : List UInt8} (h : ValidTime s) (z : Zone) :
    IsInstant z (instant z (momentOf h.isTime)) :=
  ⟨s, h, rfl⟩

theorem IsInstant.min {z : Zone} {x y : ℤ} (hx : IsInstant z x) (hy : IsInstant z y) :
    IsInstant z (min x y) := by
  rcases min_choice x y with h | h
  · rwa [h]
  · rwa [h]

theorem IsInstant.max {z : Zone} {x y : ℤ} (hx : IsInstant z x) (hy : IsInstant z y) :
    IsInstant z (max x y) := by
  rcases max_choice x y with h | h
  · rwa [h]
  · rwa [h]

/-- In a fixed zone such an instant is written as a text that is read as the same instant. -/
theorem IsInstant.written {x : ℤ} (h : IsInstant (.fixed offset) x) :
    ∃ s, storeTime (.fixed offset) true x = some (some s) ∧ getTimet (.fixed offset) s = some x := by
  obtain ⟨s, hs, rfl⟩ := h
  have hwrite : getTimetStr (.fixed offset) (instant (.fixed offset) (momentOf hs.isTime)) = some s :=
    (getTimetStr_of_standard rfl hs.year).trans (congrArg some (momentOf_text hs.isTime))
  refine ⟨s, ?_, getTimet_eq _ hs.isTime⟩
  show (getTimetStr _ _).map some = _
  rw [hwrite]
  rfl

/-- Membership of texts is membership of instants. -/
theorem inSpan_iff (z : Zone) {t b e : List UInt8} (ht : IsTime t) (hb : IsTime b) (he : IsTime e) :
    InSpan t b e ↔
      instant z (momentOf ht) ∈ Set.uIcc (instant z (momentOf hb)) (instant z (momentOf he)) := by
  unfold InSpan
  rw [Set.mem_uIcc, ← instant_lt_iff z ht hb, ← instant_lt_iff z he ht, ← instant_lt_iff z ht he,
    ← instant_lt_iff z hb ht]
  simp only [not_lt]

theorem isDateBetween_eq_true (z : Zone) {t b e : List UInt8} (ht : IsTime t) {x y : ℤ}
    (hb : getTimet z b = some x) (he : getTimet z e = some y) :
    isDateBetween z t b e = some true ↔ instant z (momentOf ht) ∈ Set.Icc x y := by
  unfold isDateBetween
  rw [hb, he, getTimet_eq z ht]
  show some (decide _ && decide _) = some true ↔ _
  rw [Option.some.injEq, Bool.and_eq_true, decide_eq_true_eq, decide_eq_true_eq]
  rfl

end Texts

/-! ## The two functions -/

theorem inOrder_eq (x y : ℤ) : inOrder x y = (min x y, max x y) := by
  unfold inOrder
  split
  · rename_i h
    rw [min_eq_right h.le, max_eq_left h.le]
  · rename_i h
    rw [min_eq_left (not_lt.mp h), max_eq_right (not_lt.mp h)]

section Operations
variable {z : Zone} {b₁ e₁ b₂ e₂ : List UInt8} {lo₁ hi₁ lo₂ hi₂ : ℤ}

/-- What is stored for an interval. -/
def storeSpan (z : Zone) (beginGiven endGiven : Bool) (x y : ℤ) :
    Option (Option (Option (List UInt8) × Option (List UInt8))) := do
  let sBegin ← storeTime z beginGiven x
  let sEnd ← storeTime z endGiven y
  return some (sBegin, sEnd)

theorem getTimeUnion_eq (h₁ : timeInterval z b₁ e₁ = some (lo₁, hi₁))
    (h₂ : timeInterval z b₂ e₂ = some (lo₂, hi₂)) (beginGiven endGiven : Bool) :
    getTimeUnion z b₁ e₁ b₂ e₂ beginGiven endGiven =
      if lo₁ ≤ hi₂ ∧ lo₂ ≤ hi₁ then storeSpan z beginGiven endGiven (min lo₁ lo₂) (max hi₁ hi₂)
      else some none := by
  have hmin : (if lo₁ < lo₂ then lo₁ else lo₂) = min lo₁ lo₂ := by split <;> omega
  have hmax : (if hi₁ < hi₂ then hi₂ else hi₁) = max hi₁ hi₂ := by split <;> omega
  unfold getTimeUnion
  rw [h₁, h₂]
  show (if lo₁ > hi₂ ∨ lo₂ > hi₁ then some none else storeSpan z beginGiven endGiven
    (if lo₁ < lo₂ then lo₁ else lo₂) (if hi₁ < hi₂ then hi₂ else hi₁)) = _
  rw [hmin, hmax]
  split
  · rw [if_neg (by omega)]
  · rw [if_pos (by omega)]

theorem getTimeIntersection_eq (h₁ : timeInterval z b₁ e₁ = some (lo₁, hi₁))
    (h₂ : timeInterval z b₂ e₂ = some (lo₂, hi₂)) (beginGiven endGiven : Bool) :
    getTimeIntersection z b₁ e₁ b₂ e₂ beginGiven endGiven =
      if lo₁ ≤ hi₂ ∧ lo₂ ≤ hi₁ ∧ lo₁ ≠ hi₁ ∧ lo₂ ≠ hi₂ then
        storeSpan z beginGiven endGiven (max lo₁ lo₂) (min hi₁ hi₂)
      else some none := by
  have hmax : (if lo₁ < lo₂ then lo₂ else lo₁) = max lo₁ lo₂ := by split <;> omega
  have hmin : (if hi₁ < hi₂ then hi₁ else hi₂) = min hi₁ hi₂ := by split <;> omega
  unfold getTimeIntersection
  rw [h₁, h₂]
  show (if lo₁ > hi₂ ∨ lo₂ > hi₁ ∨ lo₁ = hi₁ ∨ lo₂ = hi₂ then some none
    else storeSpan z beginGiven endGiven
      (if lo₁ < lo₂ then lo₂ else lo₁) (if hi₁ < hi₂ then hi₁ else hi₂)) = _
  rw [hmin, hmax]
  split
  · rw [if_neg (by omega)]
  · rw [if_pos (by omega)]

end Operations

/-! ## Two intervals of valid times -/

/-- The ends of an interval as instants. -/
structure Spanned (z : Zone) (b e : List UInt8) (lo hi : ℤ) : Prop where
  interval : timeInterval z b e = some (lo, hi)
  le : lo ≤ hi
  begins : IsInstant z lo
  ends : IsInstant z hi
  mem : ∀ {t : List UInt8} (ht : IsTime t), InSpan t b e ↔ instant z (momentOf ht) ∈ Set.Icc lo hi

theorem timeInterval_eq (z : Zone) {b e : List UInt8} (hb : IsTime b) (he : IsTime e) :
    timeInterval z b e = some (min (instant z (momentOf hb)) (instant z (momentOf he)),
      max (instant z (momentOf hb)) (instant z (momentOf he))) := by
  unfold timeInterval
  rw [getTimet_eq z hb, getTimet_eq z he]
  exact congrArg some (inOrder_eq _ _)

theorem timeInterval_comm (z : Zone) {b e : List UInt8} (hb : IsTime b) (he : IsTime e) :
    timeInterval z e b = timeInterval z b e := by
  rw [timeInterval_eq z hb he, timeInterval_eq z he hb, min_comm, max_comm]

theorem exists_spanned (z : Zone) {b e : List UInt8} (hb : ValidTime b) (he : ValidTime e) :
    ∃ lo hi, Spanned z b e lo hi :=
  ⟨_, _, timeInterval_eq z hb.isTime he.isTime, min_le_max, (hb.isInstant z).min (he.isInstant z),
    (hb.isInstant z).max (he.isInstant z), fun ht => inSpan_iff z ht hb.isTime he.isTime⟩

/-- The ends of an interval of different times are different. -/
theorem Spanned.lt {z : Zone} {b e : List UInt8} {lo hi : ℤ} (h : Spanned z b e lo hi)
    (hb : IsTime b) (he : IsTime e) (hne : b ≠ e) : lo < hi := by
  have heq := (timeInterval_eq z hb he).symm.trans h.interval
  rw [Option.some.injEq, Prod.mk.injEq] at heq
  rw [← heq.1, ← heq.2, min_lt_max]
  intro hinstant
  have hseconds : (momentOf hb).seconds = (momentOf he).seconds := by
    unfold instant at hinstant
    omega
  have hmoment : momentOf hb = momentOf he := by
    rw [← Moment.ofSeconds_seconds (momentOf hb), hseconds, Moment.ofSeconds_seconds]
  exact hne ((momentOf_text hb).symm.trans ((congrArg momentText hmoment).trans (momentOf_text he)))

section Pairs
variable {z : Zone} {b₁ e₁ b₂ e₂ : List UInt8} {lo₁ hi₁ lo₂ hi₂ : ℤ}

theorem sharePoint_iff (h₁ : Spanned z b₁ e₁ lo₁ hi₁) (h₂ : Spanned z b₂ e₂ lo₂ hi₂) :
    SharePoint b₁ e₁ b₂ e₂ ↔ lo₁ ≤ hi₂ ∧ lo₂ ≤ hi₁ := by
  constructor
  · rintro ⟨t, ht, hin₁, hin₂⟩
    have hmem₁ := (h₁.mem ht.isTime).mp hin₁
    have hmem₂ := (h₂.mem ht.isTime).mp hin₂
    exact ⟨hmem₁.1.trans hmem₂.2, hmem₂.1.trans hmem₁.2⟩
  · rintro ⟨hle₁, hle₂⟩
    -- the later of the two beginnings lies in both
    obtain ⟨t, ht, hinstant⟩ := h₁.begins.max h₂.begins
    refine ⟨t, ht, (h₁.mem ht.isTime).mpr ?_, (h₂.mem ht.isTime).mpr ?_⟩
    · rw [hinstant]
      exact ⟨le_max_left _ _, max_le h₁.le hle₂⟩
    · rw [hinstant]
      exact ⟨le_max_right _ _, max_le hle₁ h₂.le⟩

/-- The ends of an interval of instants are written and read back. -/
theorem storeSpan_written {offset x y : ℤ} (hx : IsInstant (.fixed offset) x)
    (hy : IsInstant (.fixed offset) y) :
    ∃ sBegin sEnd, storeSpan (.fixed offset) true true x y = some (some (some sBegin, some sEnd)) ∧
      ∀ {t} (ht : IsTime t), isDateBetween (.fixed offset) t sBegin sEnd = some true ↔
        instant (.fixed offset) (momentOf ht) ∈ Set.Icc x y := by
  obtain ⟨sBegin, hbegin, hread⟩ := hx.written
  obtain ⟨sEnd, hend, hread'⟩ := hy.written
  refine ⟨sBegin, sEnd, ?_, fun ht => isDateBetween_eq_true _ ht hread hread'⟩
  unfold storeSpan
  rw [hbegin, hend]
  rfl

theorem describes_union {offset : ℤ} (h₁ : Spanned (.fixed offset) b₁ e₁ lo₁ hi₁)
    (h₂ : Spanned (.fixed offset) b₂ e₂ lo₂ hi₂) :
    Describes (.fixed offset) (getTimeUnion (.fixed offset) b₁ e₁ b₂ e₂ true true)
      (SharePoint b₁ e₁ b₂ e₂) fun t => InSpan t b₁ e₁ ∨ InSpan t b₂ e₂ := by
  unfold Describes
  rw [getTimeUnion_eq h₁.interval h₂.interval, sharePoint_iff h₁ h₂]
  refine ⟨fun hnot => if_neg hnot, fun hshare => ?_⟩
  rw [if_pos hshare]
  obtain ⟨sBegin, sEnd, hstore, hmem⟩ :=
    storeSpan_written (h₁.begins.min h₂.begins) (h₁.ends.max h₂.ends)
  refine ⟨sBegin, sEnd, hstore, fun t ht => ?_⟩
  show _ ↔ InSpan t b₁ e₁ ∨ InSpan t b₂ e₂
  rw [hmem ht, h₁.mem ht, h₂.mem ht, ← Set.Icc_union_Icc' hshare.2 hshare.1]
  rfl

theorem describes_intersection {offset : ℤ} (h₁ : Spanned (.fixed offset) b₁ e₁ lo₁ hi₁)
    (h₂ : Spanned (.fixed offset) b₂ e₂ lo₂ hi₂) (hlt₁ : lo₁ < hi₁) (hlt₂ : lo₂ < hi₂) :
    Describes (.fixed offset) (getTimeIntersection (.fixed offset) b₁ e₁ b₂ e₂ true true)
      (SharePoint b₁ e₁ b₂ e₂) fun t => InSpan t b₁ e₁ ∧ InSpan t b₂ e₂ := by
  unfold Describes
  rw [getTimeIntersection_eq h₁.interval h₂.interval, sharePoint_iff h₁ h₂]
  refine ⟨fun hnot => if_neg fun h => hnot ⟨h.1, h.2.1⟩, fun hshare => ?_⟩
  rw [if_pos ⟨hshare.1, hshare.2, hlt₁.ne, hlt₂.ne⟩]
  obtain ⟨sBegin, sEnd, hstore, hmem⟩ :=
    storeSpan_written (h₁.begins.max h₂.begins) (h₁.ends.min h₂.ends)
  refine ⟨sBegin, sEnd, hstore, fun t ht => ?_⟩
  show _ ↔ InSpan t b₁ e₁ ∧ InSpan t b₂ e₂
  rw [hmem ht, h₁.mem ht, h₂.mem ht, ← Set.mem_inter_iff, Set.Icc_inter_Icc]

theorem getTimeUnion_comm (h₁ : Spanned z b₁ e₁ lo₁ hi₁) (h₂ : Spanned z b₂ e₂ lo₂ hi₂)
    (beginGiven endGiven : Bool) :
    getTimeUnion z b₂ e₂ b₁ e₁ beginGiven endGiven =
      getTimeUnion z b₁ e₁ b₂ e₂ beginGiven endGiven := by
  rw [getTimeUnion_eq h₁.interval h₂.interval, getTimeUnion_eq h₂.interval h₁.interval,
    min_comm lo₂, max_comm hi₂]
  exact if_congr and_comm rfl rfl

theorem getTimeIntersection_comm (h₁ : Spanned z b₁ e₁ lo₁ hi₁) (h₂ : Spanned z b₂ e₂ lo₂ hi₂)
    (beginGiven endGiven : Bool) :
    getTimeIntersection z b₂ e₂ b₁ e₁ beginGiven endGiven =
      getTimeIntersection z b₁ e₁ b₂ e₂ beginGiven endGiven := by
  rw [getTimeIntersection_eq h₁.interval h₂.interval, getTimeIntersection_eq h₂.interval h₁.interval,
    max_comm lo₂, min_comm hi₂]
  exact if_congr (by omega) rfl rfl

end Pairs

/-- A function of two intervals does not depend on their order or on the order of their ends. -/
def SameForSwapped (f : List UInt8 → List UInt8 → List UInt8 → List UInt8 →
    Option (Option (Option (List UInt8) × Option (List UInt8)))) (b₁ e₁ b₂ e₂ : List UInt8) : Prop :=
  f b₂ e₂ b₁ e₁ = f b₁ e₁ b₂ e₂ ∧ f e₁ b₁ b₂ e₂ = f b₁ e₁ b₂ e₂ ∧ f b₁ e₁ e₂ b₂ = f b₁ e₁ b₂ e₂

/-- `GetTimeUnion` and `GetTimeIntersection` return `TRUE` exactly when the intervals share a point,
the ends they write are those of the union and of the intersection as `IsDateBetween` sees them, and
the order in which intervals and ends are given does not matter. -/
theorem interval_operations (offset : ℤ) (b₁ e₁ b₂ e₂ : List UInt8) (hb₁ : ValidTime b₁)
    (he₁ : ValidTime e₁) (hb₂ : ValidTime b₂) (he₂ : ValidTime e₂) :
    Describes (.fixed offset) (getTimeUnion (.fixed offset) b₁ e₁ b₂ e₂ true true)
      (SharePoint b₁ e₁ b₂ e₂) (fun t => InSpan t b₁ e₁ ∨ InSpan t b₂ e₂) ∧
    (b₁ ≠ e₁ → b₂ ≠ e₂ →
      Describes (.fixed offset) (getTimeIntersection (.fixed offset) b₁ e₁ b₂ e₂ true true)
        (SharePoint b₁ e₁ b₂ e₂) (fun t => InSpan t b₁ e₁ ∧ InSpan t b₂ e₂)) ∧
    SameForSwapped (getTimeUnion (.fixed offset) · · · · true true) b₁ e₁ b₂ e₂ ∧
    SameForSwapped (getTimeIntersection (.fixed offset) · · · · true true) b₁ e₁ b₂ e₂ := by
  obtain ⟨lo₁, hi₁, h₁⟩ := exists_spanned (.fixed offset) hb₁ he₁
  obtain ⟨lo₂, hi₂, h₂⟩ := exists_spanned (.fixed offset) hb₂ he₂
  have hswap₁ := timeInterval_comm (.fixed offset) hb₁.isTime he₁.isTime
  have hswap₂ := timeInterval_comm (.fixed offset) hb₂.isTime he₂.isTime
  refine ⟨describes_union h₁ h₂, fun hne₁ hne₂ => ?_, ⟨?_, ?_, ?_⟩, ?_, ?_, ?_⟩
  · exact describes_intersection h₁ h₂ (h₁.lt hb₁.isTime he₁.isTime hne₁)
      (h₂.lt hb₂.isTime he₂.isTime hne₂)
  · exact getTimeUnion_comm h₁ h₂ true true
  · simp only [getTimeUnion, hswap₁]
  · simp only [getTimeUnion, hswap₂]
  · exact getTimeIntersection_comm h₁ h₂ true true
  · simp only [getTimeIntersection, hswap₁]
  · simp only [getTimeIntersection, hswap₂]

/-- Two intervals that touch, one of them given backwards, are joined. -/
theorem interval_operations_touching :
    ∃ sBegin sEnd, getTimeUnion (.fixed 28800) (text "20240229000000") (text "20240101000000")
      (text "20240229000000") (text "20241231235959") true true =
        some (some (some sBegin, some sEnd)) ∧
      isDateBetween (.fixed 28800) (text "20240615120000") sBegin sEnd = some true := by
  have hvalid : ValidTime (text "20240229000000") ∧ ValidTime (text "20240101000000") ∧
      ValidTime (text "20241231235959") :=
    ⟨⟨by decide +kernel, by decide +kernel⟩, ⟨by decide +kernel, by decide +kernel⟩,
      ⟨by decide +kernel, by decide +kernel⟩⟩
  obtain ⟨⟨-, hunion⟩, -⟩ := interval_operations 28800 _ _ _ _ hvalid.1 hvalid.2.1 hvalid.1 hvalid.2.2
  obtain ⟨sBegin, sEnd, hstored, hmem⟩ := hunion ⟨_, hvalid.1, by decide +kernel, by decide +kernel⟩
  exact ⟨sBegin, sEnd, hstored, (hmem _ (by decide +kernel)).mpr (by decide +kernel)⟩

end Tdm.Time
