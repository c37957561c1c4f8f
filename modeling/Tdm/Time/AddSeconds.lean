import Tdm.Time.AddDays

/-!
# Adding seconds

`AddSeconds` and its two variants add seconds to the instant of a time and write the instant they get;
`DiffSeconds` subtracts the instants of two times. The sum is formed in `time_t`, so nothing overflows,
and the difference fits `int` when it is a number of seconds that was added.
-/

namespace Tdm.Time

open Tdm.Lib

/-- The moment a number of seconds later. -/
def secondsLater (m : Moment) (n : ℤ) : Moment := .ofSeconds (m.seconds + n)

theorem secondsLater_zero (m : Moment) : secondsLater m 0 = m := by
  unfold secondsLater
  rw [Int.add_zero, Moment.ofSeconds_seconds]

theorem secondsLater_add (m : Moment) (k l : ℤ) :
    secondsLater (secondsLater m k) l = secondsLater m (k + l) := by
  unfold secondsLater
  rw [Moment.seconds_ofSeconds, Int.add_assoc]

theorem instant_secondsLater (z : Zone) (m : Moment) (n : ℤ) :
    instant z (secondsLater m n) = instant z m + n := by
  unfold instant secondsLater
  rw [Moment.seconds_ofSeconds]
  omega

section Times
variable {offset : ℤ} {s : List UInt8} {n : ℤ}

/-- Seconds are added on the calendar. -/
theorem addSeconds_eq (h : IsTime s) (hyear : FourDigitYear (secondsLater (momentOf h) n).date.year) :
    addSeconds (.fixed offset) s n = some (momentText (secondsLater (momentOf h) n)) := by
  unfold addSeconds
  rw [getTimet_eq _ h, Option.bind_eq_bind, Option.bind_some, ← instant_secondsLater]
  exact getTimetStr_of_standard rfl hyear

theorem diffSeconds_eq (h : IsTime s) (hn : -2 ^ 31 ≤ n ∧ n < 2 ^ 31)
    (hyear : FourDigitYear (secondsLater (momentOf h) n).date.year) :
    diffSeconds (.fixed offset) s (momentText (secondsLater (momentOf h) n)) = some n := by
  obtain ⟨ht, hmoment⟩ := isTime_laterBy hyear
  have hdiff : instant (.fixed offset) (momentOf ht) - instant (.fixed offset) (momentOf h) = n := by
    rw [hmoment, instant_secondsLater]
    omega
  unfold diffSeconds
  rw [getTimet_eq _ ht, getTimet_eq _ h]
  show some (toInt32 (instant _ (momentOf ht) - instant _ (momentOf h))) = some n
  rw [hdiff, toInt32_of_range hn.1 hn.2]

/-- The variants write the text that `AddSeconds` writes. -/
theorem addSeconds_variants {z : Zone} {t : List UInt8} (h : addSeconds z s n = some t) :
    addSecondsModified z s n = some t ∧ returnAddSeconds z s n = some (some t) := by
  refine ⟨h, ?_⟩
  obtain ⟨time, htime, htext⟩ := Option.bind_eq_some_iff.mp h
  unfold returnAddSeconds
  rw [htime]
  exact congrArg some htext

end Times

/-- Seconds act on a time, `DiffSeconds` gives them back, what is written is a time again and the
variants of `AddSeconds` agree with it. -/
structure SecondLaws (z : Zone) (s : List UInt8) (m n : ℤ) : Prop where
  action : ∃ t u, addSeconds z s m = some t ∧ addSeconds z t n = some u ∧ addSeconds z s (m + n) = some u
  zero : addSeconds z s 0 = some s
  diff : ∃ t, addSeconds z s n = some t ∧ IsTime t ∧ diffSeconds z s t = some n
  variants : ∀ k t, addSeconds z s k = some t →
    addSecondsModified z s k = some t ∧ returnAddSeconds z s k = some (some t)

/-- As long as the times keep a year of four digits, seconds act on times as the integers do. -/
theorem second_laws (offset : ℤ) (s : List UInt8) (h : IsTime s) (m n : ℤ)
    (hn : -2 ^ 31 ≤ n ∧ n < 2 ^ 31)
    (hyear : ∀ k ∈ [0, m, n, m + n], FourDigitYear (secondsLater (momentOf h) k).date.year) :
    SecondLaws (.fixed offset) s m n := by
  have hyear₀ := hyear 0 (by simp)
  have hyearₘ := hyear m (by simp)
  have hyearₙ := hyear n (by simp)
  have hyear₂ := hyear (m + n) (by simp)
  refine ⟨⟨_, _, addSeconds_eq h hyearₘ, ?_, addSeconds_eq h hyear₂⟩, ?_,
    ⟨_, addSeconds_eq h hyearₙ, ?_, diffSeconds_eq h hn hyearₙ⟩, fun k t => addSeconds_variants⟩
  -- the text of the first sum is read back as the moment it was written from
  · obtain ⟨ht, hmoment⟩ := isTime_laterBy hyearₘ
    have htwice : secondsLater (momentOf ht) n = secondsLater (momentOf h) (m + n) := by
      rw [hmoment, secondsLater_add]
    rw [addSeconds_eq ht (by rwa [htwice]), htwice]
  · rw [addSeconds_eq h hyear₀, secondsLater_zero, momentOf_text]
  · obtain ⟨ht, -⟩ := isTime_laterBy hyearₙ
    exact ht

/-- Over the end of a century that is no leap year, and back. -/
theorem second_laws_century :
    SecondLaws (.fixed 28800) (text "19000228235959") 1 (-86401) ∧
    addSeconds (.fixed 28800) (text "19000228235959") 1 = some (text "19000301000000") :=
  ⟨second_laws 28800 _ (by decide +kernel) 1 (-86401) (by decide) (by decide +kernel),
    by decide +kernel⟩

end Tdm.Time
