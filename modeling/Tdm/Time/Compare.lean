import Tdm.Time.TimeText

/-!
# Comparing dates as texts

Calendar-valid times are in the order of their texts, so every comparison `IsValidDateExt` makes on
instants is one of texts: it compares the characters its precision leaves, with the bounds its mode
includes. A date that lies between two others in the wide sense does so at every coarser precision.
-/

namespace Tdm.Time

open Tdm.Lib

/-! ## Truncated times -/

section Truncated
variable {s t : List UInt8} {n : ℕ}

theorem truncated_eq (h : IsTime s) (n : ℕ) :
    truncated n s = s.take n ++ List.replicate (14 - n) 48 := by
  unfold truncated
  rw [strncpy_eq h.digitText]

theorem length_take_time (h : IsTime s) (hn : n ≤ 14) : (s.take n).length = n := by
  rw [List.length_take, h.length, Nat.min_eq_left hn]

theorem length_truncated (h : IsTime s) (hn : n ≤ 14) : (truncated n s).length = 14 := by
  rw [truncated_eq h, List.length_append, length_take_time h hn, List.length_replicate]
  omega

theorem part_truncated_of_le (h : IsTime s) (hn : n ≤ 14) {i k : ℕ} (hik : i + k ≤ n) :
    part (truncated n s) i k = part s i k := by
  have hlen := length_take_time h hn
  unfold part
  rw [truncated_eq h, List.drop_append_of_le_length (by omega), List.take_append_of_le_length
    (by rw [List.length_drop]; omega), List.drop_take, List.take_take, Nat.min_eq_left (by omega)]

theorem part_truncated_of_ge (h : IsTime s) (hn : n ≤ 14) {i : ℕ} (hi : n ≤ i) (k : ℕ) :
    part (truncated n s) i k = 0 := by
  have hlen := length_take_time h hn
  have hzeros (j : ℕ) : numeral 0 (List.replicate j 48) = 0 := by
    rw [← List.append_nil (List.replicate j 48), numeral_zeros]
    rfl
  unfold part
  rw [truncated_eq h, List.drop_append, List.drop_of_length_le (by omega), List.nil_append,
    List.drop_replicate, List.take_replicate, hzeros]

/-- A part is kept or set to 0. -/
theorem part_truncated_le (h : IsTime s) (hn : n ≤ 14) {i : ℕ} (hi : i + 2 ≤ n ∨ n ≤ i) :
    part (truncated n s) i 2 ≤ part s i 2 := by
  rcases hi with hle | hge
  · exact (part_truncated_of_le h hn hle).le
  · rw [part_truncated_of_ge h hn hge]
    exact Nat.zero_le _

theorem isTime_truncated (h : IsTime s) (hn : n = 8 ∨ n = 10 ∨ n = 12 ∨ n = 14) :
    IsTime (truncated n s) := by
  have hle : n ≤ 14 := by omega
  have hyear := part_truncated_of_le h hle (i := 0) (k := 4) (by omega)
  have hmonth := part_truncated_of_le h hle (i := 4) (k := 2) (by omega)
  have hday := part_truncated_of_le h hle (i := 6) (k := 2) (by omega)
  have hhour := part_truncated_le h hle (i := 8) (by omega)
  have hmin := part_truncated_le h hle (i := 10) (by omega)
  have hsec := part_truncated_le h hle (i := 12) (by omega)
  -- the parts of the date are kept, those of the time of day kept or 0
  obtain ⟨hh, hm, hs⟩ := h.time
  refine ⟨length_truncated h hle, ?_, ?_, ?_, ?_, by omega, by omega, by omega⟩
  · intro c hc
    rw [truncated_eq h, List.mem_append] at hc
    rcases hc with hc | hc
    · exact h.digits c (List.mem_of_mem_take hc)
    · rw [List.eq_of_mem_replicate hc]
      decide
  · rw [hmonth]
    exact h.month
  · rw [hday]
    exact h.day
  · rw [hyear, hmonth, hday]
    exact h.date

theorem textLT_truncated (hs : IsTime s) (ht : IsTime t) (hn : n ≤ 14) :
    TextLT (truncated n s) (truncated n t) ↔ TextLT (s.take n) (t.take n) := by
  rw [truncated_eq hs, truncated_eq ht]
  exact textLT_append_iff ((length_take_time hs hn).trans (length_take_time ht hn).symm) _

end Truncated

/-! ## Modes -/

/-- A text lies between two others, with the bounds `includeMode` includes. -/
def TextIncluded (includeMode : ℤ) (b c e : List UInt8) : Prop :=
  (if includeMode = incmGtLt ∨ includeMode = incmGtLe then TextLT b c else ¬ TextLT c b) ∧
  (if includeMode = incmGtLt ∨ includeMode = incmGeLt then TextLT c e else ¬ TextLT e c)

instance (includeMode : ℤ) (b c e : List UInt8) : Decidable (TextIncluded includeMode b c e) :=
  inferInstanceAs (Decidable (_ ∧ _))

theorem precision_cases (datePreMode : ℤ) : precision datePreMode = 8 ∨ precision datePreMode = 10 ∨
    precision datePreMode = 12 ∨ precision datePreMode = 14 := by
  unfold precision
  split
  · omega
  split
  · omega
  split <;> omega

/-- The modes say which of the two comparisons are strict. -/
theorem included_eq_true (mode x y w : ℤ) :
    included mode x y w = true ↔
      (if mode = incmGtLt ∨ mode = incmGtLe then x < y else ¬ y < x) ∧
      (if mode = incmGtLt ∨ mode = incmGeLt then y < w else ¬ w < y) := by
  unfold included incmGeLe incmGtLt incmGeLt incmGtLe
  by_cases h0 : mode = 0
  · subst h0
    simp
  by_cases h1 : mode = 1
  · subst h1
    simp
  by_cases h2 : mode = 2
  · subst h2
    simp
  by_cases h3 : mode = 3
  · subst h3
    simp
  · simp [h0, h1, h2, h3]

section Comparison
variable {z : Zone} {b c e : List UInt8}

/-- `IsDateBetweenExt` on times compares their texts. -/
theorem isDateBetweenExt_eq (hc : IsTime c) (hb : IsTime b) (he : IsTime e) (mode : ℤ) :
    isDateBetweenExt z c b e mode = some (decide (TextIncluded mode b c e)) := by
  unfold isDateBetweenExt
  rw [getTimet_eq z hb, getTimet_eq z he, getTimet_eq z hc]
  refine congrArg some ?_
  rw [Bool.eq_iff_iff, decide_eq_true_eq, included_eq_true, instant_lt_iff, instant_lt_iff,
    instant_lt_iff, instant_lt_iff]
  rfl

theorem textIncluded_truncated (hc : IsTime c) (hb : IsTime b) (he : IsTime e) (mode : ℤ) {n : ℕ}
    (hn : n ≤ 14) : TextIncluded mode (truncated n b) (truncated n c) (truncated n e) ↔
      TextIncluded mode (b.take n) (c.take n) (e.take n) := by
  unfold TextIncluded
  rw [textLT_truncated hb hc hn, textLT_truncated hc hb hn, textLT_truncated hc he hn,
    textLT_truncated he hc hn]

/-- `IsValidDateExt` compares the first characters. -/
theorem isValidDateExt_eq (hc : IsTime c) (hb : IsTime b) (he : IsTime e) (mode datePreMode : ℤ) :
    isValidDateExt z c b e mode datePreMode = some (decide (TextIncluded mode
      (b.take (precision datePreMode)) (c.take (precision datePreMode))
      (e.take (precision datePreMode)))) := by
  have hn := precision_cases datePreMode
  have hc' := isTime_truncated hc hn
  have hb' := isTime_truncated hb hn
  have he' := isTime_truncated he hn
  unfold isValidDateExt
  simp only [isDateBetweenExt_eq hc' hb' he',
    textIncluded_truncated hc hb he mode (show precision datePreMode ≤ 14 by omega)]

/-- With both bounds included, fewer characters include more. -/
theorem textIncluded_mono (hc : IsTime c) (hb : IsTime b) (he : IsTime e) {mode : ℤ}
    (hmode : mode ≠ incmGtLt ∧ mode ≠ incmGeLt ∧ mode ≠ incmGtLe) {j n : ℕ} (hjn : j ≤ n)
    (h : TextIncluded mode (b.take n) (c.take n) (e.take n)) :
    TextIncluded mode (b.take j) (c.take j) (e.take j) := by
  obtain ⟨hgtlt, hgelt, hgtle⟩ := hmode
  unfold TextIncluded at h ⊢
  rw [if_neg (not_or.mpr ⟨hgtlt, hgtle⟩), if_neg (not_or.mpr ⟨hgtlt, hgelt⟩)] at h ⊢
  refine ⟨fun hlt => h.1 ?_, fun hlt => h.2 ?_⟩
  · exact hlt.of_take (hc.length.trans hb.length.symm) hjn
  · exact hlt.of_take (he.length.trans hc.length.symm) hjn

end Comparison

/-- On calendar-valid times `GetTimet` is strictly monotone in the order of texts; `IsValidDateExt`
compares as many characters as its precision mode says, with the bounds its include mode says; and
with both bounds included, a date accepted at one precision is accepted at every coarser one. -/
theorem date_comparison_is_text_comparison (z : Zone) (c b e : List UInt8) (hc : IsTime c)
    (hb : IsTime b) (he : IsTime e) :
    (∃ x y, getTimet z c = some x ∧ getTimet z b = some y ∧ (x < y ↔ TextLT c b)) ∧
    (∀ mode datePreMode, isValidDateExt z c b e mode datePreMode = some (decide (TextIncluded mode
      (b.take (precision datePreMode)) (c.take (precision datePreMode))
      (e.take (precision datePreMode))))) ∧
    ∀ mode fine coarse, mode ≠ incmGtLt ∧ mode ≠ incmGeLt ∧ mode ≠ incmGtLe →
      precision coarse ≤ precision fine → isValidDateExt z c b e mode fine = some true →
        isValidDateExt z c b e mode coarse = some true := by
  refine ⟨⟨_, _, getTimet_eq z hc, getTimet_eq z hb, instant_lt_iff z hc hb⟩,
    isValidDateExt_eq hc hb he, ?_⟩
  intro mode fine coarse hmode hle hfine
  rw [isValidDateExt_eq hc hb he, Option.some.injEq, decide_eq_true_eq] at hfine ⊢
  exact textIncluded_mono hc hb he hmode hle hfine

theorem date_comparison_is_text_comparison_leap :
    isValidDateExt (.fixed 28800) (text "20240229120000") (text "20240229130000")
      (text "20240301000000") incmGeLe dpmDay = some true ∧
    isValidDateExt (.fixed 28800) (text "20240229120000") (text "20240229130000")
      (text "20240301000000") incmGeLe dpmHour = some false := by
  obtain ⟨-, hvalid, -⟩ := date_comparison_is_text_comparison (.fixed 28800) (text "20240229120000")
    (text "20240229130000") (text "20240301000000") (by decide +kernel) (by decide +kernel)
    (by decide +kernel)
  rw [hvalid, hvalid]
  decide +kernel

end Tdm.Time
