import Tdm.Device.Recv

/-!
# The serial number in a trailer

The trailer of a transparent message holds the last nine digits of a serial number as a number of
32 bits. `Coding_With_TT_Data` puts the digits of the maker in front again. Ten digits make a text
that is too long, a set sign bit one with a minus inside; `Is_Valid_SN` accepts neither.
-/

namespace Tdm.Device

open Tdm.Lib Tdm.Common

/-- The last nine digits of the serial numbers in use. -/
def SuffixInUse (n : ℕ) : Prop :=
  8100000 < n ∧ n < 9000000 ∨ 210000000 < n ∧ n < 211000000

instance (n : ℕ) : Decidable (SuffixInUse n) := inferInstanceAs (Decidable (_ ∨ _))

theorem trailerSN_of_lt {n : ℕ} (h : n < 210000000) :
    trailerSN n = text "860172" ++ decimalPadded 9 n := if_pos h

theorem trailerSN_of_le {n : ℕ} (h : 210000000 ≤ n) (hsign : n < 2 ^ 31) :
    trailerSN n = text "172150" ++ decimalPadded 9 n := by
  rw [trailerSN, if_neg (Nat.not_lt.mpr h), toSigned, if_pos (by omega)]

theorem isDigit_of_mem_maker {maker : List UInt8} (h : maker = text "860172" ∨ maker = text "172150")
    {n : ℕ} {c : UInt8} (hc : c ∈ maker ++ decimalPadded 9 n) : isDigit c = true := by
  rcases List.mem_append.mp hc with hmaker | hnumber
  · have hall : ∀ c ∈ maker, isDigit c = true := by
      rcases h with rfl | rfl
      · decide +kernel
      · decide +kernel
    exact hall c hmaker
  · exact isDigit_of_mem_decimalPadded hnumber

/-- The number behind the maker's digits weighs as many places as it is printed with. -/
theorem numeral_maker (maker : List UInt8) (n : ℕ) : numeral 0 (maker ++ decimalPadded 9 n) =
    numeral 0 maker * 10 ^ (decimalPadded 9 n).length + n := by
  rw [numeral_append, numeral_eq, numeral_decimalPadded]

theorem length_places {n : ℕ} (h : n < 2 ^ 32) :
    (decimalPadded 9 n).length = if n < 10 ^ 9 then 9 else 10 := by
  have hnine := length_decimal_le_iff n 8
  have hten := length_decimal_le_iff n 9
  rw [length_decimalPadded, Int.natAbs_natCast, if_neg (by omega)]
  split <;> omega

/-- `Is_Valid_SN` on digits. -/
theorem isValidSN_digits {s : List UInt8} (hne : s ≠ []) (h : ∀ c ∈ s, isDigit c = true) :
    isValidSN s = true ↔ 172150210000000 < numeral 0 s ∧ numeral 0 s < 172150211000000 ∨
      860172008100000 < numeral 0 s ∧ numeral 0 s < 860172009000000 := by
  simp only [isValidSN, atoll, strtoll_digits hne h, Bool.or_eq_true, Bool.and_eq_true,
    decide_eq_true_eq]
  omega

theorem maker_ne_nil {maker : List UInt8} (h : maker = text "860172" ∨ maker = text "172150")
    (n : ℕ) : maker ++ decimalPadded 9 n ≠ [] := by
  rcases h with rfl | rfl
  · exact List.append_ne_nil_of_left_ne_nil (by decide) _
  · exact List.append_ne_nil_of_left_ne_nil (by decide) _

/-- A number with the sign bit is printed with a minus, where `atoll` stops. -/
theorem isValidSN_of_sign {n : ℕ} (hsign : 2 ^ 31 ≤ n) (h : n < 2 ^ 32) :
    isValidSN (trailerSN n) = false := by
  have hneg : toSigned 32 n < 0 := by
    rw [toSigned, if_neg (by omega)]
    omega
  obtain ⟨rest, hrest⟩ : ∃ rest, decimalPadded 9 (toSigned 32 n) = 45 :: rest :=
    ⟨_, by simp only [decimalPadded, if_pos hneg]; rfl⟩
  rw [trailerSN, if_neg (by omega), hrest]
  rfl

theorem isValidSN_trailerSN {n : ℕ} (h : n < 2 ^ 32) :
    isValidSN (trailerSN n) = true ↔ SuffixInUse n := by
  have h860 : numeral 0 (text "860172") = 860172 := by decide
  have h172 : numeral 0 (text "172150") = 172150 := by decide
  have hplaces := length_places h
  unfold SuffixInUse
  rcases Nat.lt_or_ge n 210000000 with hlt | hge
  · rw [trailerSN_of_lt hlt, isValidSN_digits (maker_ne_nil (.inl rfl) n)
      fun c hc => isDigit_of_mem_maker (.inl rfl) hc, numeral_maker, h860, hplaces,
      if_pos (by omega)]
    omega
  · rcases Nat.lt_or_ge n (2 ^ 31) with hpos | hsign
    · rw [trailerSN_of_le hge hpos, isValidSN_digits (maker_ne_nil (.inr rfl) n)
        fun c hc => isDigit_of_mem_maker (.inr rfl) hc, numeral_maker, h172, hplaces]
      split <;> omega
    · rw [isValidSN_of_sign hsign h]
      simp only [Bool.false_eq_true, false_iff]
      omega

theorem trailerSN_injective {m n : ℕ} (hm : m < 2 ^ 32) (hn : n < 2 ^ 32)
    (h : trailerSN m = trailerSN n) : m = n := by
  have hmakers (v w : ℤ) : text "860172" ++ decimalPadded 9 v ≠ text "172150" ++ decimalPadded 9 w :=
    fun heq => absurd (List.append_inj_left heq (by decide)) (by decide)
  have hsame {maker : List UInt8} {v w : ℤ}
      (heq : maker ++ decimalPadded 9 v = maker ++ decimalPadded 9 w) : v = w :=
    decimalPadded_injective 9 (List.append_cancel_left heq)
  unfold trailerSN at h
  split at h
  · split at h
    · exact Int.ofNat.inj (hsame h)
    · exact absurd h (hmakers _ _)
  · split at h
    · exact absurd h.symm (hmakers _ _)
    · have hsigned := hsame h
      unfold toSigned at hsigned
      split at hsigned <;> split at hsigned <;> omega

/-- The text made for a serial number in use is the serial number. -/
theorem trailerSN_numeral {n : ℕ} (h : SuffixInUse n) : (trailerSN n).length = 15 ∧
    (∀ c ∈ trailerSN n, isDigit c = true) ∧
    numeral 0 (trailerSN n) = (if n < 210000000 then 860172 else 172150) * 10 ^ 9 + n := by
  have hmakers : (text "860172").length = 6 ∧ (text "172150").length = 6 := by decide
  have h860 : numeral 0 (text "860172") = 860172 := by decide
  have h172 : numeral 0 (text "172150") = 172150 := by decide
  have hlen : (decimalPadded 9 n).length = 9 :=
    length_decimalPadded_of_lt (by decide) (by unfold SuffixInUse at h; omega)
  rcases Nat.lt_or_ge n 210000000 with hlt | hge
  · rw [trailerSN_of_lt hlt, if_pos hlt, numeral_maker, h860, List.length_append, hlen, hmakers.1]
    exact ⟨rfl, fun c hc => isDigit_of_mem_maker (.inl rfl) hc, rfl⟩
  · have hpos : n < 2 ^ 31 := by
      unfold SuffixInUse at h
      omega
    rw [trailerSN_of_le hge hpos, if_neg (Nat.not_lt.mpr hge), numeral_maker, h172,
      List.length_append, hlen, hmakers.2]
    exact ⟨rfl, fun c hc => isDigit_of_mem_maker (.inr rfl) hc, rfl⟩

/-- The 32 bits of a trailer stand for exactly the serial numbers in use: the text made of them is
valid for those only, has 15 digits then, no two numbers make the same text, and the last nine
digits of a valid serial number make it again. -/
theorem trailerSN_identifies :
    (∀ n < 2 ^ 32, isValidSN (trailerSN n) = true ↔
      8100000 < n ∧ n < 9000000 ∨ 210000000 < n ∧ n < 211000000) ∧
    (∀ n < 2 ^ 32, isValidSN (trailerSN n) = true →
      (trailerSN n).length = 15 ∧ ∀ c ∈ trailerSN n, isDigit c = true) ∧
    (∀ m < 2 ^ 32, ∀ n < 2 ^ 32, trailerSN m = trailerSN n → m = n) ∧
    ∀ s : List UInt8, s.length = 15 → (∀ c ∈ s, isDigit c = true) → isValidSN s = true →
      trailerSN (numeral 0 s % 10 ^ 9) = s := by
  refine ⟨fun n hn => isValidSN_trailerSN hn, ?_, fun m hm n hn => trailerSN_injective hm hn, ?_⟩
  · intro n hn hvalid
    obtain ⟨hlen, hdigits, -⟩ := trailerSN_numeral ((isValidSN_trailerSN hn).mp hvalid)
    exact ⟨hlen, hdigits⟩
  · intro s hlen hdigits hvalid
    have hne : s ≠ [] := by
      rintro rfl
      cases hlen
    have hrange := (isValidSN_digits hne hdigits).mp hvalid
    have hsuffix : SuffixInUse (numeral 0 s % 10 ^ 9) := by
      unfold SuffixInUse
      omega
    obtain ⟨hlen', hdigits', hnum⟩ := trailerSN_numeral hsuffix
    -- both are 15 digits with one value
    apply numeral_injective (hlen'.trans hlen.symm) hdigits' hdigits
    rw [hnum]
    split <;> omega

/-- The serial number of a device and its last nine digits. -/
theorem trailerSN_identifies_one :
    trailerSN (numeral 0 (text "172150210000937") % 10 ^ 9) = text "172150210000937" ∧
      (trailerSN 210000937).length = 15 :=
  ⟨trailerSN_identifies.2.2.2 _ (by decide +kernel) (by decide +kernel) (by decide +kernel),
    (trailerSN_identifies.2.1 210000937 (by decide) (by decide +kernel)).1⟩

end Tdm.Device
