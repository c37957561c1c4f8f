import Mathlib.Data.Int.Notation
import Mathlib.Data.List.Basic
import Mathlib.Data.List.TakeWhile
import Mathlib.Algebra.Order.Ring.Nat
import Mathlib.Tactic.Linarith
import Mathlib.Tactic.Ring

/-!
# Numbers in C strings

`atoll` and `atoi` as the GNU C library computes them: blanks are skipped, a sign may
follow, the value is that of the longest run of digits that comes next, and it is clamped
to 64 bits. `atoi` then keeps the low 32 bits. A string is the list of its bytes without
the terminator; bytes behind an inner `NUL` are not reached, since `NUL` is no digit.

The results are about numerals: a run of digits is determined by its length and its value,
and a run that does not begin with `0` has its length determined by the value.
-/

namespace Tdm.Lib

/-- `isspace` in the C locale. -/
def isSpace (c : UInt8) : Bool := c == 32 || (9 ≤ c && c ≤ 13)

/-- `isdigit`. -/
def isDigit (c : UInt8) : Bool := 48 ≤ c && c ≤ 57

/-- `isxdigit`. -/
def isXDigit (c : UInt8) : Bool := isDigit c || (65 ≤ c && c ≤ 70) || (97 ≤ c && c ≤ 102)

/-- `toupper` in the C locale. -/
def toUpper (c : UInt8) : UInt8 := if 97 ≤ c && c ≤ 122 then c - 32 else c

def digitVal (c : UInt8) : ℕ := c.toNat - 48

/-- The number a run of digits stands for, read behind the number `n`. -/
def numeral (n : ℕ) (ds : List UInt8) : ℕ := ds.foldl (fun n c => 10 * n + digitVal c) n

/-- The value of the digits at the start of a string. -/
def digitsValue (s : List UInt8) : ℕ := numeral 0 (s.takeWhile isDigit)

/-- `strtoll(s, NULL, 10)`. -/
def strtoll (s : List UInt8) : ℤ :=
  let t := s.dropWhile isSpace
  if t.head? = some 45 then max (-2 ^ 63) (-(digitsValue t.tail))
  else if t.head? = some 43 then min (2 ^ 63 - 1) (digitsValue t.tail)
  else min (2 ^ 63 - 1) (digitsValue t)

def atoll (s : List UInt8) : ℤ := strtoll s

/-- The value `v` converted to `int`. -/
def toInt32 (v : ℤ) : ℤ := (v + 2 ^ 31) % 2 ^ 32 - 2 ^ 31

def atoi (s : List UInt8) : ℤ := toInt32 (strtoll s)

/-! ## Numbers written out -/

/-- The digits of `n`, at most `fuel` of them. -/
def decimalDigits : ℕ → ℕ → List UInt8
  | 0, _ => []
  | fuel + 1, n =>
    if n < 10 then [UInt8.ofNat (48 + n)]
    else decimalDigits fuel (n / 10) ++ [UInt8.ofNat (48 + n % 10)]

/-- `sprintf("%llu")`. Every digit uses up a part of the number. -/
def decimal (n : ℕ) : List UInt8 := decimalDigits (n + 1) n

/-- `sprintf("%09d")`. -/
def decimalPadded (width : ℕ) (v : ℤ) : List UInt8 :=
  let sign := if v < 0 then [45] else []
  let digits := decimal v.natAbs
  sign ++ List.replicate (width - sign.length - digits.length) 48 ++ digits

/-- `sprintf("%d")`. -/
def decimalInt (v : ℤ) : List UInt8 := decimalPadded 0 v

/-! ## Characters -/

theorem isDigit_iff {c : UInt8} : isDigit c = true ↔ 48 ≤ c.toNat ∧ c.toNat ≤ 57 := by
  simp only [isDigit, Bool.and_eq_true, decide_eq_true_eq, UInt8.le_iff_toNat_le]
  rfl

theorem isSpace_of_isDigit {c : UInt8} (h : isDigit c = true) : isSpace c = false := by
  rw [isDigit_iff] at h
  rw [Bool.eq_false_iff]
  intro hs
  simp only [isSpace, Bool.or_eq_true, beq_iff_eq, Bool.and_eq_true, decide_eq_true_eq,
    UInt8.le_iff_toNat_le] at hs
  rcases hs with rfl | ⟨-, hs⟩
  · exact absurd h.1 (by decide)
  · have : (13 : UInt8).toNat = 13 := rfl
    omega

theorem ne_sign_of_isDigit {c : UInt8} (h : isDigit c = true) : c ≠ 45 ∧ c ≠ 43 := by
  constructor <;> (rintro rfl; exact absurd h (by decide))

/-! ## Runs of digits -/

theorem numeral_eq (n : ℕ) (ds : List UInt8) :
    numeral n ds = n * 10 ^ ds.length + numeral 0 ds := by
  induction ds generalizing n with
  | nil => simp [numeral]
  | cons d ds ih =>
    show numeral (10 * n + digitVal d) ds = _ + numeral (10 * 0 + digitVal d) ds
    rw [ih, ih (10 * 0 + digitVal d), List.length_cons, pow_succ]
    ring

theorem digitVal_lt {c : UInt8} (h : isDigit c) : digitVal c < 10 := by
  have := isDigit_iff.mp h
  show c.toNat - 48 < 10
  omega

theorem digitVal_injective {c d : UInt8} (hc : isDigit c) (hd : isDigit d)
    (h : digitVal c = digitVal d) : c = d := by
  have hc48 := (isDigit_iff.mp hc).1
  have hd48 := (isDigit_iff.mp hd).1
  apply UInt8.toNat_inj.mp
  unfold digitVal at h
  omega

theorem numeral_lt {ds : List UInt8} (h : ∀ c ∈ ds, isDigit c) :
    numeral 0 ds < 10 ^ ds.length := by
  induction ds with
  | nil => simp [numeral]
  | cons d ds ih =>
    have hd := digitVal_lt (h d (List.mem_cons_self ..))
    have htail := ih fun c hc => h c (List.mem_cons_of_mem _ hc)
    show numeral (10 * 0 + digitVal d) ds < _
    rw [numeral_eq, List.length_cons, pow_succ]
    nlinarith

/-- Runs of one length with one value are equal. -/
theorem numeral_injective {ds es : List UInt8} (hlen : ds.length = es.length)
    (hd : ∀ c ∈ ds, isDigit c) (he : ∀ c ∈ es, isDigit c)
    (h : numeral 0 ds = numeral 0 es) : ds = es := by
  induction ds generalizing es with
  | nil => exact (List.length_eq_zero_iff.mp hlen.symm).symm
  | cons d ds ih =>
    cases es with
    | nil => simp at hlen
    | cons e es =>
      have hlen' : ds.length = es.length := by simpa using hlen
      have hd' : ∀ c ∈ ds, isDigit c := fun c hc => hd c (List.mem_cons_of_mem _ hc)
      have he' : ∀ c ∈ es, isDigit c := fun c hc => he c (List.mem_cons_of_mem _ hc)
      have hdlt := numeral_lt hd'
      have helt := numeral_lt he'
      change numeral (10 * 0 + digitVal d) ds = numeral (10 * 0 + digitVal e) es at h
      rw [numeral_eq, numeral_eq (10 * 0 + digitVal e), hlen'] at h
      rw [hlen'] at hdlt
      -- the leading digits are the quotients by the weight of the first place
      have hval : digitVal d = digitVal e := by
        rcases Nat.lt_trichotomy (digitVal d) (digitVal e) with hlt | heq | hgt
        · nlinarith
        · exact heq
        · nlinarith
      have hhead := digitVal_injective (hd d (List.mem_cons_self ..))
        (he e (List.mem_cons_self ..)) hval
      rw [hval] at h
      rw [hhead, ih hlen' hd' he' (by omega)]

/-- A run that does not begin with `0` is at least the weight of its first place. -/
theorem le_numeral {d : UInt8} {ds : List UInt8} (hd : isDigit d) (hd0 : d ≠ 48) :
    10 ^ ds.length ≤ numeral 0 (d :: ds) := by
  have hpos : 1 ≤ digitVal d := by
    have hne : d.toNat ≠ 48 := fun h => hd0 (UInt8.toNat_inj.mp h)
    have := (isDigit_iff.mp hd).1
    unfold digitVal
    omega
  show _ ≤ numeral (10 * 0 + digitVal d) ds
  calc 10 ^ ds.length = 1 * 10 ^ ds.length := (Nat.one_mul _).symm
    _ ≤ (10 * 0 + digitVal d) * 10 ^ ds.length := Nat.mul_le_mul_right _ (by omega)
    _ ≤ numeral (10 * 0 + digitVal d) ds := by rw [numeral_eq]; omega

/-! ## Reading digits back -/

theorem numeral_append (n : ℕ) (ds es : List UInt8) :
    numeral n (ds ++ es) = numeral (numeral n ds) es := List.foldl_append ..

theorem digitsValue_eq {ds : List UInt8} (h : ∀ c ∈ ds, isDigit c = true) :
    digitsValue ds = numeral 0 ds := by
  rw [digitsValue, List.takeWhile_eq_self_iff.mpr h]

/-- The digits of a number stand for it. -/
theorem decimalDigits_spec (fuel : ℕ) {n : ℕ} (h : n < fuel) :
    decimalDigits fuel n ≠ [] ∧ (∀ c ∈ decimalDigits fuel n, isDigit c = true) ∧
      numeral 0 (decimalDigits fuel n) = n := by
  have hdigit : ∀ m, m < 10 → isDigit (UInt8.ofNat (48 + m)) = true ∧
      digitVal (UInt8.ofNat (48 + m)) = m := by decide
  induction fuel generalizing n with
  | zero => omega
  | succ fuel ih =>
    unfold decimalDigits
    split
    · rename_i hlt
      obtain ⟨hd, hv⟩ := hdigit n hlt
      refine ⟨List.cons_ne_nil _ _, ?_, ?_⟩
      · intro c hc
        rw [List.mem_singleton.mp hc]
        exact hd
      · show 10 * 0 + digitVal _ = n
        omega
    · obtain ⟨-, hall, hnum⟩ := ih (n := n / 10) (by omega)
      obtain ⟨hd, hv⟩ := hdigit (n % 10) (by omega)
      refine ⟨by simp, ?_, ?_⟩
      · intro c hc
        rcases List.mem_append.mp hc with hc | hc
        · exact hall c hc
        · rw [List.mem_singleton.mp hc]
          exact hd
      · rw [numeral_append, hnum]
        show 10 * (n / 10) + digitVal _ = n
        omega

theorem length_decimalDigits_le (fuel : ℕ) {n k : ℕ} (h : n < 10 ^ (k + 1)) :
    (decimalDigits fuel n).length ≤ k + 1 := by
  induction fuel generalizing n k with
  | zero => exact Nat.zero_le _
  | succ fuel ih =>
    unfold decimalDigits
    split
    · exact Nat.succ_le_succ (Nat.zero_le _)
    · cases k with
      | zero => omega
      | succ k =>
        have hdiv : n / 10 < 10 ^ (k + 1) := by
          rw [Nat.div_lt_iff_lt_mul (by decide), ← Nat.pow_succ]
          exact h
        have hlen := ih hdiv
        rw [List.length_append]
        exact Nat.succ_le_succ hlen

theorem decimal_ne_nil (n : ℕ) : decimal n ≠ [] := (decimalDigits_spec _ (Nat.lt_succ_self n)).1

theorem isDigit_of_mem_decimal {n : ℕ} {c : UInt8} (h : c ∈ decimal n) : isDigit c = true :=
  (decimalDigits_spec _ (Nat.lt_succ_self n)).2.1 c h

theorem numeral_decimal (n : ℕ) : numeral 0 (decimal n) = n :=
  (decimalDigits_spec _ (Nat.lt_succ_self n)).2.2

theorem length_decimal_le_iff (n k : ℕ) : (decimal n).length ≤ k + 1 ↔ n < 10 ^ (k + 1) := by
  constructor
  · intro h
    have hlt : numeral 0 (decimal n) < 10 ^ (decimal n).length :=
      numeral_lt fun c hc => isDigit_of_mem_decimal hc
    rw [numeral_decimal] at hlt
    exact hlt.trans_le (Nat.pow_le_pow_right (by decide) h)
  · intro h
    exact length_decimalDigits_le _ h

/-- Padding fills up to the width, the sign included. -/
theorem length_decimalPadded (width : ℕ) (v : ℤ) : (decimalPadded width v).length =
    max width ((if v < 0 then 1 else 0) + (decimal v.natAbs).length) := by
  unfold decimalPadded
  simp only [List.length_append, List.length_replicate]
  split
  · rw [List.length_singleton]
    omega
  · rw [List.length_nil]
    omega

theorem numeral_zeros (k : ℕ) (ds : List UInt8) :
    numeral 0 (List.replicate k 48 ++ ds) = numeral 0 ds := by
  induction k with
  | zero => rfl
  | succ k ih => exact ih

theorem decimalPadded_natCast (width n : ℕ) : decimalPadded width n =
    List.replicate (width - (decimal n).length) 48 ++ decimal n := by
  unfold decimalPadded
  simp only [Int.natAbs_natCast]
  rw [if_neg (by omega), List.length_nil, Nat.sub_zero, List.nil_append]

theorem isDigit_of_mem_decimalPadded {width n : ℕ} {c : UInt8} (h : c ∈ decimalPadded width n) :
    isDigit c = true := by
  rw [decimalPadded_natCast, List.mem_append] at h
  rcases h with hzero | hdigit
  · rw [List.eq_of_mem_replicate hzero]
    decide
  · exact isDigit_of_mem_decimal hdigit

theorem numeral_decimalPadded (width n : ℕ) : numeral 0 (decimalPadded width n) = n := by
  rw [decimalPadded_natCast, numeral_zeros, numeral_decimal]

/-- A number with few digits fills the width exactly. -/
theorem length_decimalPadded_of_lt {width n : ℕ} (hpos : 0 < width) (h : n < 10 ^ width) :
    (decimalPadded width n).length = width := by
  obtain ⟨k, rfl⟩ := Nat.exists_eq_succ_of_ne_zero hpos.ne'
  have hlen := (length_decimal_le_iff n k).mpr h
  rw [length_decimalPadded, Int.natAbs_natCast, if_neg (by omega)]
  omega

/-- Different numbers are printed differently. -/
theorem decimalPadded_injective (width : ℕ) : Function.Injective (decimalPadded width) := by
  have hnonneg (n : ℕ) : 45 ∉ decimalPadded width n := fun h =>
    absurd (isDigit_of_mem_decimalPadded h) (by decide)
  have hneg (v : ℤ) (h : v < 0) : ∃ k, decimalPadded width v =
      45 :: (List.replicate k 48 ++ decimal v.natAbs) :=
    ⟨_, by simp only [decimalPadded, if_pos h]; rfl⟩
  intro v w h
  by_cases hv : v < 0
  · obtain ⟨k, hk⟩ := hneg v hv
    by_cases hw : w < 0
    · obtain ⟨l, hl⟩ := hneg w hw
      have htail := (List.cons.inj ((hk.symm.trans h).trans hl)).2
      have hnum := congrArg (numeral 0) htail
      rw [numeral_zeros, numeral_zeros, numeral_decimal, numeral_decimal] at hnum
      omega
    · -- only a negative number has a sign
      obtain ⟨n, rfl⟩ := Int.eq_ofNat_of_zero_le (Int.not_lt.mp hw)
      exact absurd (h ▸ hk ▸ List.mem_cons_self ..) (hnonneg n)
  · obtain ⟨m, rfl⟩ := Int.eq_ofNat_of_zero_le (Int.not_lt.mp hv)
    by_cases hw : w < 0
    · obtain ⟨l, hl⟩ := hneg w hw
      exact absurd (h.symm ▸ hl ▸ List.mem_cons_self ..) (hnonneg m)
    · obtain ⟨n, rfl⟩ := Int.eq_ofNat_of_zero_le (Int.not_lt.mp hw)
      have hnum := congrArg (numeral 0) h
      rw [numeral_decimalPadded, numeral_decimalPadded] at hnum
      rw [hnum]

/-- `strtoll` on a run of digits. -/
theorem strtoll_digits {ds : List UInt8} (hne : ds ≠ []) (h : ∀ c ∈ ds, isDigit c = true) :
    strtoll ds = min (2 ^ 63 - 1) (numeral 0 ds : ℤ) := by
  obtain ⟨d, ds, rfl⟩ := List.exists_cons_of_ne_nil hne
  have hd := h d (List.mem_cons_self ..)
  obtain ⟨hminus, hplus⟩ := ne_sign_of_isDigit hd
  have hdrop : (d :: ds).dropWhile isSpace = d :: ds := by
    rw [List.dropWhile_cons_of_neg]
    rw [isSpace_of_isDigit hd]
    exact Bool.false_ne_true
  unfold strtoll
  simp only [hdrop, List.head?_cons, Option.some.injEq, hminus, hplus, if_false]
  rw [digitsValue_eq h]

/-- `strtoll` on a minus sign and a run of digits. -/
theorem strtoll_neg {ds : List UInt8} (h : ∀ c ∈ ds, isDigit c = true) :
    strtoll (45 :: ds) = max (-2 ^ 63) (-(numeral 0 ds : ℤ)) := by
  have hdrop : (45 :: ds).dropWhile isSpace = 45 :: ds :=
    List.dropWhile_cons_of_neg (by decide)
  unfold strtoll
  simp only [hdrop, List.head?_cons, if_true, List.tail_cons]
  rw [digitsValue_eq h]

/-- Two numbers that are close are equal if they are after the conversion to `int`. -/
theorem toInt32_eq_iff {v w : ℤ} (hlo : -2 ^ 32 < v - w) (hhi : v - w < 2 ^ 32) :
    toInt32 v = w ↔ v = w ∧ -2 ^ 31 ≤ w ∧ w < 2 ^ 31 := by
  unfold toInt32
  omega

theorem toInt32_of_range {v : ℤ} (hlo : -2 ^ 31 ≤ v) (hhi : v < 2 ^ 31) : toInt32 v = v := by
  unfold toInt32
  omega

/-- `atoi` on digits that stand for a small number. -/
theorem atoi_digits {ds : List UInt8} (hne : ds ≠ []) (h : ∀ c ∈ ds, isDigit c = true)
    (hlt : numeral 0 ds < 2 ^ 31) : atoi ds = numeral 0 ds := by
  unfold atoi
  rw [strtoll_digits hne h, min_eq_right (by omega), toInt32_of_range (by omega) (by omega)]

theorem decimalInt_eq (v : ℤ) :
    decimalInt v = if v < 0 then 45 :: decimal v.natAbs else decimal v.natAbs := by
  unfold decimalInt decimalPadded
  split <;> simp

/-- Only digits and a minus are printed. -/
theorem notMem_decimalInt {c : UInt8} (hdigit : isDigit c = false) (hsign : c ≠ 45) (v : ℤ) :
    c ∉ decimalInt v := by
  have hdecimal : c ∉ decimal v.natAbs := by
    intro hc
    rw [isDigit_of_mem_decimal hc] at hdigit
    cases hdigit
  rw [decimalInt_eq]
  split
  · rw [List.mem_cons]
    rintro (h | h)
    · exact hsign h
    · exact hdecimal h
  · exact hdecimal

theorem decimalInt_ne_nil (v : ℤ) : decimalInt v ≠ [] := by
  rw [decimalInt_eq]
  split
  · exact List.cons_ne_nil _ _
  · exact decimal_ne_nil _

theorem zero_notMem_decimalInt (v : ℤ) : 0 ∉ decimalInt v :=
  notMem_decimalInt (by decide) (by decide) v

/-- What is printed is the number behind its sign and some zeros. -/
theorem decimalPadded_eq (width : ℕ) (v : ℤ) : ∃ k, decimalPadded width v =
    if v < 0 then 45 :: (List.replicate k 48 ++ decimal v.natAbs)
    else List.replicate k 48 ++ decimal v.natAbs := by
  unfold decimalPadded
  split
  · exact ⟨_, rfl⟩
  · exact ⟨_, rfl⟩

/-- `atoi` undoes padding. -/
theorem atoi_decimalPadded (width : ℕ) {v : ℤ} (hlo : -2 ^ 31 ≤ v) (hhi : v < 2 ^ 31) :
    atoi (decimalPadded width v) = v := by
  obtain ⟨k, hk⟩ := decimalPadded_eq width v
  have hdigits : ∀ c ∈ List.replicate k 48 ++ decimal v.natAbs, isDigit c = true := by
    intro c hc
    rcases List.mem_append.mp hc with hzero | hdigit
    · rw [List.eq_of_mem_replicate hzero]
      decide
    · exact isDigit_of_mem_decimal hdigit
  rw [hk]
  split
  · unfold atoi
    rw [strtoll_neg hdigits, numeral_zeros, numeral_decimal, max_eq_right (by omega),
      toInt32_of_range (by omega) (by omega)]
    omega
  · rw [atoi_digits (by simp [decimal_ne_nil]) hdigits]
    · rw [numeral_zeros, numeral_decimal]
      omega
    · rw [numeral_zeros, numeral_decimal]
      omega

/-- `atoi` undoes `%d`. -/
theorem atoi_decimalInt {v : ℤ} (hlo : -2 ^ 31 ≤ v) (hhi : v < 2 ^ 31) :
    atoi (decimalInt v) = v := atoi_decimalPadded 0 hlo hhi

theorem zero_notMem_decimalPadded (width : ℕ) (v : ℤ) : 0 ∉ decimalPadded width v := by
  obtain ⟨k, hk⟩ := decimalPadded_eq width v
  have hdigits : 0 ∉ List.replicate k 48 ++ decimal v.natAbs := by
    intro hc
    rcases List.mem_append.mp hc with hzero | hdigit
    · exact absurd (List.eq_of_mem_replicate hzero) (by decide)
    · exact absurd (isDigit_of_mem_decimal hdigit) (by decide)
  rw [hk]
  split
  · rw [List.mem_cons, not_or]
    exact ⟨by decide, hdigits⟩
  · exact hdigits

end Tdm.Lib
