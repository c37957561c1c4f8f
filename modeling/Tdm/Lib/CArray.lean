import Mathlib.Data.List.Basic
import Mathlib.Data.List.TakeWhile

/-!
# Byte arrays of fixed size

`CArray n` is a C array of `n` bytes. The operations are the memory functions of the C
library restricted to what they do inside one array. A copy that would run over the end
of its destination and a string read that finds no terminator inside the array have no
defined behaviour in C; here they have no result (`none`), so that whoever uses the
result has shown that they do not happen.
-/

namespace Tdm.Lib

/-- The bytes of a string literal, without the terminator. -/
def text (s : String) : List UInt8 := s.toUTF8.data.toList

/-- A statement about all bytes is one about 256 numbers. -/
theorem forall_byte {P : UInt8 → Prop} (h : ∀ n, n < 256 → P (UInt8.ofNat n)) (c : UInt8) : P c := by
  have hc := h c.toNat c.toNat_lt
  rwa [UInt8.ofNat_toNat] at hc

/-- An array of exactly `n` bytes. -/
structure CArray (n : ℕ) where
  bytes : List UInt8
  size : bytes.length = n
deriving DecidableEq

namespace CArray

variable {n : ℕ}

@[ext] theorem ext {a b : CArray n} (h : a.bytes = b.bytes) : a = b := by
  cases a; cases b; simp_all

/-- `memset(a, 0, n)`. -/
def zero (n : ℕ) : CArray n := ⟨List.replicate n 0, List.length_replicate⟩

/-- `memcpy(a, src, |src|)` for a source that fits. -/
def overlay (a : CArray n) (src : List UInt8) (h : src.length ≤ n) : CArray n :=
  ⟨src ++ a.bytes.drop src.length, by rw [List.length_append, List.length_drop, a.size]; omega⟩

/-- `memcpy(a, src, |src|)`. -/
def memcpy (a : CArray n) (src : List UInt8) : Option (CArray n) :=
  if h : src.length ≤ n then some (a.overlay src h) else none

/-- The C string stored in the array: the bytes before the first `NUL`. -/
def cstr (a : CArray n) : Option (List UInt8) :=
  if 0 ∈ a.bytes then some (a.bytes.takeWhile (· ≠ 0)) else none

/-- Byte `i` of the array. -/
def get (a : CArray n) (i : ℕ) : UInt8 := a.bytes.getD i 0

@[simp] theorem bytes_overlay (a : CArray n) (src : List UInt8) (h : src.length ≤ n) :
    (a.overlay src h).bytes = src ++ a.bytes.drop src.length := rfl

theorem getElem?_overlay (a : CArray n) {src : List UInt8} (h : src.length ≤ n) (i : ℕ) :
    (a.overlay src h).bytes[i]? = if i < src.length then src[i]? else a.bytes[i]? := by
  rw [bytes_overlay]
  split
  · rename_i hi
    exact List.getElem?_append_left hi
  · rename_i hi
    rw [List.getElem?_append_right (Nat.le_of_not_lt hi), List.getElem?_drop]
    congr 1
    omega

/-- An array with a zero byte holds a string. -/
theorem exists_cstr {a : CArray n} {i : ℕ} (h : a.bytes[i]? = some 0) : ∃ s, a.cstr = some s :=
  ⟨_, if_pos (List.mem_of_getElem? h)⟩

theorem memcpy_of_le (a : CArray n) {src : List UInt8} (h : src.length ≤ n) :
    a.memcpy src = some (a.overlay src h) := dif_pos h

theorem memcpy_eq_some {a b : CArray n} {src : List UInt8} :
    a.memcpy src = some b ↔ ∃ h : src.length ≤ n, b = a.overlay src h := by
  unfold memcpy
  split
  · rename_i h
    exact ⟨fun he => ⟨h, (Option.some.inj he).symm⟩, fun ⟨_, he⟩ => by rw [he]⟩
  · rename_i h
    exact ⟨fun he => absurd he (by simp), fun ⟨h', _⟩ => absurd h' h⟩

theorem zero_notMem_of_cstr {a : CArray n} {s : List UInt8} (h : a.cstr = some s) : 0 ∉ s := by
  unfold cstr at h
  split at h
  · cases h
    intro hzero
    exact absurd (List.mem_takeWhile_imp hzero) (by simp)
  · cases h

theorem length_lt_of_cstr {a : CArray n} {s : List UInt8} (h : a.cstr = some s) : s.length < n := by
  unfold cstr at h
  split at h
  · rename_i hzero
    cases h
    have hle := (List.takeWhile_prefix (l := a.bytes) (· ≠ 0)).length_le
    -- a string as long as the array would leave no room for its end
    refine lt_of_le_of_ne (hle.trans_eq a.size) fun hfull => ?_
    have hall := (List.takeWhile_prefix (l := a.bytes) (· ≠ 0)).eq_of_length (hfull.trans a.size.symm)
    have hne := List.takeWhile_eq_self_iff.mp hall 0 hzero
    simp at hne
  · cases h

theorem isSome_memcpy (a : CArray n) (src : List UInt8) :
    (a.memcpy src).isSome = true ↔ src.length ≤ n := by
  unfold memcpy
  split
  · rename_i h
    simp [h]
  · rename_i h
    simp [h]

/-- A text without `NUL` is a string as it stands. -/
theorem takeWhile_of_notMem {src : List UInt8} (h : 0 ∉ src) : src.takeWhile (· ≠ 0) = src := by
  rw [List.takeWhile_eq_self_iff]
  intro c hc
  rw [decide_eq_true_eq]
  rintro rfl
  exact h hc

theorem takeWhile_append_zeros (src : List UInt8) (k : ℕ) :
    (src ++ List.replicate k 0).takeWhile (· ≠ 0) = src.takeWhile (· ≠ 0) := by
  induction src with
  | nil =>
    cases k with
    | zero => rfl
    | succ k => simp [List.replicate_succ]
  | cons c src ih =>
    rw [List.cons_append, List.takeWhile_cons, List.takeWhile_cons, ih]

/-- A text stored over zeros is the string there, unless it leaves no zero behind it. -/
theorem cstr_zero_overlay {src : List UInt8} (h : src.length ≤ n) :
    ((zero n).overlay src h).cstr =
      if src.length < n ∨ 0 ∈ src then some (src.takeWhile (· ≠ 0)) else none := by
  have hbytes : ((zero n).overlay src h).bytes = src ++ List.replicate (n - src.length) 0 := by
    simp [zero]
  unfold cstr
  rw [hbytes]
  have hmem : 0 ∈ src ++ List.replicate (n - src.length) (0 : UInt8) ↔
      src.length < n ∨ 0 ∈ src := by
    rw [List.mem_append, List.mem_replicate]
    constructor
    · rintro (hs | ⟨hn, -⟩)
      · exact .inr hs
      · exact .inl (by omega)
    · rintro (hn | hs)
      · exact .inr ⟨by omega, rfl⟩
      · exact .inl hs
  by_cases hz : src.length < n ∨ 0 ∈ src
  · rw [if_pos (hmem.mpr hz), if_pos hz, takeWhile_append_zeros]
  · rw [if_neg (mt hmem.mp hz), if_neg hz]

theorem cstr_zero (n : ℕ) (h : 0 < n) : (zero n).cstr = some [] := by
  have hempty : ((zero n).overlay [] (Nat.zero_le n)).cstr = _ := cstr_zero_overlay _
  rw [if_pos (.inl h)] at hempty
  exact hempty

/-- A string that fits with its terminator is read back. -/
theorem cstr_overlay_terminated {n : ℕ} {s : List UInt8} (hs : 0 ∉ s) (h : (s ++ [0]).length ≤ n) :
    ((zero n).overlay (s ++ [0]) h).cstr = some s := by
  rw [cstr_zero_overlay, if_pos (.inr (by simp)), List.takeWhile_append_of_pos]
  · simp
  · intro c hc
    rw [decide_eq_true_eq]
    rintro rfl
    exact hs hc

end CArray
end Tdm.Lib
