import Tdm.Lib.CArray
import Mathlib.Algebra.Order.Ring.Int
import Mathlib.Algebra.Order.Ring.Nat

/-!
# Members of a C struct

A struct is the array of its bytes, and a member is a range of them. Integers are stored
with the least significant byte first. `memcpy` to a member starts at the member but has
its own length, so it may run over the members behind it; only a copy that leaves the
struct has no defined result. The lemmas say what a member holds after a store to itself
and that a store somewhere else does not change it.
-/

namespace Tdm.Lib

/-! ## Integers as bytes -/

/-- The `k` low bytes of `v`, least significant first. -/
def leBytes : ℕ → ℕ → List UInt8
  | 0, _ => []
  | k + 1, v => UInt8.ofNat (v % 256) :: leBytes k (v / 256)

/-- The number with the given bytes, least significant first. -/
def leNat : List UInt8 → ℕ
  | [] => 0
  | b :: bs => b.toNat + 256 * leNat bs

@[simp] theorem length_leBytes (k v : ℕ) : (leBytes k v).length = k := by
  induction k generalizing v with
  | zero => rfl
  | succ k ih => simp only [leBytes, List.length_cons, ih]

theorem leBytes_zero (k : ℕ) : leBytes k 0 = List.replicate k 0 := by
  induction k with
  | zero => rfl
  | succ k ih =>
    rw [leBytes, ih, List.replicate_succ]
    rfl

theorem leNat_leBytes (k v : ℕ) : leNat (leBytes k v) = v % 256 ^ k := by
  induction k generalizing v with
  | zero => simp [leBytes, leNat, Nat.mod_one]
  | succ k ih =>
    have hbyte : (UInt8.ofNat (v % 256)).toNat = v % 256 := by
      simp
    rw [leBytes, leNat, ih, hbyte, Nat.pow_succ, Nat.mul_comm (256 ^ k) 256, Nat.mod_mul]

theorem leNat_lt (bs : List UInt8) : leNat bs < 256 ^ bs.length := by
  induction bs with
  | nil => exact Nat.one_pos
  | cons b bs ih =>
    have hb := b.toNat_lt
    rw [leNat, List.length_cons, Nat.pow_succ]
    omega

theorem leNat_append (as bs : List UInt8) :
    leNat (as ++ bs) = leNat as + 256 ^ as.length * leNat bs := by
  induction as with
  | nil => simp [leNat]
  | cons a as ih =>
    rw [List.cons_append, leNat, leNat, ih, List.length_cons, Nat.pow_succ', Nat.mul_add,
      Nat.mul_assoc, Nat.add_assoc]

/-- The value of `w` bits read as two's complement. -/
def toSigned (w v : ℕ) : ℤ := if v < 2 ^ (w - 1) then (v : ℤ) else (v : ℤ) - (2 : ℤ) ^ w

/-- Two's complement represents the values of its range. -/
theorem toSigned_emod {w : ℕ} (hw : 0 < w) {v : ℤ} (hlower : -(2 : ℤ) ^ (w - 1) ≤ v)
    (hupper : v < (2 : ℤ) ^ (w - 1)) : toSigned w (v % (2 : ℤ) ^ w).toNat = v := by
  have hdouble : (2 : ℤ) ^ w = 2 * 2 ^ (w - 1) := by
    rw [← Int.pow_succ', Nat.sub_add_cancel hw]
  have hcast : ((2 ^ (w - 1) : ℕ) : ℤ) = 2 ^ (w - 1) := by norm_cast
  have hnonneg : 0 ≤ v % (2 : ℤ) ^ w :=
    Int.emod_nonneg v (Int.ne_of_gt (Int.pow_pos (by decide)))
  unfold toSigned
  rcases Int.lt_or_le v 0 with hneg | hpos
  · -- a negative value is stored as its distance from 2 ^ w
    have hmod : v % (2 : ℤ) ^ w = v + 2 ^ w := by
      rw [← Int.add_emod_right]
      exact Int.emod_eq_of_lt (by omega) (by omega)
    rw [if_neg (by omega), Int.toNat_of_nonneg hnonneg]
    omega
  · have hmod : v % (2 : ℤ) ^ w = v := Int.emod_eq_of_lt hpos (by omega)
    rw [if_pos (by omega), Int.toNat_of_nonneg hnonneg, hmod]

/-- The range of two's complement. -/
theorem toSigned_bounds {w v : ℕ} (hw : 0 < w) (hv : v < 2 ^ w) :
    -(2 : ℤ) ^ (w - 1) ≤ toSigned w v ∧ toSigned w v < (2 : ℤ) ^ (w - 1) := by
  have hdouble : (2 : ℕ) ^ w = 2 * 2 ^ (w - 1) := by
    rw [← Nat.pow_succ', Nat.succ_eq_add_one, Nat.sub_add_cancel hw]
  have hcast : ((2 ^ (w - 1) : ℕ) : ℤ) = 2 ^ (w - 1) := by norm_cast
  have hcast' : ((2 ^ w : ℕ) : ℤ) = 2 ^ w := by norm_cast
  unfold toSigned
  split
  · omega
  · omega

/-! ## Members -/

/-- A member of a struct of `n` bytes. -/
structure Field (n : ℕ) where
  off : ℕ
  size : ℕ
  fits : off + size ≤ n

/-- No byte belongs to both members. -/
def Field.Disjoint {n : ℕ} (f g : Field n) : Prop :=
  f.off + f.size ≤ g.off ∨ g.off + g.size ≤ f.off

instance {n : ℕ} (f g : Field n) : Decidable (f.Disjoint g) :=
  inferInstanceAs (Decidable (_ ∨ _))

namespace CArray

variable {n : ℕ}

/-- The array after `src` was stored from byte `off` on. -/
def put (a : CArray n) (off : ℕ) (src : List UInt8) (h : off + src.length ≤ n) : CArray n :=
  ⟨a.bytes.take off ++ src ++ a.bytes.drop (off + src.length), by
    have := a.size
    simp only [List.length_append, List.length_take, List.length_drop]
    omega⟩

/-- The bytes of a member. -/
def read (a : CArray n) (f : Field n) : List UInt8 := (a.bytes.drop f.off).take f.size

/-- `memcpy(&a.f, src, |src|)`. -/
def copyTo (a : CArray n) (f : Field n) (src : List UInt8) : Option (CArray n) :=
  if h : f.off + src.length ≤ n then some (a.put f.off src h) else none

/-- The C string that starts at a member. It may end in a later one. -/
def cstrAt (a : CArray n) (f : Field n) : Option (List UInt8) :=
  if 0 ∈ a.bytes.drop f.off then some ((a.bytes.drop f.off).takeWhile (· ≠ 0)) else none

/-- Assignment to an unsigned member. -/
def setNat (a : CArray n) (f : Field n) (v : ℕ) : CArray n :=
  a.put f.off (leBytes f.size v) (by rw [length_leBytes]; exact f.fits)

/-- Assignment to a signed member. -/
def setInt (a : CArray n) (f : Field n) (v : ℤ) : CArray n :=
  a.setNat f (v % (2 : ℤ) ^ (8 * f.size)).toNat

/-- The value of an unsigned member. -/
def getNat (a : CArray n) (f : Field n) : ℕ := leNat (a.read f)

/-- The value of a signed member. -/
def getInt (a : CArray n) (f : Field n) : ℤ := toSigned (8 * f.size) (a.getNat f)

/-- `memcpy(&a.f, &b.g, sizeof(a.f))` for members of one size. -/
def copyField {m : ℕ} (a : CArray n) (f : Field n) (b : CArray m) (g : Field m)
    (h : g.size = f.size) : CArray n :=
  a.put f.off (b.read g) (by
    have := b.size
    have := f.fits
    simp only [read, List.length_take, List.length_drop]
    omega)

theorem length_read (a : CArray n) (f : Field n) : (a.read f).length = f.size := by
  have := a.size
  have := f.fits
  simp only [read, List.length_take, List.length_drop]
  omega

theorem read_zero (f : Field n) : (zero n).read f = List.replicate f.size 0 := by
  have := f.fits
  simp only [read, zero, List.drop_replicate, List.take_replicate]
  congr 1
  omega

/-- Byte `i` after a store: one of the stored bytes, or what was there. -/
theorem getElem?_put (a : CArray n) {off : ℕ} {src : List UInt8} (h : off + src.length ≤ n)
    (i : ℕ) : (a.put off src h).bytes[i]? =
      if off ≤ i ∧ i < off + src.length then src[i - off]? else a.bytes[i]? := by
  have hsize := a.size
  simp only [put, List.append_assoc]
  by_cases hlo : i < off
  · rw [List.getElem?_append_left (by rw [List.length_take]; omega),
      List.getElem?_take_of_lt hlo, if_neg (by omega)]
  · have htake : (a.bytes.take off).length = off := by rw [List.length_take]; omega
    rw [List.getElem?_append_right (by omega), htake]
    by_cases hhi : i < off + src.length
    · rw [List.getElem?_append_left (by omega), if_pos (by omega)]
    · rw [List.getElem?_append_right (by omega), List.getElem?_drop, if_neg (by omega)]
      congr 1
      omega

theorem getElem?_read (a : CArray n) (f : Field n) (i : ℕ) :
    (a.read f)[i]? = if i < f.size then a.bytes[f.off + i]? else none := by
  simp only [read, List.getElem?_take, List.getElem?_drop]

/-- A member of an array whose bytes are known. -/
theorem read_eq_map {a : CArray n} {g : ℕ → UInt8}
    (h : ∀ i < n, a.bytes[i]? = some (g i)) (f : Field n) :
    a.read f = (List.range f.size).map fun i => g (f.off + i) := by
  apply List.ext_getElem?
  intro i
  rw [getElem?_read, List.getElem?_map]
  by_cases hi : i < f.size
  · have hfits := f.fits
    rw [if_pos hi, h _ (by omega), List.getElem?_range hi]
    rfl
  · rw [if_neg hi, List.getElem?_eq_none (by rw [List.length_range]; omega)]
    rfl

/-- A member that lies inside another one. -/
theorem read_within (a : CArray n) {f g : Field n} (hlo : f.off ≤ g.off)
    (hhi : g.off + g.size ≤ f.off + f.size) :
    a.read g = ((a.read f).drop (g.off - f.off)).take g.size := by
  apply List.ext_getElem?
  intro i
  rw [getElem?_read, List.getElem?_take, List.getElem?_drop, getElem?_read]
  split
  · rw [if_pos (by omega)]
    congr 1
    omega
  · rfl

/-- Two members next to each other, read as one. -/
theorem read_adjacent (a : CArray n) {f g h : Field n} (hoff : h.off = f.off)
    (hnext : g.off = f.off + f.size) (hsize : h.size = f.size + g.size) :
    a.read h = a.read f ++ a.read g := by
  simp only [read]
  rw [hoff, hsize, List.take_add, List.drop_drop, hnext]

/-- A store that does not touch a member leaves it as it was. -/
theorem read_put_of_disjoint (a : CArray n) (f : Field n) {off : ℕ} {src : List UInt8}
    (h : off + src.length ≤ n) (hd : f.off + f.size ≤ off ∨ off + src.length ≤ f.off) :
    (a.put off src h).read f = a.read f := by
  apply List.ext_getElem?
  intro i
  rw [getElem?_read, getElem?_read]
  split
  · rw [getElem?_put, if_neg (by omega)]
  · rfl

/-- A store that begins before a member and may reach into it. -/
theorem read_put_over (a : CArray n) (f : Field n) {off : ℕ} {src : List UInt8}
    (h : off + src.length ≤ n) (hoff : off ≤ f.off) :
    (a.put off src h).read f = (src.drop (f.off - off)).take f.size ++
      (a.read f).drop (src.length - (f.off - off)) := by
  apply List.ext_getElem?
  intro i
  have hlen : ((src.drop (f.off - off)).take f.size).length =
      min f.size (src.length - (f.off - off)) := by
    rw [List.length_take, List.length_drop]
  rw [getElem?_read, getElem?_put]
  by_cases hi : i < min f.size (src.length - (f.off - off))
  · rw [List.getElem?_append_left (by omega), if_pos (by omega), if_pos (by omega),
      List.getElem?_take_of_lt (by omega), List.getElem?_drop]
    congr 1
    omega
  · rw [List.getElem?_append_right (by omega), hlen, List.getElem?_drop, getElem?_read]
    by_cases hsize : i < f.size
    · rw [if_pos hsize, if_neg (by omega), if_pos (by omega)]
      congr 1
      omega
    · rw [if_neg hsize, if_neg (by omega)]

/-- A store that covers a member leaves the stored bytes there. -/
theorem read_put_of_covers (a : CArray n) (f : Field n) {off : ℕ} {src : List UInt8}
    (h : off + src.length ≤ n) (hlo : off ≤ f.off) (hhi : f.off + f.size ≤ off + src.length) :
    (a.put off src h).read f = (src.drop (f.off - off)).take f.size := by
  apply List.ext_getElem?
  intro i
  rw [getElem?_read, List.getElem?_take, List.getElem?_drop]
  split
  · rw [getElem?_put, if_pos (by omega)]
    congr 1
    omega
  · rfl

theorem read_put_self (a : CArray n) (f : Field n) {src : List UInt8}
    (h : f.off + src.length ≤ n) (hsize : src.length = f.size) :
    (a.put f.off src h).read f = src := by
  rw [read_put_of_covers a f h (Nat.le_refl _) (by omega), Nat.sub_self, List.drop_zero,
    ← hsize, List.take_length]

theorem copyTo_eq_some {a b : CArray n} {f : Field n} {src : List UInt8} :
    a.copyTo f src = some b ↔ ∃ h : f.off + src.length ≤ n, b = a.put f.off src h := by
  unfold copyTo
  split
  · rename_i h
    exact ⟨fun he => ⟨h, (Option.some.inj he).symm⟩, fun ⟨_, he⟩ => by rw [he]⟩
  · rename_i h
    exact ⟨fun he => absurd he (by simp), fun ⟨h', _⟩ => absurd h' h⟩

theorem copyTo_of_le (a : CArray n) (f : Field n) {src : List UInt8}
    (h : f.off + src.length ≤ n) : a.copyTo f src = some (a.put f.off src h) := dif_pos h

theorem getNat_lt (a : CArray n) (f : Field n) : a.getNat f < 256 ^ f.size := by
  have hlt := leNat_lt (a.read f)
  rwa [length_read] at hlt

/-! ## Assignments -/

theorem read_setNat_of_disjoint (a : CArray n) {f g : Field n} (v : ℕ) (h : g.Disjoint f) :
    (a.setNat g v).read f = a.read f := by
  apply read_put_of_disjoint
  rw [length_leBytes]
  exact h.symm

theorem read_setNat_self (a : CArray n) (f : Field n) (v : ℕ) :
    (a.setNat f v).read f = leBytes f.size v :=
  read_put_self a f _ (length_leBytes _ _)

theorem read_copyField_of_disjoint {m : ℕ} (a : CArray n) {f g : Field n} (b : CArray m)
    (k : Field m) (hk : k.size = g.size) (h : g.Disjoint f) :
    (a.copyField g b k hk).read f = a.read f := by
  have hlen : (b.read k).length = g.size := by rw [length_read, hk]
  exact read_put_of_disjoint a f (by rw [hlen]; exact g.fits) (by rw [hlen]; exact h.symm)

theorem read_copyField_self {m : ℕ} (a : CArray n) (f : Field n) (b : CArray m) (g : Field m)
    (h : g.size = f.size) : (a.copyField f b g h).read f = b.read g := by
  have hlen : (b.read g).length = f.size := by rw [length_read, h]
  exact read_put_self a f (by rw [hlen]; exact f.fits) hlen

theorem getNat_setNat_of_disjoint (a : CArray n) {f g : Field n} (v : ℕ) (h : g.Disjoint f) :
    (a.setNat g v).getNat f = a.getNat f := by
  rw [getNat, getNat, read_setNat_of_disjoint a v h]

theorem getNat_copyField_of_disjoint {m : ℕ} (a : CArray n) {f g : Field n} (b : CArray m)
    (k : Field m) (hk : k.size = g.size) (h : g.Disjoint f) :
    (a.copyField g b k hk).getNat f = a.getNat f := by
  rw [getNat, getNat, read_copyField_of_disjoint a b k hk h]

/-- `memset(&a.f, 0, sizeof(a.f))`. -/
theorem read_setNat_zero (a : CArray n) (f : Field n) :
    (a.setNat f 0).read f = List.replicate f.size 0 := by
  rw [read_setNat_self, leBytes_zero]

theorem getNat_setNat_self (a : CArray n) (f : Field n) (v : ℕ) :
    (a.setNat f v).getNat f = v % 256 ^ f.size := by
  rw [getNat, read_setNat_self, leNat_leBytes]

/-- A member of at least the size of another one holds its value. -/
theorem getNat_setNat_getNat {m : ℕ} (a : CArray n) {f : Field n} (b : CArray m) {g : Field m}
    (h : g.size ≤ f.size) : (a.setNat f (b.getNat g)).getNat f = b.getNat g := by
  rw [getNat_setNat_self]
  apply Nat.mod_eq_of_lt
  exact (b.getNat_lt g).trans_le (Nat.pow_le_pow_right (by decide) h)

theorem getNat_setInt_self (a : CArray n) (f : Field n) (v : ℤ) :
    (a.setInt f v).getNat f = (v % (2 : ℤ) ^ (8 * f.size)).toNat := by
  rw [setInt, getNat_setNat_self]
  apply Nat.mod_eq_of_lt
  have hpos : (0 : ℤ) < 2 ^ (8 * f.size) := Int.pow_pos (by decide)
  have hpow : ((256 ^ f.size : ℕ) : ℤ) = 2 ^ (8 * f.size) := by
    rw [show 256 = 2 ^ 8 from rfl, ← Nat.pow_mul]
    norm_cast
  rw [Int.toNat_lt (Int.emod_nonneg v (Int.ne_of_gt hpos)), hpow]
  exact Int.emod_lt_of_pos v hpos

/-- A member of one byte. -/
theorem getNat_of_byte {a : CArray n} {f : Field n} (hsize : f.size = 1) {b : UInt8}
    (h : a.bytes[f.off]? = some b) : a.getNat f = b.toNat := by
  obtain ⟨hlt, rfl⟩ := List.getElem?_eq_some_iff.mp h
  rw [getNat, read, hsize, List.drop_eq_getElem_cons hlt]
  rfl

/-- One byte after a copy that begins before it and may or may not reach it. -/
theorem getNat_copyTo_byte {a b : CArray n} {f g : Field n} {src : List UInt8}
    (hsize : f.size = 1) (hoff : g.off ≤ f.off) (h : a.copyTo g src = some b) :
    b.getNat f = (src[f.off - g.off]?).elim (a.getNat f) UInt8.toNat := by
  obtain ⟨hfits, rfl⟩ := copyTo_eq_some.mp h
  by_cases hreach : f.off - g.off < src.length
  · rw [List.getElem?_eq_getElem hreach]
    apply getNat_of_byte hsize
    rw [getElem?_put, if_pos (by omega), List.getElem?_eq_getElem hreach]
  · rw [List.getElem?_eq_none (by omega)]
    exact congrArg leNat (a.read_put_of_disjoint f hfits (.inr (by omega)))

/-- A signed member holds a value of its range. -/
theorem getInt_setInt_self (a : CArray n) {f : Field n} (hf : 0 < f.size) {v : ℤ}
    (hlower : -(2 : ℤ) ^ (8 * f.size - 1) ≤ v) (hupper : v < (2 : ℤ) ^ (8 * f.size - 1)) :
    (a.setInt f v).getInt f = v := by
  rw [getInt, getNat_setInt_self]
  exact toSigned_emod (by omega) hlower hupper

/-- A text stored at a member stands at its start. -/
theorem prefix_read_put (a : CArray n) (f : Field n) {src : List UInt8}
    (h : f.off + src.length ≤ n) (hsize : src.length ≤ f.size) :
    src <+: (a.put f.off src h).read f := by
  rw [List.prefix_iff_getElem?]
  intro i hi
  rw [getElem?_read, if_pos (by omega), getElem?_put, if_pos (by omega), Nat.add_sub_cancel_left,
    List.getElem?_eq_getElem hi]

theorem zero_notMem_of_cstrAt {a : CArray n} {f : Field n} {s : List UInt8}
    (h : a.cstrAt f = some s) : 0 ∉ s := by
  unfold cstrAt at h
  split at h
  · obtain rfl := Option.some.inj h
    intro hzero
    exact absurd (List.mem_takeWhile_imp hzero) (by simp)
  · cases h

/-- A member with a zero byte holds a string. -/
theorem exists_cstrAt {a : CArray n} {f : Field n} (h : 0 ∈ a.read f) :
    ∃ s, a.cstrAt f = some s ∧ s.length < f.size := by
  have hmem : 0 ∈ a.bytes.drop f.off := List.mem_of_mem_take h
  refine ⟨_, if_pos hmem, ?_⟩
  have hlt : ((a.read f).takeWhile (· ≠ 0)).length < (a.read f).length := by
    refine Nat.lt_of_le_of_ne (List.takeWhile_prefix _).length_le fun heq => ?_
    have hall := List.takeWhile_eq_self_iff.mp ((List.takeWhile_prefix _).eq_of_length heq)
    exact absurd (hall 0 h) (by simp)
  have hsplit : a.bytes.drop f.off = a.read f ++ (a.bytes.drop f.off).drop f.size :=
    (List.take_append_drop _ _).symm
  rw [hsplit, List.takeWhile_append, if_neg hlt.ne]
  exact hlt.trans_eq (a.length_read f)

/-- A string that ends inside its member stands there with its terminator. -/
theorem prefix_of_cstrAt {a : CArray n} {f : Field n} {s : List UInt8} (h : a.cstrAt f = some s)
    (hlen : s.length < f.size) : s ++ [0] <+: a.read f := by
  unfold cstrAt at h
  split at h
  · rename_i hmem
    obtain ⟨t, rest, hsplit, ht⟩ := List.eq_append_cons_of_mem hmem
    have hs : s = t := by
      rw [← Option.some.inj h, hsplit, List.takeWhile_append_of_pos]
      · simp
      · intro c hc
        rw [decide_eq_true_eq]
        rintro rfl
        exact ht hc
    rw [read, hsplit, ← hs]
    refine List.prefix_take_iff.mpr ⟨⟨rest, by simp⟩, ?_⟩
    rw [List.length_append, List.length_singleton]
    omega
  · cases h

/-- A text at the start of a member with its terminator is the string there. -/
theorem cstrAt_of_prefix {a : CArray n} {f : Field n} {s : List UInt8} (hs : 0 ∉ s)
    (h : s ++ [0] <+: a.read f) : a.cstrAt f = some s := by
  obtain ⟨t, ht⟩ := h.trans (List.take_prefix f.size (a.bytes.drop f.off))
  unfold cstrAt
  rw [← ht, if_pos (by simp), List.append_assoc, List.takeWhile_append_of_pos (by
    intro c hc
    rw [decide_eq_true_eq]
    rintro rfl
    exact hs hc)]
  simp

/-- A text that fills the start of a member with zeros behind it is the string there. -/
theorem cstrAt_of_read {a : CArray n} {f : Field n} {s : List UInt8} (hs : 0 ∉ s) {k : ℕ}
    (h : a.read f = s ++ List.replicate (k + 1) 0) : a.cstrAt f = some s := by
  have hdrop : a.bytes.drop f.off = s ++ 0 :: (List.replicate k 0 ++
      (a.bytes.drop f.off).drop f.size) := by
    conv_lhs => rw [← List.take_append_drop f.size (a.bytes.drop f.off)]
    rw [show (a.bytes.drop f.off).take f.size = a.read f from rfl, h, List.replicate_succ]
    simp
  unfold cstrAt
  rw [hdrop, if_pos (by simp)]
  congr 1
  rw [List.takeWhile_append_of_pos (by
    intro c hc
    rw [decide_eq_true_eq]
    rintro rfl
    exact hs hc)]
  simp

end CArray
end Tdm.Lib
