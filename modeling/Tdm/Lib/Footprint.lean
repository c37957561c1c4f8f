import Tdm.Lib.Layout

/-!
# Footprints

`a.Touches fs b` says that `b` was made from `a` without a change outside the ranges `fs`.
A chain of stores is followed by one application for each store, and what a chain leaves
alone is then read off its footprint (`Touches.read_eq`). A copy with a length of its own
counts for the whole range it may cover.
-/

namespace Tdm.Lib.CArray

variable {n : ℕ}

/-- Every member that shares no byte with the ranges `fs` is as it was. -/
def Touches (fs : List (Field n)) (a b : CArray n) : Prop :=
  ∀ f : Field n, (∀ g ∈ fs, g.Disjoint f) → b.read f = a.read f

namespace Touches

variable {fs gs : List (Field n)} {a b c : CArray n}

theorem refl (fs : List (Field n)) (a : CArray n) : a.Touches fs a := fun _ _ => rfl

theorem trans (h : a.Touches fs b) (h' : b.Touches fs c) : a.Touches fs c :=
  fun f hf => (h' f hf).trans (h f hf)

theorem mono (h : a.Touches fs b) (hsub : fs ⊆ gs) : a.Touches gs b :=
  fun f hf => h f fun g hg => hf g (hsub hg)

/-- Ranges that lie inside others. -/
theorem within (h : a.Touches fs b) (hin : ∀ f ∈ fs, ∃ g ∈ gs,
    g.off ≤ f.off ∧ f.off + f.size ≤ g.off + g.size) : a.Touches gs b := by
  intro f hf
  apply h f
  intro g hg
  obtain ⟨g', hg', hlo, hhi⟩ := hin g hg
  have hdisj := hf g' hg'
  unfold Field.Disjoint at hdisj ⊢
  omega

theorem read_eq (h : a.Touches fs b) {f : Field n} (hf : ∀ g ∈ fs, g.Disjoint f) :
    b.read f = a.read f := h f hf

theorem getNat_eq (h : a.Touches fs b) {f : Field n} (hf : ∀ g ∈ fs, g.Disjoint f) :
    b.getNat f = a.getNat f := congrArg leNat (h f hf)

/-- The string at a member behind all the ranges. -/
theorem cstrAt_eq (h : a.Touches fs b) {f : Field n} (hf : ∀ g ∈ fs, g.off + g.size ≤ f.off) :
    b.cstrAt f = a.cstrAt f := by
  have hfits := f.fits
  let rest : Field n := ⟨f.off, n - f.off, by omega⟩
  have hdrop (c : CArray n) : c.read rest = c.bytes.drop f.off := by
    apply List.take_of_length_le
    rw [List.length_drop, c.size]
  have hread : b.read rest = a.read rest := h.read_eq fun g hg => .inl (hf g hg)
  rw [hdrop, hdrop] at hread
  unfold cstrAt
  rw [hread]

/-- Without a change inside the range either, there is no change. -/
theorem eq_of_read {f : Field n} (h : a.Touches [f] b) (hf : b.read f = a.read f) : b = a := by
  apply CArray.ext
  apply List.ext_getElem?
  intro i
  by_cases hi : i < n
  · by_cases hin : f.off ≤ i ∧ i < f.off + f.size
    · have hbyte := congrArg (·[i - f.off]?) hf
      simp only [getElem?_read] at hbyte
      rwa [if_pos (by omega), if_pos (by omega), Nat.add_sub_cancel' hin.1] at hbyte
    · -- the byte is a member of its own
      let byte : Field n := ⟨i, 1, by omega⟩
      have hapart : f.Disjoint byte := by
        show f.off + f.size ≤ i ∨ i + 1 ≤ f.off
        omega
      have hbyte := congrArg (·[0]?) (h.read_eq (f := byte) (by simpa using hapart))
      simpa only [getElem?_read, byte, Nat.zero_lt_one, if_true, Nat.add_zero] using hbyte
  · rw [List.getElem?_eq_none (by rw [b.size]; omega), List.getElem?_eq_none (by rw [a.size]; omega)]

/-- A store inside one of the ranges. -/
theorem put (h : a.Touches fs b) {off : ℕ} {src : List UInt8} {hfits : off + src.length ≤ n}
    {g : Field n} (hg : g ∈ fs) (hin : g.off ≤ off ∧ off + src.length ≤ g.off + g.size) :
    a.Touches fs (b.put off src hfits) := by
  intro f hf
  rw [read_put_of_disjoint b f hfits]
  · exact h f hf
  · have hdisj := hf g hg
    unfold Field.Disjoint at hdisj
    omega

theorem setNat (h : a.Touches fs b) {g : Field n} (hg : g ∈ fs) (v : ℕ) :
    a.Touches fs (b.setNat g v) := by
  apply h.put hg
  rw [length_leBytes]
  exact ⟨Nat.le_refl _, Nat.le_refl _⟩

theorem setInt (h : a.Touches fs b) {g : Field n} (hg : g ∈ fs) (v : ℤ) :
    a.Touches fs (b.setInt g v) := h.setNat hg _

theorem copyField (h : a.Touches fs b) {g : Field n} (hg : g ∈ fs) {m : ℕ} (d : CArray m)
    (k : Field m) (hk : k.size = g.size) : a.Touches fs (b.copyField g d k hk) := by
  apply h.put hg
  rw [length_read, hk]
  exact ⟨Nat.le_refl _, Nat.le_refl _⟩

/-- A copy that starts at a member and is not longer than the range. -/
theorem copyTo (h : a.Touches fs b) {f g : Field n} {src : List UInt8} (hg : g ∈ fs)
    (hoff : g.off = f.off) (hlen : src.length ≤ g.size) (hcopy : b.copyTo f src = some c) :
    a.Touches fs c := by
  obtain ⟨hfits, rfl⟩ := copyTo_eq_some.mp hcopy
  apply h.put hg
  omega

end Touches

end Tdm.Lib.CArray
