import Tdm.Lib.Layout
import Mathlib.Data.List.Induction

/-!
# Lists of stores

What a piece of code does to a struct, written down as the stores it makes, one after the
other, each inside a member. A byte behind such a list holds what the last store that
covers it put there, or what it held before. So two structs that went through one list
agree wherever a store was made (`read_stores_congr`), a member that no store is for keeps
its bytes (`read_stores_of_disjoint`), and a member that one store is for holds the stored
bytes and behind them what was there (`read_stores_of_mem`).
-/

namespace Tdm.Lib

/-- Bytes to be stored in a member, from its start. -/
structure Store (n : ℕ) where
  field : Field n
  src : List UInt8
  fits : src.length ≤ field.size

namespace Store

variable {n : ℕ}

/-- The store of as much of `src` as the member holds. -/
def of (f : Field n) (src : List UInt8) : Store n := ⟨f, src.take f.size, List.length_take_le ..⟩

/-- Assignment to an unsigned member. -/
def assign (f : Field n) (v : ℕ) : Store n := ⟨f, leBytes f.size v, Nat.le_of_eq (length_leBytes ..)⟩

/-- Assignment to a signed member. -/
def assignInt (f : Field n) (v : ℤ) : Store n := assign f (v % (2 : ℤ) ^ (8 * f.size)).toNat

/-- The store puts a byte at `i`. -/
def Covers (w : Store n) (i : ℕ) : Prop := w.field.off ≤ i ∧ i < w.field.off + w.src.length

instance (w : Store n) (i : ℕ) : Decidable (w.Covers i) := inferInstanceAs (Decidable (_ ∧ _))

theorem src_of {f : Field n} {src : List UInt8} (h : src.length ≤ f.size) :
    (of f src).src = src := List.take_of_length_le h

theorem not_covers_of_disjoint {w : Store n} {f : Field n} (h : w.field.Disjoint f) {i : ℕ}
    (hi : i < f.size) : ¬ w.Covers (f.off + i) := by
  have := w.fits
  unfold Covers
  unfold Field.Disjoint at h
  omega

end Store

namespace CArray

variable {n : ℕ}

def store (a : CArray n) (w : Store n) : CArray n :=
  a.put w.field.off w.src (by have := w.fits; have := w.field.fits; omega)

def stores (a : CArray n) (ws : List (Store n)) : CArray n := ws.foldl store a

@[simp] theorem stores_nil (a : CArray n) : a.stores [] = a := rfl

@[simp] theorem stores_cons (a : CArray n) (w : Store n) (ws : List (Store n)) :
    a.stores (w :: ws) = (a.store w).stores ws := rfl

theorem stores_append (a : CArray n) (ws vs : List (Store n)) :
    a.stores (ws ++ vs) = (a.stores ws).stores vs := List.foldl_append ..

theorem getElem?_store (a : CArray n) (w : Store n) (i : ℕ) :
    (a.store w).bytes[i]? = if w.Covers i then w.src[i - w.field.off]? else a.bytes[i]? :=
  getElem?_put a _ i

/-- A store of no bytes. -/
theorem store_of_nil (a : CArray n) (f : Field n) : a.store (.of f []) = a := by
  apply CArray.ext
  apply List.ext_getElem?
  intro i
  rw [getElem?_store, if_neg]
  show ¬ (f.off ≤ i ∧ i < f.off + (List.take f.size []).length)
  simp

/-- A byte that no store covers keeps its value. -/
theorem getElem?_stores_of_untouched {a : CArray n} {ws : List (Store n)} {i : ℕ}
    (h : ∀ w ∈ ws, ¬ w.Covers i) : (a.stores ws).bytes[i]? = a.bytes[i]? := by
  induction ws generalizing a with
  | nil => rfl
  | cons w ws ih =>
    rw [stores_cons, ih fun v hv => h v (List.mem_cons_of_mem _ hv), getElem?_store,
      if_neg (h w (List.mem_cons_self ..))]

/-- After the same stores two arrays agree at a byte if they did before or if one of the
stores covers it. -/
theorem getElem?_stores_congr {a b : CArray n} {ws : List (Store n)} {i : ℕ}
    (h : a.bytes[i]? = b.bytes[i]? ∨ ∃ w ∈ ws, w.Covers i) :
    (a.stores ws).bytes[i]? = (b.stores ws).bytes[i]? := by
  induction ws generalizing a b with
  | nil =>
    rcases h with h | ⟨w, hw, -⟩
    · exact h
    · cases hw
  | cons w ws ih =>
    apply ih
    rw [getElem?_store, getElem?_store]
    by_cases hw : w.Covers i
    · left
      rw [if_pos hw, if_pos hw]
    · rw [if_neg hw, if_neg hw]
      rcases h with h | ⟨v, hv, hcov⟩
      · exact .inl h
      · rcases List.mem_cons.mp hv with rfl | hv
        · exact absurd hcov hw
        · exact .inr ⟨v, hv, hcov⟩

/-- A byte covered by one kind of store only holds what that store puts there. -/
theorem getElem?_stores_of_covers {a : CArray n} {ws : List (Store n)} {w : Store n} {i : ℕ}
    (hw : w ∈ ws) (hi : w.Covers i) (hother : ∀ v ∈ ws, v = w ∨ ¬ v.Covers i) :
    (a.stores ws).bytes[i]? = w.src[i - w.field.off]? := by
  induction ws generalizing a with
  | nil => cases hw
  | cons v ws ih =>
    have hother' : ∀ v ∈ ws, v = w ∨ ¬ v.Covers i := fun v hv =>
      hother v (List.mem_cons_of_mem _ hv)
    by_cases hmem : w ∈ ws
    · exact ih hmem hother'
    · -- `w` is the first store, and none of the later ones covers the byte
      have hv : v = w := by
        rcases List.mem_cons.mp hw with h | h
        · exact h.symm
        · exact absurd h hmem
      rw [stores_cons, getElem?_stores_of_untouched, hv, getElem?_store, if_pos hi]
      intro v' hv'
      rcases hother' v' hv' with rfl | h
      · exact absurd hv' hmem
      · exact h

/-- A member that no store is for keeps its bytes. -/
theorem read_stores_of_disjoint {a : CArray n} {ws : List (Store n)} {f : Field n}
    (h : ∀ w ∈ ws, w.field.Disjoint f) : (a.stores ws).read f = a.read f := by
  apply List.ext_getElem?
  intro i
  rw [getElem?_read, getElem?_read]
  split
  · rename_i hi
    exact getElem?_stores_of_untouched fun w hw => Store.not_covers_of_disjoint (h w hw) hi
  · rfl

/-- After the same stores two arrays agree on a member of which each byte was equal before
or is covered. -/
theorem read_stores_congr {a b : CArray n} {ws : List (Store n)} {f : Field n}
    (h : ∀ i, i < f.size →
      a.bytes[f.off + i]? = b.bytes[f.off + i]? ∨ ∃ w ∈ ws, w.Covers (f.off + i)) :
    (a.stores ws).read f = (b.stores ws).read f := by
  apply List.ext_getElem?
  intro i
  rw [getElem?_read, getElem?_read]
  split
  · rename_i hi
    exact getElem?_stores_congr (h i hi)
  · rfl

/-- A member that one store is for holds the stored bytes and then what it held before. -/
theorem read_stores_of_mem {a : CArray n} {ws : List (Store n)} {w : Store n} (hw : w ∈ ws)
    (hother : ∀ v ∈ ws, v = w ∨ v.field.Disjoint w.field) :
    (a.stores ws).read w.field = w.src ++ (a.read w.field).drop w.src.length := by
  apply List.ext_getElem?
  intro i
  have hfits := w.fits
  rw [getElem?_read]
  split
  · rename_i hi
    by_cases hcov : i < w.src.length
    · rw [List.getElem?_append_left hcov, getElem?_stores_of_covers hw]
      · rw [Nat.add_sub_cancel_left]
      · exact ⟨Nat.le_add_right .., by omega⟩
      · intro v hv
        rcases hother v hv with h | h
        · exact .inl h
        · exact .inr (Store.not_covers_of_disjoint h hi)
    · rw [List.getElem?_append_right (by omega), List.getElem?_drop, getElem?_read,
        getElem?_stores_of_untouched, if_pos (by omega)]
      · congr 1
        omega
      · intro v hv
        rcases hother v hv with rfl | h
        · intro hc
          exact absurd hc.2 (by omega)
        · exact Store.not_covers_of_disjoint h hi
  · rename_i hi
    rw [eq_comm, List.getElem?_eq_none_iff]
    simp only [List.length_append, List.length_drop, length_read]
    omega

/-- The same if the store may be left out when it has no bytes. -/
theorem read_stores_of_only {a : CArray n} {ws : List (Store n)} {w : Store n}
    (hw : w ∈ ws ∨ w.src = []) (hother : ∀ v ∈ ws, v = w ∨ v.field.Disjoint w.field) :
    (a.stores ws).read w.field = w.src ++ (a.read w.field).drop w.src.length := by
  by_cases hmem : w ∈ ws
  · exact read_stores_of_mem hmem hother
  · have hnil : w.src = [] := hw.resolve_left hmem
    rw [hnil, List.nil_append, List.length_nil, List.drop_zero]
    apply read_stores_of_disjoint
    intro v hv
    rcases hother v hv with rfl | h
    · exact absurd hv hmem
    · exact h

/-- A member that one assignment is for holds the value assigned. -/
theorem read_stores_assign {a : CArray n} {ws : List (Store n)} {f : Field n} {v : ℕ}
    (hw : .assign f v ∈ ws) (hother : ∀ w ∈ ws, w = .assign f v ∨ w.field.Disjoint f) :
    (a.stores ws).read f = leBytes f.size v := by
  have hread := read_stores_of_mem (a := a) hw hother
  have hdrop : (a.read f).drop (leBytes f.size v).length = [] := by
    apply List.drop_eq_nil_of_le
    rw [length_leBytes, length_read]
  rw [show (Store.assign f v).src = leBytes f.size v from rfl,
    show (Store.assign f v).field = f from rfl, hdrop, List.append_nil] at hread
  exact hread

/-- After the same stores two arrays agree on a member that is inside a filled one. -/
theorem read_stores_congr_of_filled {a b : CArray n} {ws : List (Store n)} {w : Store n}
    {f : Field n} (hw : w ∈ ws) (hfill : w.src.length = w.field.size)
    (hin : w.field.off ≤ f.off ∧ f.off + f.size ≤ w.field.off + w.field.size) :
    (a.stores ws).read f = (b.stores ws).read f := by
  apply read_stores_congr
  intro i hi
  right
  exact ⟨w, hw, by unfold Store.Covers; omega⟩

/-! ## Texts in members -/

/-- The member holds the string `s` with nothing but zeros behind it. -/
structure Holds (a : CArray n) (f : Field n) (s : List UInt8) : Prop where
  clean : 0 ∉ s
  short : s.length < f.size
  read : a.read f = s ++ List.replicate (f.size - s.length) 0

namespace Holds

variable {a b : CArray n} {f : Field n} {s t : List UInt8}

theorem cstrAt (h : a.Holds f s) : a.cstrAt f = some s := by
  apply cstrAt_of_read h.clean (k := f.size - s.length - 1)
  rw [h.read]
  have := h.short
  congr 2
  omega

theorem congr (h : a.Holds f s) (hread : b.read f = a.read f) : b.Holds f s :=
  ⟨h.clean, h.short, hread.trans h.read⟩

theorem of_zeros (hpos : 0 < f.size) (h : a.read f = List.replicate f.size 0) :
    a.Holds f [] := ⟨List.not_mem_nil, hpos, h⟩

/-- A text copied over a text: the end of the longer one stays. -/
theorem overlay (h : a.Holds f s) (hclean : 0 ∉ t) (hshort : t.length < f.size)
    (hread : b.read f = t ++ (a.read f).drop t.length) : b.Holds f (t ++ s.drop t.length) := by
  have hlt := h.short
  refine ⟨?_, ?_, ?_⟩
  · intro hmem
    rcases List.mem_append.mp hmem with hmem | hmem
    · exact hclean hmem
    · exact h.clean (List.mem_of_mem_drop hmem)
  · rw [List.length_append, List.length_drop]
    omega
  · rw [hread, h.read, List.append_assoc, List.drop_append, List.drop_replicate,
      List.length_append, List.length_drop]
    congr 3
    omega

/-- Nothing stays of a text that is not longer. -/
theorem overwrite (h : a.Holds f s) (hclean : 0 ∉ t) (hshort : t.length < f.size)
    (hread : b.read f = t ++ (a.read f).drop t.length) (hle : s.length ≤ t.length) :
    b.Holds f t := by
  have hover := h.overlay hclean hshort hread
  rwa [List.drop_eq_nil_of_le hle, List.append_nil] at hover

theorem read_eq (ha : a.Holds f s) (hb : b.Holds f s) : a.read f = b.read f :=
  ha.read.trans hb.read.symm

end Holds

end CArray

/-! ## Texts over texts -/

/-- What a member holds after the texts were copied there one after the other: from each place
on the last text that reaches it. -/
def overlaid (texts : List (List UInt8)) : List UInt8 :=
  texts.foldl (fun s t => t ++ s.drop t.length) []

theorem overlaid_concat (texts : List (List UInt8)) (t : List UInt8) :
    overlaid (texts ++ [t]) = t ++ (overlaid texts).drop t.length := by
  unfold overlaid
  rw [List.foldl_append, List.foldl_cons, List.foldl_nil]

/-- It is as long as the longest of the texts. -/
theorem length_overlaid_le_iff (texts : List (List UInt8)) (k : ℕ) :
    (overlaid texts).length ≤ k ↔ ∀ t ∈ texts, t.length ≤ k := by
  induction texts using List.reverseRecOn with
  | nil => simp [overlaid]
  | append_singleton texts t ih =>
    rw [overlaid_concat, List.length_append, List.length_drop, List.forall_mem_append, ← ih,
      List.forall_mem_singleton]
    omega

/-- Only the last text is left if it is the longest one. -/
theorem overlaid_concat_eq_iff (texts : List (List UInt8)) (t : List UInt8) :
    overlaid (texts ++ [t]) = t ↔ ∀ u ∈ texts, u.length ≤ t.length := by
  rw [overlaid_concat, ← length_overlaid_le_iff, List.append_right_eq_self, List.drop_eq_nil_iff]

end Tdm.Lib
