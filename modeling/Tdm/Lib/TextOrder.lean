import Tdm.Lib.CNumber

/-!
# The order of texts

Texts are compared byte by byte, as `strcmp` does; `TextLT` is the order for texts that do not end
early. The results are about texts of one length: appending the same text changes nothing, what is
before at a prefix is before at every longer one, and digits are in the order of their numbers.
-/

namespace Tdm.Lib

/-- The first text comes before the second one. -/
def TextLT (s t : List UInt8) : Prop := List.Lex (fun c d => c.toNat < d.toNat) s t

instance (s t : List UInt8) : Decidable (TextLT s t) :=
  inferInstanceAs (Decidable (List.Lex (fun c d => c.toNat < d.toNat) s t))

theorem textLT_cons {c d : UInt8} {s t : List UInt8} :
    TextLT (c :: s) (d :: t) ↔ c.toNat < d.toNat ∨ c = d ∧ TextLT s t :=
  List.cons_lex_cons_iff

theorem not_textLT_nil (s : List UInt8) : ¬ TextLT s [] := List.not_lex_nil

/-- What decides inside the first part decides for the whole. -/
theorem TextLT.append {s t : List UInt8} (h : TextLT s t) (hlen : s.length = t.length)
    (u v : List UInt8) : TextLT (s ++ u) (t ++ v) := by
  induction s generalizing t with
  | nil =>
    obtain rfl := List.length_eq_zero_iff.mp hlen.symm
    exact absurd h (not_textLT_nil [])
  | cons c s ih =>
    cases t with
    | nil => exact absurd h (not_textLT_nil _)
    | cons d t =>
      rw [List.cons_append, List.cons_append, textLT_cons]
      exact (textLT_cons.mp h).imp_right fun ⟨heq, hrest⟩ => ⟨heq, ih hrest (Nat.succ.inj hlen)⟩

theorem not_textLT_self (s : List UInt8) : ¬ TextLT s s := by
  induction s with
  | nil => exact not_textLT_nil []
  | cons c s ih =>
    rw [textLT_cons]
    rintro (hlt | ⟨-, hlt⟩)
    · exact lt_irrefl _ hlt
    · exact ih hlt

/-- The same end does not matter. -/
theorem textLT_append_iff {s t : List UInt8} (hlen : s.length = t.length) (u : List UInt8) :
    TextLT (s ++ u) (t ++ u) ↔ TextLT s t := by
  refine ⟨fun h => ?_, fun h => h.append hlen u u⟩
  induction s generalizing t with
  | nil =>
    obtain rfl := List.length_eq_zero_iff.mp hlen.symm
    exact absurd h (not_textLT_self _)
  | cons c s ih =>
    cases t with
    | nil => cases hlen
    | cons d t =>
      rw [List.cons_append, List.cons_append, textLT_cons] at h
      rw [textLT_cons]
      exact h.imp_right fun ⟨heq, hrest⟩ => ⟨heq, ih (Nat.succ.inj hlen) hrest⟩

theorem TextLT.of_take {s t : List UInt8} {j k : ℕ} (h : TextLT (s.take j) (t.take j))
    (hlen : s.length = t.length) (hjk : j ≤ k) : TextLT (s.take k) (t.take k) := by
  have hsplit (u : List UInt8) : u.take k = u.take j ++ (u.take k).drop j := by
    have htake : (u.take k).take j = u.take j := by rw [List.take_take, Nat.min_eq_left hjk]
    rw [← htake, List.take_append_drop]
  rw [hsplit s, hsplit t]
  exact h.append (by rw [List.length_take, List.length_take, hlen]) _ _

/-- The first digit decides. -/
theorem numeral_cons_lt {c d : UInt8} {s t : List UInt8} (h : digitVal c < digitVal d)
    (hlen : s.length = t.length) (hs : ∀ e ∈ s, isDigit e) :
    numeral 0 (c :: s) < numeral 0 (d :: t) := by
  show numeral (10 * 0 + digitVal c) s < numeral (10 * 0 + digitVal d) t
  rw [numeral_eq, numeral_eq (10 * 0 + digitVal d), ← hlen]
  calc (10 * 0 + digitVal c) * 10 ^ s.length + numeral 0 s
      < (10 * 0 + digitVal c) * 10 ^ s.length + 10 ^ s.length := by
        have hlt := numeral_lt hs
        omega
    _ = (digitVal c + 1) * 10 ^ s.length := by ring
    _ ≤ (10 * 0 + digitVal d) * 10 ^ s.length := Nat.mul_le_mul_right _ (by omega)
    _ ≤ (10 * 0 + digitVal d) * 10 ^ s.length + numeral 0 t := Nat.le_add_right _ _

/-- Numerals of one length are in the order of their numbers. -/
theorem textLT_iff_numeral_lt {s t : List UInt8} (hlen : s.length = t.length)
    (hs : ∀ c ∈ s, isDigit c) (ht : ∀ c ∈ t, isDigit c) :
    TextLT s t ↔ numeral 0 s < numeral 0 t := by
  induction s generalizing t with
  | nil =>
    obtain rfl := List.length_eq_zero_iff.mp hlen.symm
    exact iff_of_false (not_textLT_nil []) (lt_irrefl _)
  | cons c s ih =>
    cases t with
    | nil => cases hlen
    | cons d t =>
      have hlen' : s.length = t.length := Nat.succ.inj hlen
      have hs' : ∀ e ∈ s, isDigit e := fun e he => hs e (List.mem_cons_of_mem _ he)
      have ht' : ∀ e ∈ t, isDigit e := fun e he => ht e (List.mem_cons_of_mem _ he)
      have hc := (isDigit_iff.mp (hs c List.mem_cons_self)).1
      have hd := (isDigit_iff.mp (ht d List.mem_cons_self)).1
      rw [textLT_cons]
      rcases lt_trichotomy c.toNat d.toNat with hlt | heq | hgt
      · have hval : digitVal c < digitVal d := by
          unfold digitVal
          omega
        exact iff_of_true (.inl hlt) (numeral_cons_lt hval hlen' hs')
      · obtain rfl := UInt8.toNat_inj.mp heq
        show _ ↔ numeral (10 * 0 + digitVal c) s < numeral (10 * 0 + digitVal c) t
        rw [numeral_eq, numeral_eq _ t, hlen', Nat.add_lt_add_iff_left, ← ih hlen' hs' ht']
        exact ⟨fun h => h.elim (absurd · (lt_irrefl _)) And.right, fun h => .inr ⟨rfl, h⟩⟩
      · have hval : digitVal d < digitVal c := by
          unfold digitVal
          omega
        refine iff_of_false ?_ (numeral_cons_lt hval hlen'.symm ht').not_gt
        rintro (hlt | ⟨rfl, -⟩)
        · exact hgt.not_gt hlt
        · exact lt_irrefl _ hgt

end Tdm.Lib
