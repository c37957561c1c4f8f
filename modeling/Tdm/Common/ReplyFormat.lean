import Tdm.Common.SimPool

/-!
# The format of a reply

The backend writes a reply as four numbers, a bar and a body in brackets. `Data_Coing`
takes exactly this apart again, whatever delimiters of the header the body contains.
-/

namespace Tdm.Common

open Tdm.Lib

/-- The value of a C `int`. -/
structure Int32Value where
  val : ℤ
  lower : -2 ^ 31 ≤ val
  upper : val < 2 ^ 31

/-- The header of a reply. -/
def replyHeader (h t n r : Int32Value) : List UInt8 :=
  (text ",").intercalate ([h, t, n, r].map fun v => decimalInt v.val)

/-- A reply with the body `s`. -/
def replyText (h t n r : Int32Value) (s : List UInt8) : List UInt8 :=
  replyHeader h t n r ++ text "|[\x7b" ++ s ++ text "]"

section Header
variable (h t n r : Int32Value)

theorem tokens_replyHeader :
    tokens 44 (replyHeader h t n r) = [h, t, n, r].map fun v => decimalInt v.val := by
  apply tokens_intercalate
  intro token htoken
  obtain ⟨v, -, rfl⟩ := List.mem_map.mp htoken
  exact ⟨decimalInt_ne_nil v.val, notMem_decimalInt (by decide) (by decide) v.val⟩

theorem bar_notMem_replyHeader : 124 ∉ replyHeader h t n r := by
  have hnumber (v : Int32Value) : 124 ∉ decimalInt v.val :=
    notMem_decimalInt (by decide) (by decide) v.val
  apply notMem_intercalate (by decide)
  intro t ht
  obtain ⟨v, -, rfl⟩ := List.mem_map.mp ht
  exact hnumber v

theorem replyHeader_ne_nil : replyHeader h t n r ≠ [] := by
  have hcomma : text "," = [44] := by decide
  simp [replyHeader, hcomma, List.map_cons]

theorem codeHeader_replyHeader (data : JsonDate) :
    codeHeader data 0 (tokens 44 (replyHeader h t n r)) =
      { data with head := h.val, type := t.val, paraNum := n.val, result := r.val } := by
  rw [tokens_replyHeader]
  simp only [List.map_cons, List.map_nil, codeHeader, storeField]
  rw [atoi_decimalInt h.lower h.upper, atoi_decimalInt t.lower t.upper,
    atoi_decimalInt n.lower n.upper, atoi_decimalInt r.lower r.upper]

end Header

/-- The body token is a brace, the body and a bracket. -/
theorem codeBody_token (data : JsonDate) {s : List UInt8} (hs : s.length ≤ 512) :
    codeBody data (123 :: s ++ [93]) =
      some { data with len := s.length, data := data.data.overlay s hs } := by
  have hlen : ((((123 :: s ++ [93]).drop 1).length : ℕ) : ℤ) - 1 = s.length := by
    simp
  have htake : ((123 :: s ++ [93]).drop 1).take ((s.length : ℤ).toNat) = s := by
    simp
  unfold codeBody
  simp only [hlen, htake]
  rw [if_neg (by omega), CArray.memcpy_of_le _ hs]
  rfl

/-- `Data_Coing` on a reply sets the four numbers, the length and the text of the body, for
every body without an opening bracket. -/
theorem dataCoing_replyText (h t n r : Int32Value) {s : List UInt8} (hlen : s.length ≤ 511)
    (hbracket : 91 ∉ s) (hnul : 0 ∉ s) (data : JsonDate) :
    dataCoing (replyText h t n r s) data =
        some (r.val, ⟨h.val, t.val, n.val, r.val, s.length,
          data.data.overlay s (Nat.le_succ_of_le hlen)⟩) ∧
      (JsonDate.zero.data.overlay s (Nat.le_succ_of_le hlen)).cstr = some s := by
  have hsplit : replyText h t n r s =
      replyHeader h t n r ++ 124 :: 91 :: (123 :: s ++ [93]) := by
    have hbar : text "|[\x7b" = [124, 91, 123] := by decide
    have hend : text "]" = [93] := by decide
    simp [replyText, hbar, hend]
  have hne : replyText h t n r s ≠ [] := by
    rw [hsplit]
    simp
  have hbody : strtok 91 (91 :: (123 :: s ++ [93])) = some (123 :: s ++ [93], []) := by
    rw [strtok_delim]
    apply strtok_last (by simp)
    simp [hbracket]
  refine ⟨?_, ?_⟩
  · unfold dataCoing
    rw [if_neg hne, hsplit, strtok_append (replyHeader_ne_nil h t n r)
      (bar_notMem_replyHeader h t n r)]
    simp only [hbody, codeHeader_replyHeader]
    rw [codeBody_token _ (Nat.le_succ_of_le hlen)]
    rfl
  · show ((CArray.zero 512).overlay s _).cstr = some s
    rw [CArray.cstr_zero_overlay, if_pos (.inl (by omega)), CArray.takeWhile_of_notMem hnul]

/-- A refusal whose body holds the delimiters of the header. -/
theorem dataCoing_replyText_delimiters :
    (dataCoing (text "45445445,1001,12,-3|[\x7ba|b,\x7b]]") .zero).map (fun p => (p.1, p.2.len)) =
      some (-3, 6) := by
  have hreply : text "45445445,1001,12,-3|[\x7ba|b,\x7b]]" =
      replyText ⟨45445445, by decide, by decide⟩ ⟨1001, by decide, by decide⟩
        ⟨12, by decide, by decide⟩ ⟨-3, by decide, by decide⟩ (text "a|b,\x7b]") := by
    decide +kernel
  rw [hreply, (dataCoing_replyText _ _ _ _ (by decide) (by decide) (by decide) _).1]
  rfl

end Tdm.Common
