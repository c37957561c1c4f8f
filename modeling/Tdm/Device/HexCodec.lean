import Tdm.Device.Command
import Mathlib.Algebra.Group.Even
import Mathlib.Algebra.Ring.Parity

/-!
# The hexadecimal codec of `pravitelib.c`

`str2Hex` reads two characters in each round of a `do`-`while` loop and searches each of them
in two tables; the second character of a round may be the terminator, and so may the first
one of the only round an empty string gets. `str2HexLoop` is that loop on the memory the
string stands in. On strings it is `str2Hex` (`str2HexLoop_string`), and `str2Hex` undoes
`Hex2String` and is undone by it up to the case of the digits.
-/

namespace Tdm.Device

open Tdm.Lib Tdm.Common

/-! ## The loops of the source -/

def listCapital : List UInt8 := text "0123456789ABCDEF"

def listSmall : List UInt8 := text "0123456789abcdef"

/-- The search for a character in both tables from place `j` on, with `fuel` places left. The
result is the value of `j` behind the loop. -/
def tableLoop (c : UInt8) : ℕ → ℕ → ℕ
  | 0, j => j
  | fuel + 1, j =>
    if c = listCapital.getD j 0 ∨ c = listSmall.getD j 0 then j else tableLoop c fuel (j + 1)

/-- The value of a digit, 16 for any other character. -/
def nibble (c : UInt8) : ℕ := tableLoop c 16 0

/-- The loop of `str2Hex` behind `i` characters, on the memory `p_src` points at: its result and
the bytes it stores. Every round reads two bytes; there have to be two. -/
def str2HexLoop (srcLen : ℕ) : ℕ → List UInt8 → Option (ℤ × List UInt8)
  | i, a :: b :: rest =>
    if nibble a = 16 then some (0, [0])
    else if nibble b = 16 then some (0, [UInt8.ofNat (nibble a <<< 4)])
    else
      let byte := UInt8.ofNat (nibble a <<< 4 + nibble b)
      if i + 2 < srcLen then
        (str2HexLoop srcLen (i + 2) rest).map fun (ret, dst) => (ret, byte :: dst)
      else some (1, [byte])
  | _, _ => none

/-! ## Digits -/

/-- The search in the tables finds what `hexVal` computes. -/
theorem hexVal_eq_nibble (c : UInt8) :
    hexVal c = if nibble c = 16 then none else some (nibble c) := by
  apply forall_byte (P := fun c => hexVal c = if nibble c = 16 then none else some (nibble c))
  decide +kernel

theorem nibble_of_hexVal_none {c : UInt8} (h : hexVal c = none) : nibble c = 16 := by
  rw [hexVal_eq_nibble] at h
  by_contra hc
  rw [if_neg hc] at h
  cases h

theorem nibble_of_hexVal {c : UInt8} {v : ℕ} (h : hexVal c = some v) :
    nibble c ≠ 16 ∧ nibble c = v := by
  rw [hexVal_eq_nibble] at h
  split at h
  · cases h
  · rename_i hc
    exact ⟨hc, Option.some.inj h⟩

theorem hexVal_hexDigit : ∀ v, v < 16 → hexVal (hex2String.hexDigit v) = some v := by decide

theorem isSome_hexVal (c : UInt8) : (hexVal c).isSome = isXDigit c := by
  apply forall_byte (P := fun c => (hexVal c).isSome = isXDigit c)
  decide +kernel

/-- A digit is the capital digit of its value, up to its case. -/
theorem hexDigit_of_hexVal {c : UInt8} {v : ℕ} (h : hexVal c = some v) :
    v < 16 ∧ hex2String.hexDigit v = toUpper c := by
  have hall : ∀ c : UInt8, ∀ v ∈ hexVal c, v < 16 ∧ hex2String.hexDigit v = toUpper c :=
    forall_byte (by decide +kernel)
  exact hall c v h

/-! ## The loop on strings -/

/-- On a string with its terminator the loop is `str2Hex`. An empty string needs another byte
behind the terminator, since the first round is made without a test. -/
theorem str2HexLoop_string (s behind : List UInt8) (hread : s ≠ [] ∨ behind ≠ []) (i : ℕ) :
    str2HexLoop (i + s.length) i (s ++ 0 :: behind) = some (str2Hex s) := by
  have hzero : nibble 0 = 16 := by decide
  induction s using str2Hex.induct generalizing i with
  | case1 =>
    obtain ⟨x, xs, rfl⟩ := List.exists_cons_of_ne_nil (hread.resolve_left fun h => h rfl)
    rw [List.nil_append, str2HexLoop, if_pos hzero, str2Hex]
  | case2 a ha =>
    rw [List.singleton_append, str2HexLoop, if_pos (nibble_of_hexVal_none ha), str2Hex, ha]
  | case3 a high ha =>
    -- the terminator is the second character of the last round
    obtain ⟨hne, hval⟩ := nibble_of_hexVal ha
    rw [List.singleton_append, str2HexLoop, if_neg hne, if_pos hzero, hval, Nat.shiftLeft_eq,
      str2Hex, ha]
  | case4 a b rest ha =>
    rw [List.cons_append, List.cons_append, str2HexLoop, if_pos (nibble_of_hexVal_none ha), str2Hex,
      ha]
  | case5 a b rest high ha hb =>
    obtain ⟨hne, hval⟩ := nibble_of_hexVal ha
    rw [List.cons_append, List.cons_append, str2HexLoop, if_neg hne,
      if_pos (nibble_of_hexVal_none hb), hval, Nat.shiftLeft_eq, str2Hex, ha]
    simp only [hb]
  | case6 a b high ha low hb =>
    obtain ⟨hna, hva⟩ := nibble_of_hexVal ha
    obtain ⟨hnb, hvb⟩ := nibble_of_hexVal hb
    have hlast : ¬ i + 2 < i + [a, b].length := by
      rw [List.length_cons, List.length_singleton]
      omega
    rw [List.cons_append, List.singleton_append, str2HexLoop, if_neg hna, if_neg hnb, hva, hvb,
      Nat.shiftLeft_eq]
    simp only [if_neg hlast, str2Hex, ha, hb, if_true]
  | case7 a b rest high ha low hb hrest ih =>
    obtain ⟨hna, hva⟩ := nibble_of_hexVal ha
    obtain ⟨hnb, hvb⟩ := nibble_of_hexVal hb
    have hpos := List.length_pos_of_ne_nil hrest
    have hmore : i + 2 < i + (a :: b :: rest).length := by
      rw [List.length_cons, List.length_cons]
      omega
    have hlen : i + (a :: b :: rest).length = i + 2 + rest.length := by
      rw [List.length_cons, List.length_cons]
      omega
    rw [List.cons_append, List.cons_append, str2HexLoop, if_neg hna, if_neg hnb, hva, hvb,
      Nat.shiftLeft_eq]
    simp only [if_pos hmore]
    rw [hlen, ih (.inl hrest) (i + 2)]
    simp only [Option.map_some, str2Hex, ha, hb, hrest, if_false]

/-! ## Both directions -/

theorem length_hex2String (src : List UInt8) : (hex2String src).length = 2 * src.length := by
  induction src with
  | nil => rfl
  | cons b src ih =>
    rw [List.length_cons, Nat.mul_succ, ← ih, Nat.add_comm]
    exact List.length_append

theorem hex2String_cons (b : UInt8) (src : List UInt8) :
    hex2String (b :: src) = hex2String.hexDigit (b.toNat / 16) ::
      hex2String.hexDigit (b.toNat % 16) :: hex2String src := List.flatMap_cons

/-- Decoding undoes encoding. -/
theorem str2Hex_hex2String {b : List UInt8} (hne : b ≠ []) : str2Hex (hex2String b) = (1, b) := by
  induction b with
  | nil => exact absurd rfl hne
  | cons c b ih =>
    have hc := c.toNat_lt
    have hbyte : UInt8.ofNat (c.toNat / 16 * 16 + c.toNat % 16) = c := by
      rw [show c.toNat / 16 * 16 + c.toNat % 16 = c.toNat by omega, UInt8.ofNat_toNat]
    rw [hex2String_cons, str2Hex, hexVal_hexDigit _ (by omega)]
    simp only [hexVal_hexDigit _ (show c.toNat % 16 < 16 by omega), hbyte]
    rcases eq_or_ne b [] with rfl | hb
    · rfl
    · have hrest : hex2String b ≠ [] := by
        intro h
        have hlen := length_hex2String b
        have hpos := List.length_pos_of_ne_nil hb
        rw [h, List.length_nil] at hlen
        omega
      rw [if_neg hrest, ih hb]

/-- Encoding undoes decoding, up to the case of the digits. -/
theorem hex2String_str2Hex (s : List UInt8) (h : (str2Hex s).1 = 1) :
    (str2Hex s).2.length = s.length / 2 ∧ hex2String (str2Hex s).2 = s.map toUpper := by
  have hpair {a b : UInt8} {high low : ℕ} (ha : hexVal a = some high) (hb : hexVal b = some low)
      (bytes : List UInt8) : hex2String (UInt8.ofNat (high * 16 + low) :: bytes) =
        toUpper a :: toUpper b :: hex2String bytes := by
    obtain ⟨hhigh, hupa⟩ := hexDigit_of_hexVal ha
    obtain ⟨hlow, hupb⟩ := hexDigit_of_hexVal hb
    have hbyte : (UInt8.ofNat (high * 16 + low)).toNat = high * 16 + low := by
      rw [UInt8.toNat_ofNat']
      omega
    rw [hex2String_cons, hbyte, show (high * 16 + low) / 16 = high by omega,
      show (high * 16 + low) % 16 = low by omega, hupa, hupb]
  induction s using str2Hex.induct with
  -- a text that is empty, odd or has another character is not accepted
  | case1 => exact absurd h (by decide)
  | case2 a ha => simp [str2Hex, ha] at h
  | case3 a high ha => simp [str2Hex, ha] at h
  | case4 a b rest ha => simp [str2Hex, ha] at h
  | case5 a b rest high ha hb => simp [str2Hex, ha, hb] at h
  | case6 a b high ha low hb =>
    simp only [str2Hex, ha, hb, if_true]
    exact ⟨by simp, hpair ha hb []⟩
  | case7 a b rest high ha low hb hrest ih =>
    simp only [str2Hex, ha, hb, hrest, if_false] at h ⊢
    obtain ⟨hlen, hcode⟩ := ih h
    refine ⟨?_, ?_⟩
    · rw [List.length_cons, hlen, List.length_cons, List.length_cons]
      omega
    · rw [hpair ha hb, hcode, List.map_cons, List.map_cons]

/-- The texts that are accepted. -/
theorem str2Hex_accepts (s : List UInt8) :
    (str2Hex s).1 = 1 ↔ s ≠ [] ∧ Even s.length ∧ ∀ c ∈ s, isXDigit c = true := by
  have hdigit {c : UInt8} {v : ℕ} (h : hexVal c = some v) : isXDigit c = true := by
    rw [← isSome_hexVal, h, Option.isSome_some]
  have hother {c : UInt8} (h : hexVal c = none) : isXDigit c = false := by
    rw [← isSome_hexVal, h, Option.isSome_none]
  induction s using str2Hex.induct with
  | case1 => simp [str2Hex]
  | case2 a ha => simp [str2Hex, ha]
  | case3 a high ha => simp [str2Hex, ha]
  | case4 a b rest ha => simp [str2Hex, ha, hother ha]
  | case5 a b rest high ha hb => simp [str2Hex, ha, hb, hother hb]
  | case6 a b high ha low hb => simp [str2Hex, ha, hb, hdigit ha, hdigit hb]
  | case7 a b rest high ha low hb hrest ih =>
    have heven : Even (a :: b :: rest).length ↔ Even rest.length := by
      rw [List.length_cons, List.length_cons, Nat.even_add_one, Nat.even_add_one, not_not]
    rw [heven]
    simp [str2Hex, ha, hb, hrest, ih, hdigit ha, hdigit hb]

/-- `str2Hex` and `Hex2String` are inverse to each other: between the non-empty byte strings and
the non-empty texts of an even number of digits, up to the case of the digits. Nothing else
is accepted. -/
theorem hex_codec_bijective :
    (∀ b : List UInt8, b ≠ [] → (hex2String b).length = 2 * b.length ∧
      ∀ behind, str2HexLoop (2 * b.length) 0 (hex2String b ++ 0 :: behind) = some (1, b)) ∧
    ∀ s behind : List UInt8, 0 ∉ s →
      ((∃ dst, str2HexLoop s.length 0 (s ++ 0 :: behind) = some (1, dst)) ↔
        s ≠ [] ∧ Even s.length ∧ ∀ c ∈ s, isXDigit c = true) ∧
      ∀ dst, str2HexLoop s.length 0 (s ++ 0 :: behind) = some (1, dst) →
        dst.length = s.length / 2 ∧ hex2String dst = s.map toUpper := by
  -- a result of 1 is the result of `str2Hex` on a string that is not empty
  have hone (s behind dst : List UInt8) :
      str2HexLoop s.length 0 (s ++ 0 :: behind) = some (1, dst) ↔ str2Hex s = (1, dst) := by
    rcases eq_or_ne s [] with rfl | hne
    · cases behind with
      | nil => simp [str2HexLoop, str2Hex]
      | cons x xs => simp [str2HexLoop, str2Hex, show nibble 0 = 16 by decide]
    · have hloop := str2HexLoop_string s behind (.inl hne) 0
      rw [Nat.zero_add] at hloop
      rw [hloop, Option.some.injEq]
  refine ⟨fun b hne => ⟨length_hex2String b, fun behind => ?_⟩, fun s behind _ => ⟨?_, ?_⟩⟩
  · rw [← length_hex2String, hone]
    exact str2Hex_hex2String hne
  · rw [← str2Hex_accepts]
    constructor
    · rintro ⟨dst, h⟩
      rw [(hone s behind dst).mp h]
    · intro h
      exact ⟨(str2Hex s).2, (hone s behind _).mpr (Prod.ext h rfl)⟩
  · intro dst h
    have hcode := (hone s behind dst).mp h
    have hback := hex2String_str2Hex s (by rw [hcode])
    rwa [hcode] at hback

/-- An IMSI in digits of both cases. -/
theorem hex_codec_bijective_mixed :
    str2HexLoop 4 0 (text "8aF0" ++ 0 :: []) = some (1, [0x8A, 0xF0]) ∧
      hex2String [0x8A, 0xF0] = (text "8aF0").map toUpper := by
  have hcode : str2HexLoop 4 0 (text "8aF0" ++ 0 :: []) = some (1, [0x8A, 0xF0]) := by decide
  exact ⟨hcode, ((hex_codec_bijective.2 (text "8aF0") [] (by decide)).2 _ hcode).2⟩

end Tdm.Device
