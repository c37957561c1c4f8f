import Tdm.Device.GrantedLogin
import Tdm.Common.Verdict

/-!
# The feature byte of a login

`AccessAuth_Result_Pack` joins four bytes of the node to one of five bits. Each of the four is
filled by a rule of its own: `IsApn` and `IsNet` by the length of a text, `ifVPN` by a `switch`
without default, `speedType` by the number of the deal itself, of which only 1 is replaced. Two
of them may be run over by a text that is stored before them.
-/

namespace Tdm.Device

open Tdm.Lib Tdm.Common

/-- What a deal says about the features. -/
structure Features where
  apn : List UInt8
  selnet : List UInt8
  speedType : ℤ
  ifVPN : ℤ
  imsi : List UInt8
deriving DecidableEq

/-- A text that is not in the deal counts as empty. -/
def Features.ofDeal (src : List UInt8) : Option Features := do
  return {
    apn := (← getKey src (text "APN")).getD []
    selnet := (← getKey src (text "Selnet")).getD []
    speedType := ← getKeyValueInt src (text "speedType")
    ifVPN := ← getKeyValueInt src (text "ifVPN")
    imsi := (← getKey src (text "IMSI")).getD [] }

/-- Each bit stands for its feature. -/
structure Features.Decodable (p : Features) (byte : ℕ) : Prop where
  apn : byte.testBit 0 = true ↔ 3 < p.apn.length
  selnet : byte.testBit 1 = true ↔ 4 < p.selnet.length
  speedType : byte.testBit 2 = true ↔ p.speedType = 1
  vpn : byte.testBit 3 = true ↔ p.ifVPN = 1
  vpn2 : byte.testBit 4 = true ↔ p.ifVPN = 2
  others : ∀ k, 5 ≤ k → byte.testBit k = false

/-! ## Bits -/

/-- Bit `k`, if the condition holds. -/
def flag (k : ℕ) (c : Bool) : ℕ := if c then 2 ^ k else 0

theorem testBit_flag (k : ℕ) (c : Bool) (j : ℕ) :
    (flag k c).testBit j = (c && decide (k = j)) := by
  unfold flag
  cases c with
  | false => simp
  | true => simp [Nat.testBit_two_pow]

/-- Some bits of `e` are lost and stray ones come in: `e` is left exactly if the stray ones are
bits of `e` and make up for the lost ones. -/
theorem or_eq_iff {kept lost stray e : ℕ} (he : kept ||| lost = e) (hdisj : kept &&& lost = 0) :
    kept ||| stray = e ↔ (∀ k, stray.testBit k = true → e.testBit k = true) ∧
      ∀ k, lost.testBit k = true → stray.testBit k = true := by
  have hbit (k : ℕ) : e.testBit k = (kept.testBit k || lost.testBit k) := by
    rw [← he, Nat.testBit_or]
  have hapart (k : ℕ) : (kept.testBit k && lost.testBit k) = false := by
    rw [← Nat.testBit_and, hdisj, Nat.zero_testBit]
  constructor
  · intro h
    have hk (k : ℕ) : (kept.testBit k || stray.testBit k) = e.testBit k := by
      rw [← h, Nat.testBit_or]
    refine ⟨fun k hs => ?_, fun k hl => ?_⟩
    · rw [← hk, hs, Bool.or_true]
    · have hkept := hapart k
      have := hk k
      rw [hbit, hl, Bool.or_true] at this
      rw [hl, Bool.and_true] at hkept
      rwa [hkept, Bool.false_or] at this
  · rintro ⟨hstray, hlost⟩
    apply Nat.eq_of_testBit_eq
    intro k
    have hs := hstray k
    have hl := hlost k
    rw [Nat.testBit_or, hbit] at *
    cases hkept : kept.testBit k <;> cases hstray : stray.testBit k <;>
      cases hlost : lost.testBit k <;> simp_all

namespace Features

variable (p : Features)

/-- The bits a device should see. -/
def expected : ℕ :=
  flag 0 (3 < p.apn.length) ||| flag 1 (4 < p.selnet.length) ||| flag 2 (p.speedType = 1) |||
    flag 3 (p.ifVPN = 1) ||| flag 4 (p.ifVPN = 2)

/-- The byte of `Selnet` in `IsApn`. -/
def overApn : Option UInt8 := p.selnet[22]?

/-- The byte of the IMSI in `ifVPN`. -/
def overVPN : Option UInt8 := p.imsi[19]?

/-- The bits of a deal that reach the answer. -/
def kept : ℕ :=
  (if p.overApn.isSome then 0 else flag 0 (3 < p.apn.length)) ||| flag 1 (4 < p.selnet.length) |||
    flag 2 (p.speedType = 1) |||
    (if p.overVPN.isSome then 0 else flag 3 (p.ifVPN = 1) ||| flag 4 (p.ifVPN = 2))

/-- The bits that a text has run over. -/
def lost : ℕ :=
  (if p.overApn.isSome then flag 0 (3 < p.apn.length) else 0) |||
    (if p.overVPN.isSome then flag 3 (p.ifVPN = 1) ||| flag 4 (p.ifVPN = 2) else 0)

/-- The bits that stand for no feature: those of a `speedType` other than 1, those of an `ifVPN`
that is 1 or 2 in its low byte only, and those of the two bytes of text. -/
def stray : ℕ :=
  maskNum &&& ((p.overApn.elim 0 UInt8.toNat) |||
    (if p.speedType = 1 then 0
      else if p.speedType % 256 = 1 then 4 else (p.speedType % 256).toNat) |||
    p.overVPN.elim (if p.ifVPN = 1 ∨ p.ifVPN = 2 then 0 else vpnByte p.ifVPN 0) UInt8.toNat)

/-- The three numbers are or-ed from seven conditions. -/
theorem kept_spec : maskNum &&& p.kept = p.kept ∧ p.kept ||| p.lost = p.expected ∧
    p.kept &&& p.lost = 0 := by
  have hall : ∀ hitApn hitVPN a b c d e : Bool,
      let kept := (if hitApn then 0 else flag 0 a) ||| flag 1 b ||| flag 2 c |||
        (if hitVPN then 0 else flag 3 d ||| flag 4 e)
      let lost := (if hitApn then flag 0 a else 0) ||| (if hitVPN then flag 3 d ||| flag 4 e else 0)
      maskNum &&& kept = kept ∧
        kept ||| lost = flag 0 a ||| flag 1 b ||| flag 2 c ||| flag 3 d ||| flag 4 e ∧
        kept &&& lost = 0 := by decide
  exact hall ..

theorem testBit_expected (k : ℕ) : p.expected.testBit k =
    (decide (3 < p.apn.length) && decide (0 = k) || decide (4 < p.selnet.length) && decide (1 = k) ||
      decide (p.speedType = 1) && decide (2 = k) || decide (p.ifVPN = 1) && decide (3 = k) ||
      decide (p.ifVPN = 2) && decide (4 = k)) := by
  simp only [expected, Nat.testBit_or, testBit_flag]

theorem decodable_expected : p.Decodable p.expected where
  apn := by rw [testBit_expected]; simp
  selnet := by rw [testBit_expected]; simp
  speedType := by rw [testBit_expected]; simp
  vpn := by rw [testBit_expected]; simp
  vpn2 := by rw [testBit_expected]; simp
  others := by
    intro k hk
    have hne : 0 ≠ k ∧ 1 ≠ k ∧ 2 ≠ k ∧ 3 ≠ k ∧ 4 ≠ k := by omega
    rw [testBit_expected]
    simp [hne]

theorem decodable_iff (byte : ℕ) : p.Decodable byte ↔ byte = p.expected := by
  constructor
  · intro h
    have h' := p.decodable_expected
    apply Nat.eq_of_testBit_eq
    intro k
    match k with
    | 0 => exact Bool.eq_iff_iff.mpr (h.apn.trans h'.apn.symm)
    | 1 => exact Bool.eq_iff_iff.mpr (h.selnet.trans h'.selnet.symm)
    | 2 => exact Bool.eq_iff_iff.mpr (h.speedType.trans h'.speedType.symm)
    | 3 => exact Bool.eq_iff_iff.mpr (h.vpn.trans h'.vpn.symm)
    | 4 => exact Bool.eq_iff_iff.mpr (h.vpn2.trans h'.vpn2.symm)
    | k + 5 => rw [h.others (k + 5) (by omega), h'.others (k + 5) (by omega)]
  · rintro rfl
    exact p.decodable_expected

/-- Stray bits are expected ones, and lost bits are among the stray ones. -/
def Undisturbed : Prop :=
  (∀ k, p.stray.testBit k = true → p.expected.testBit k = true) ∧
    ∀ k, p.lost.testBit k = true → p.stray.testBit k = true

end Features

/-! ## The byte of a granted login -/

variable {src frame : List UInt8} {p : Features}

/-- The five keys of a deal. -/
theorem Features.ofDeal_eq (h : Features.ofDeal src = some p) :
    ∃ apn sel imsi, getKey src (text "APN") = some apn ∧ getKey src (text "Selnet") = some sel ∧
      getKeyValueInt src (text "speedType") = some p.speedType ∧
      getKeyValueInt src (text "ifVPN") = some p.ifVPN ∧ getKey src (text "IMSI") = some imsi ∧
      p.apn = apn.getD [] ∧ p.selnet = sel.getD [] ∧ p.imsi = imsi.getD [] := by
  obtain ⟨apn, hapn, h⟩ := Option.bind_eq_some_iff.mp h
  obtain ⟨sel, hsel, h⟩ := Option.bind_eq_some_iff.mp h
  obtain ⟨t, ht, h⟩ := Option.bind_eq_some_iff.mp h
  obtain ⟨v, hv, h⟩ := Option.bind_eq_some_iff.mp h
  obtain ⟨imsi, himsi, h⟩ := Option.bind_eq_some_iff.mp h
  obtain rfl := Option.some.inj h
  exact ⟨apn, sel, imsi, hapn, hsel, ht, hv, himsi, rfl, rfl, rfl⟩

theorem longer_eq_nil_iff (len : ℕ) (t : Option (List UInt8)) :
    Deal.longer len t = [] ↔ ¬ len < (t.getD []).length := by
  cases t with
  | none => simp [Deal.longer]
  | some value =>
    simp only [Deal.longer, Option.getD_some]
    split
    · rename_i hlen
      exact iff_of_false (List.ne_nil_of_length_pos (by omega)) (not_not.mpr hlen)
    · rename_i hlen
      exact iff_of_true rfl hlen

theorem flag_longer (k len : ℕ) (t : Option (List UInt8)) :
    (if Deal.longer len t = [] then 0 else 2 ^ k) = flag k (len < (t.getD []).length) := by
  rw [flag]
  by_cases hlen : len < (t.getD []).length
  · rw [if_neg (mt (longer_eq_nil_iff len t).mp (not_not.mpr hlen)), if_pos (decide_eq_true hlen)]
  · rw [if_pos ((longer_eq_nil_iff len t).mpr hlen), if_neg (by rwa [decide_eq_true_eq])]

/-- Bytes far behind the least length are those of the text. -/
theorem getElem?_longer {len k : ℕ} (hk : len ≤ k) (t : Option (List UInt8)) :
    (Deal.longer len t)[k]? = (t.getD [])[k]? := by
  cases t with
  | none => rfl
  | some value =>
    simp only [Deal.longer, Option.getD_some]
    split
    · rfl
    · rw [List.getElem?_nil, List.getElem?_eq_none (by omega)]

/-- The feature byte of a node without network selection and VPN to which the deal was granted. -/
theorem featureByte_granted {node a b c d e node' : DataSpm} (hp : Features.ofDeal src = some p)
    (h : GrantedRun src node a b c d e node') (hnet : node.mem.getNat Member.isNet = 0)
    (hvpn : node.mem.getNat Member.ifVPN = 0) : featureByte node' = p.kept ||| p.stray := by
  obtain ⟨apn, sel, imsi, hapn, hsel, ht, hv, himsi, hapn', hsel', himsi'⟩ := Features.ofDeal_eq hp
  obtain ⟨apn₁, sel₁, hapn₁, hsel₁, hA⟩ := h.isApn
  obtain ⟨sel₂, hsel₂, hN⟩ := h.isNet
  obtain ⟨t, ht₁, hS⟩ := h.speedType
  obtain ⟨v, imsi₁, hv₁, himsi₁, hV⟩ := h.ifVPN
  obtain rfl := Option.some.inj (hapn.symm.trans hapn₁)
  obtain rfl := Option.some.inj (hsel.symm.trans hsel₁)
  obtain rfl := Option.some.inj (hsel.symm.trans hsel₂)
  obtain rfl := Option.some.inj (ht.symm.trans ht₁)
  obtain rfl := Option.some.inj (hv.symm.trans hv₁)
  obtain rfl := Option.some.inj (himsi.symm.trans himsi₁)
  -- each of the four bytes is what the deal asks for, or-ed with what is stray
  have hapnByte : node'.mem.getNat Member.isApn =
      (if p.overApn.isSome then 0 else flag 0 (3 < p.apn.length)) |||
        p.overApn.elim 0 UInt8.toNat := by
    rw [hA, getElem?_longer (by decide), ← hsel', Features.overApn, hapn']
    cases p.selnet[22]? with
    | none => exact (flag_longer 0 3 apn).trans (Nat.or_zero _).symm
    | some c => exact (Nat.zero_or _).symm
  have hnetByte : node'.mem.getNat Member.isNet = flag 1 (4 < p.selnet.length) := by
    rw [hN, hnet, hsel']
    exact flag_longer 1 4 sel
  have hspeedByte : node'.mem.getNat Member.speedType = flag 2 (p.speedType = 1) |||
      (if p.speedType = 1 then 0
        else if p.speedType % 256 = 1 then 4 else (p.speedType % 256).toNat) := by
    rw [hS]
    by_cases hone : p.speedType = 1
    · simp [hone, flag]
    · simp [hone, flag]
  have hvpnByte : node'.mem.getNat Member.ifVPN =
      (if p.overVPN.isSome then 0 else flag 3 (p.ifVPN = 1) ||| flag 4 (p.ifVPN = 2)) |||
        p.overVPN.elim (if p.ifVPN = 1 ∨ p.ifVPN = 2 then 0 else vpnByte p.ifVPN 0)
          UInt8.toNat := by
    rw [hV, hvpn, ← himsi', Features.overVPN]
    cases p.imsi[19]? with
    | none =>
      by_cases hone : p.ifVPN = 1
      · simp [hone, flag, vpnByte]
      · by_cases htwo : p.ifVPN = 2
        · simp [htwo, flag, vpnByte]
        · simp [hone, htwo, flag]
    | some c => exact (Nat.zero_or _).symm
  obtain ⟨hmask, -, -⟩ := p.kept_spec
  unfold featureByte
  rw [hapnByte, hnetByte, hspeedByte, hvpnByte]
  calc _ = maskNum &&& (p.kept ||| (p.overApn.elim 0 UInt8.toNat |||
        (if p.speedType = 1 then 0
          else if p.speedType % 256 = 1 then 4 else (p.speedType % 256).toNat) |||
        p.overVPN.elim (if p.ifVPN = 1 ∨ p.ifVPN = 2 then 0 else vpnByte p.ifVPN 0)
          UInt8.toNat)) := by
        unfold Features.kept
        ac_rfl
    _ = p.kept ||| p.stray := by
        rw [Nat.and_or_distrib_left, hmask]
        rfl

/-- The feature byte of a `TD_Result_t` behind a header. -/
theorem exists_unused0 (para : CArray 36) :
    ∃ byte : UInt8, ([0x91, 36, 0, 0x31] ++ para.bytes)[9]? = some byte ∧
      byte.toNat = para.getNat TdResult.unused0 := by
  have hlt : 5 < para.bytes.length := by
    rw [para.size]
    decide
  have hbyte : para.bytes[5]? = some para.bytes[5] := List.getElem?_eq_getElem hlt
  exact ⟨para.bytes[5], hbyte, (CArray.getNat_of_byte rfl hbyte).symm⟩

theorem unused0_tdResult (node : DataSpm) (para1 : CArray 12) :
    (tdResult node para1).getNat TdResult.unused0 = featureByte node := by
  have hlt : featureByte node < 256 ^ TdResult.unused0.size :=
    Nat.lt_of_le_of_lt Nat.and_le_left (by decide)
  unfold tdResult
  simp only
  split <;>
    simp (disch := decide) only [CArray.getNat_setNat_of_disjoint,
      CArray.getNat_copyField_of_disjoint, CArray.getNat_setNat_self, Nat.mod_eq_of_lt hlt]

/-- A node as it is made for a device that is seen for the first time. -/
def freshNode (sn : SnArg) : DataSpm := initDataSpm.copySN sn

/-- An APN, a limit on the speed and a VPN. -/
def featuresReply : Exchange :=
  .reply (text "333,1001,12,0|[\x7b\"APN\":\"internet\",\"speedType\":\"1\",\"ifVPN\":\"2\"\x7d]")
    (by decide +kernel) (by decide +kernel)

/-- A speed of type 2, no network selection. -/
def speedReply : Exchange :=
  .reply (text "333,1001,12,0|[\x7b\"speedType\":\"2\"\x7d]") (by decide +kernel)
    (by decide +kernel)

/-- A login from country 310. -/
def firstRequest : NodeData :=
  ⟨0, 5, 0, CArray.zero 16, CArray.zero 12,
    (CArray.zero 256).overlay [0x36, 1] NodeData.country_fits⟩

def firstSN : SnArg := ⟨text "172150210000937", fifteen_le_serial⟩

end Tdm.Device
