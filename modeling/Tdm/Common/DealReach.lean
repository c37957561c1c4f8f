import Tdm.Common.DealEffect
import Tdm.Lib.Footprint

/-!
# How far a deal reaches

A text of a deal has at most 63 bytes and is copied with its own length, so it may run over
the members behind the one it is for. The footprint of each helper of `Get_Data_From_Deal`
says how far it may get, whatever the deal is. A deal that is granted in the end was tame:
its text for `ServerInfo` is short and its `speedStr` has not reached `factoryFlag`.
-/

namespace Tdm.Common

open Tdm.Lib

/-- The bytes a copy of at most `k` bytes to a member may cover. -/
def spread (k : ℕ) (f : Member) : Member :=
  ⟨f.off, min k (dataSpmSize - f.off), by have := f.fits; omega⟩

section Helpers
variable {src : List UInt8} {node node' : DataSpm}

theorem touches_copyTo {f : Member} {value : List UInt8} {k : ℕ} (hlen : value.length ≤ k)
    (h : node.copyTo f value = some node') : node.mem.Touches [spread k f] node'.mem := by
  obtain ⟨mem, hmem, rfl⟩ := Option.map_eq_some_iff.mp h
  obtain ⟨hfit, -⟩ := CArray.copyTo_eq_some.mp hmem
  have hspread : value.length ≤ (spread k f).size := by
    show value.length ≤ min k (dataSpmSize - f.off)
    omega
  exact (CArray.Touches.refl [spread k f] node.mem).copyTo (f := f) (List.mem_singleton_self _) rfl
    hspread hmem

theorem length_of_copyTo {f : Member} {value : List UInt8}
    (h : node.copyTo f value = some node') : value.length ≤ dataSpmSize := by
  obtain ⟨mem, hmem, -⟩ := Option.map_eq_some_iff.mp h
  obtain ⟨hfit, -⟩ := CArray.copyTo_eq_some.mp hmem
  omega

/-- The text of a key fits `Key[64]` with its terminator. -/
theorem length_of_getKey {key value : List UInt8} (h : getKey src key = some (some value)) :
    value.length ≤ 63 := Nat.le_of_lt_succ (Deal.getKeyValue_of_getKey h).2

/-- `Get_Key_Value_Str` stores the text, if it is long enough. -/
theorem getKeyValueStr_cases {key : List UInt8} {f : Member} {len k : ℕ}
    (h : getKeyValueStr src key f len node = some (k, node')) :
    ∃ t, getKey src key = some t ∧
      ((Deal.longer len t = [] ∧ k = 0 ∧ node' = node) ∨
        (Deal.longer len t ≠ [] ∧ k = 1 ∧ node.copyTo f (Deal.longer len t) = some node')) := by
  obtain ⟨t, ht, h⟩ := Option.bind_eq_some_iff.mp h
  refine ⟨t, ht, ?_⟩
  cases t with
  | none =>
    cases h
    exact .inl ⟨rfl, rfl, rfl⟩
  | some value =>
    have hlonger : Deal.longer len (some value) = if len < value.length then value else [] := rfl
    dsimp only at h
    rw [hlonger]
    split at h
    · rename_i hlen
      obtain ⟨stored, hstored, h⟩ := Option.bind_eq_some_iff.mp h
      cases h
      rw [if_pos hlen]
      exact .inr ⟨List.ne_nil_of_length_pos (by omega), rfl, hstored⟩
    · rename_i hlen
      cases h
      exact .inl ⟨if_neg hlen, rfl, rfl⟩

theorem touches_getKeyValueStr {key : List UInt8} {f : Member} {len k : ℕ}
    (h : getKeyValueStr src key f len node = some (k, node')) :
    node.mem.Touches [spread 63 f] node'.mem := by
  obtain ⟨t, ht, ⟨-, -, rfl⟩ | ⟨-, -, hcopy⟩⟩ := getKeyValueStr_cases h
  · exact .refl _ _
  · exact touches_copyTo (Deal.length_longer_le_of_getKey ht) hcopy

theorem touches_getKeyValueVPN (h : getKeyValueVPN src node = some node') :
    node.mem.Touches [Member.vpn, Member.ifVPN] node'.mem := by
  obtain ⟨v, -, h⟩ := Option.bind_eq_some_iff.mp h
  have hset : node.mem.Touches [Member.vpn, Member.ifVPN] (node.setInt Member.vpn v).mem :=
    (CArray.Touches.refl _ _).setInt (by simp) v
  dsimp only at h
  split at h <;> cases h
  · exact hset.setNat (by simp) _
  · exact hset.setNat (by simp) _
  · exact hset.setNat (by simp) _
  · exact hset

/-- `ServerInfo` is copied with any length. -/
theorem touches_getKeyValueFactory (h : getKeyValueFactory src node = some node') :
    node.mem.Touches [Member.factoryFlag, spread dataSpmSize Member.serverInfo] node'.mem := by
  obtain ⟨v, -, h⟩ := Option.bind_eq_some_iff.mp h
  have hset : node.mem.Touches [Member.factoryFlag, spread dataSpmSize Member.serverInfo]
      (node.setInt Member.factoryFlag v).mem := (CArray.Touches.refl _ _).setInt (by simp) v
  dsimp only at h
  split at h
  · have hclear : node.mem.Touches [Member.factoryFlag, spread dataSpmSize Member.serverInfo]
        ((node.setInt Member.factoryFlag v).setNat Member.serverInfo 0).mem := by
      have hboth : node.mem.Touches [Member.factoryFlag, Member.serverInfo]
          ((node.setInt Member.factoryFlag v).setNat Member.serverInfo 0).mem :=
        ((CArray.Touches.refl _ _).setInt (by simp) v).setNat (by simp) 0
      exact hboth.within (by decide)
    -- what follows once `serverInfo` is stored, or is not
    have hchecked : ∀ stored : DataSpm,
        node.mem.Touches [Member.factoryFlag, spread dataSpmSize Member.serverInfo] stored.mem →
        (stored.mem.cstrAt Member.serverInfo).bind (fun info =>
          if info.length < 10 then some (stored.setNat Member.factoryFlag 0)
          else some stored) = some node' →
        node.mem.Touches [Member.factoryFlag, spread dataSpmSize Member.serverInfo] node'.mem := by
      intro stored hstored h
      obtain ⟨info, -, h⟩ := Option.bind_eq_some_iff.mp h
      split at h <;> cases h
      · exact hstored.setNat (by simp) _
      · exact hstored
    obtain ⟨found, -, h⟩ := Option.bind_eq_some_iff.mp h
    cases found with
    | error e => exact hchecked _ hclear h
    | ok value =>
      obtain ⟨stored, hstored, h⟩ := Option.bind_eq_some_iff.mp h
      have hcopy := touches_copyTo (length_of_copyTo hstored) hstored
      exact hchecked stored (hclear.trans (hcopy.mono (by simp))) h
  · cases h
    exact hset

theorem touches_getKeyValueIPAndPort (h : getKeyValueIPAndPort src node = some node') :
    node.mem.Touches [spread 63 Member.ip, Member.portInt] node'.mem := by
  obtain ⟨found, hfound, h⟩ := Option.bind_eq_some_iff.mp h
  cases found with
  | none =>
    cases h
    exact .refl _ _
  | some value =>
    dsimp only at h
    split at h
    · cases h
      exact .refl _ _
    · rename_i ip rest htok
      obtain ⟨stored, hstored, h⟩ := Option.bind_eq_some_iff.mp h
      have hlen : ip.length ≤ 63 :=
        (length_of_mem_strtok htok).trans (length_of_getKey hfound)
      have hip : node.mem.Touches [spread 63 Member.ip, Member.portInt] stored.mem :=
        (touches_copyTo hlen hstored).mono (by simp)
      split at h <;> cases h
      · exact hip
      · exact hip.setInt (by simp) _

theorem touches_getKeyValueStrType (h : getKeyValueStrType src node = some node') :
    node.mem.Touches [Member.simBankID, Member.channelID] node'.mem := by
  obtain ⟨found, -, h⟩ := Option.bind_eq_some_iff.mp h
  cases found with
  | none =>
    cases h
    exact .refl _ _
  | some value =>
    dsimp only at h
    split at h
    · cases h
      exact .refl _ _
    · have hbank : ∀ v, node.mem.Touches [Member.simBankID, Member.channelID]
          (node.setInt Member.simBankID v).mem :=
        fun v => (CArray.Touches.refl _ _).setInt (by simp) v
      split at h <;> cases h
      · exact hbank _
      · exact (hbank _).setInt (by simp) _

theorem touches_getKeyValueVusimActiveFlag
    (h : getKeyValueVusimActiveFlag src node = some node') :
    node.mem.Touches [Member.vusimActiveFlag, spread 63 Member.vusimActiveNum] node'.mem := by
  -- what follows once the flag is stored, or is not
  have hnumber : ∀ (flagged : DataSpm) (store : Option (List UInt8) → Option DataSpm),
      node.mem.Touches [Member.vusimActiveFlag, spread 63 Member.vusimActiveNum] flagged.mem →
      store none = some flagged →
      (∀ value, store (some value) =
        if 9 < value.length then flagged.copyTo Member.vusimActiveNum value
        else some (flagged.setNat Member.vusimActiveFlag 0)) →
      (if flagged.mem.getNat Member.vusimActiveFlag = 1 then
        (getKey src (text "Vusim_Active_Num")).bind store
      else some flagged) = some node' →
      node.mem.Touches [Member.vusimActiveFlag, spread 63 Member.vusimActiveNum] node'.mem := by
    intro flagged store hflagged hnone hsome h
    split at h
    · obtain ⟨num, hnum, h⟩ := Option.bind_eq_some_iff.mp h
      cases num with
      | none =>
        rw [hnone] at h
        cases h
        exact hflagged
      | some value =>
        rw [hsome] at h
        split at h
        · exact hflagged.trans ((touches_copyTo (length_of_getKey hnum) h).mono (by simp))
        · cases h
          exact hflagged.setNat (by simp) _
    · cases h
      exact hflagged
  obtain ⟨found, -, h⟩ := Option.bind_eq_some_iff.mp h
  cases found with
  | none =>
    refine hnumber node _ (.refl _ _) ?_ ?_ h
    · rfl
    · exact fun _ => rfl
  | some value =>
    refine hnumber _ _ ((CArray.Touches.refl _ _).setNat (by simp) _) ?_ ?_ h
    · rfl
    · exact fun _ => rfl

theorem touches_getKeyValueIMEI (h : getKeyValueIMEI src node = some node') :
    node.mem.Touches [Member.imei] node'.mem := by
  obtain ⟨found, -, h⟩ := Option.bind_eq_some_iff.mp h
  cases found with
  | none =>
    cases h
    exact .refl _ _
  | some value =>
    cases h
    exact (CArray.Touches.refl _ _).setInt (by simp) _

/-- `str2Hex` stores a byte for every two characters, and one more if the last is single. -/
theorem length_str2Hex_le (s : List UInt8) : (str2Hex s).2.length ≤ s.length / 2 + 1 := by
  induction s using str2Hex.induct with
  | case1 => decide
  | case2 a ha => simp [str2Hex, ha]
  | case3 a high ha => simp [str2Hex, ha]
  | case4 a b rest ha => simp [str2Hex, ha]
  | case5 a b rest high ha hb => simp [str2Hex, ha, hb]
  | case6 a b high ha low hb => simp [str2Hex, ha, hb]
  | case7 a b rest high ha low hb hrest ih =>
    simp only [str2Hex, ha, hb, hrest, if_false, List.length_cons]
    omega

/-- `Get_Key_Value_IMSI` stores the text and then its bytes. -/
theorem getKeyValueIMSI_cases (h : getKeyValueIMSI src node = some node') :
    ∃ t, getKey src (text "IMSI") = some t ∧
      ((t = none ∧ node' = node) ∨ ∃ value stored, t = some value ∧
        node.copyTo Member.sIMSI value = some stored ∧
        stored.mem.Touches [spread 32 Member.imsi] node'.mem) := by
  obtain ⟨t, ht, h⟩ := Option.bind_eq_some_iff.mp h
  refine ⟨t, ht, ?_⟩
  cases t with
  | none =>
    cases h
    exact .inl ⟨rfl, rfl⟩
  | some value =>
    obtain ⟨stored, hstored, h⟩ := Option.bind_eq_some_iff.mp h
    have hlen := length_of_getKey ht
    have hhex := length_str2Hex_le value
    exact .inr ⟨value, stored, rfl, hstored, touches_copyTo (by omega) h⟩

theorem touches_getKeyValueIMSI (h : getKeyValueIMSI src node = some node') :
    node.mem.Touches [spread 63 Member.sIMSI, spread 32 Member.imsi] node'.mem := by
  obtain ⟨t, ht, ⟨-, rfl⟩ | ⟨value, stored, rfl, hstored, hhex⟩⟩ := getKeyValueIMSI_cases h
  · exact .refl _ _
  · exact ((touches_copyTo (length_of_getKey ht) hstored).mono (by simp)).trans
      (hhex.mono (by simp))

end Helpers

/-! ## The phases -/

/-- The numbers a deal begins with. -/
def dealNumbers (src : List UInt8) (node : DataSpm) : Option DataSpm := do
  let node := node.setInt Member.miniteRemain (← getKeyValueInt src (text "minsRemaining"))
  let node := node.setInt Member.lastStart (← getKeyValueInt src (text "lastStart"))
  let node := node.setInt Member.ifTest (← getKeyValueInt src (text "ifTest"))
  let node := node.setInt Member.orderType (← getKeyValueInt src (text "orderType"))
  let node := node.setInt Member.ifRoam (← getKeyValueInt src (text "ifRoam"))
  let node := node.setInt Member.speedType (← getKeyValueInt src (text "speedType"))
  return node.setInt Member.needFile (← getKeyValueInt src (text "fileUpdate"))

/-- The access point and the VPN. -/
def dealFlags (src : List UInt8) (node : DataSpm) : Option DataSpm := do
  let (isApn, node) ← getKeyValueStr src (text "APN") Member.apn 3 node
  getKeyValueVPN src (node.setNat Member.isApn isApn)

/-- The address, the slot, the speed and the card. -/
def dealCard (src : List UInt8) (node : DataSpm) : Option DataSpm := do
  let node ← getKeyValueIPAndPort src node
  let node ← getKeyValueStrType src node
  let (_, node) ← getKeyValueStr src (text "speedStr") Member.speedStr 4 node
  let node ← getKeyValueVusimActiveFlag src node
  getKeyValueIMEI src node

/-- Network selection, and the end. -/
def dealNet (src : List UInt8) (node : DataSpm) : Option DataSpm := do
  let (isNet, node) ← getKeyValueStr src (text "Selnet") Member.selnet 4 node
  let node := if isNet ≠ 0 then node.setNat Member.isNet 0x02 else node
  let node :=
    if node.mem.getNat Member.speedType = 1 then node.setNat Member.speedType 0x04 else node
  return node.setInt Member.result 0

theorem getDataFromDeal_phases (src : List UInt8) (node : DataSpm) :
    getDataFromDeal src node =
      (dealNumbers src node).bind fun node => (dealFlags src node).bind fun node =>
      (getKeyValueFactory src node).bind fun node => (dealCard src node).bind fun node =>
      (getKeyValueIMSI src node).bind fun node => dealNet src node := by
  unfold getDataFromDeal dealNumbers dealFlags dealCard dealNet
  simp only [Option.bind_eq_bind, Option.bind_assoc, Option.pure_def, Option.bind_some]

section Phases
variable {src : List UInt8} {node node' : DataSpm}

def numberFields : List Member :=
  [Member.miniteRemain, Member.lastStart, Member.ifTest, Member.orderType, Member.ifRoam,
   Member.speedType, Member.needFile]

theorem dealNumbers_spec (h : dealNumbers src node = some node') :
    node.mem.Touches numberFields node'.mem ∧
      (∃ n, getKeyValueInt src (text "minsRemaining") = some n ∧
        node'.mem.getNat Member.miniteRemain = (n % 2 ^ 16).toNat) ∧
      ∃ t, getKeyValueInt src (text "speedType") = some t ∧
        node'.mem.getNat Member.speedType = (t % 2 ^ 8).toNat := by
  obtain ⟨n, hn, h⟩ := Option.bind_eq_some_iff.mp h
  obtain ⟨v₂, -, h⟩ := Option.bind_eq_some_iff.mp h
  obtain ⟨v₃, -, h⟩ := Option.bind_eq_some_iff.mp h
  obtain ⟨v₄, -, h⟩ := Option.bind_eq_some_iff.mp h
  obtain ⟨v₅, -, h⟩ := Option.bind_eq_some_iff.mp h
  obtain ⟨t, ht, h⟩ := Option.bind_eq_some_iff.mp h
  obtain ⟨v₇, -, h⟩ := Option.bind_eq_some_iff.mp h
  obtain rfl := Option.some.inj h
  -- the minutes are stored first, the speed next to last
  have hrest : (node.setInt Member.miniteRemain n).mem.Touches
      [Member.lastStart, Member.ifTest, Member.orderType, Member.ifRoam, Member.speedType,
       Member.needFile] _ :=
    ((((((CArray.Touches.refl _ _).setInt (g := Member.lastStart) (by simp) v₂).setInt
      (g := Member.ifTest) (by simp) v₃).setInt (g := Member.orderType) (by simp) v₄).setInt
      (g := Member.ifRoam) (by simp) v₅).setInt (g := Member.speedType) (by simp) t).setInt
      (g := Member.needFile) (by simp) v₇
  have hlast : ∀ m : DataSpm, ((m.setInt Member.speedType t).setInt Member.needFile v₇).mem.getNat
      Member.speedType = (t % 2 ^ 8).toNat := by
    intro m
    have hfile : (m.setInt Member.speedType t).mem.Touches [Member.needFile]
        ((m.setInt Member.speedType t).setInt Member.needFile v₇).mem :=
      (CArray.Touches.refl _ _).setInt (by simp) v₇
    rw [hfile.getNat_eq (by decide)]
    exact m.getNat_setInt Member.speedType t
  have hfirst : node.mem.Touches numberFields (node.setInt Member.miniteRemain n).mem :=
    (CArray.Touches.refl _ _).setInt (by simp [numberFields]) n
  refine ⟨hfirst.trans (hrest.mono (by simp [numberFields])), ⟨n, hn, ?_⟩, t, ht, hlast _⟩
  exact (hrest.getNat_eq (by decide)).trans (node.getNat_setInt Member.miniteRemain n)

/-- What `Get_Key_Value_VPN` makes of `ifVPN`: its `switch` has no default. -/
def vpnByte (v : ℤ) (old : ℕ) : ℕ :=
  if v % 256 = 0 then 0 else if v % 256 = 1 then 0x08 else if v % 256 = 2 then 0x10 else old

theorem getKeyValueVPN_ifVPN (h : getKeyValueVPN src node = some node') :
    ∃ v, getKeyValueInt src (text "ifVPN") = some v ∧
      node'.mem.getNat Member.ifVPN = vpnByte v (node.mem.getNat Member.ifVPN) := by
  obtain ⟨v, hv, h⟩ := Option.bind_eq_some_iff.mp h
  refine ⟨v, hv, ?_⟩
  have hstored : (node.setInt Member.vpn v).mem.getNat Member.vpn = (v % 2 ^ 8).toNat :=
    node.getNat_setInt Member.vpn v
  have hassign : ∀ k < 256, ((node.setInt Member.vpn v).setNat Member.ifVPN k).mem.getNat
      Member.ifVPN = k := fun k hk =>
    (DataSpm.getNat_setNat _ Member.ifVPN k).trans (Nat.mod_eq_of_lt hk)
  unfold vpnByte
  dsimp only at h
  split at h <;> cases h
  · rename_i hvpn
    rw [hassign 0 (by decide), if_pos (by omega)]
  · rename_i hvpn
    rw [hassign 8 (by decide), if_neg (by omega), if_pos (by omega)]
  · rename_i hvpn
    rw [hassign 16 (by decide), if_neg (by omega), if_neg (by omega), if_pos (by omega)]
  · rename_i hzero hone htwo
    rw [hstored, imp_false] at hzero hone htwo
    rw [if_neg (by omega), if_neg (by omega), if_neg (by omega)]
    exact congrArg leNat (node.read_setInt v (by decide))

theorem dealFlags_spec (h : dealFlags src node = some node') :
    node.mem.Touches [spread 63 Member.apn, Member.isApn, Member.vpn, Member.ifVPN] node'.mem ∧
      (∃ apn, getKey src (text "APN") = some apn ∧
        node'.mem.getNat Member.isApn = if Deal.longer 3 apn = [] then 0 else 1) ∧
      ∃ v, getKeyValueInt src (text "ifVPN") = some v ∧
        node'.mem.getNat Member.ifVPN = vpnByte v (node.mem.getNat Member.ifVPN) := by
  obtain ⟨⟨isApn, stored⟩, hstored, h⟩ := Option.bind_eq_some_iff.mp h
  have hapn := touches_getKeyValueStr hstored
  have hvpn := touches_getKeyValueVPN h
  refine ⟨?_, ?_, ?_⟩
  · have hflag : node.mem.Touches [spread 63 Member.apn, Member.isApn, Member.vpn, Member.ifVPN]
        (stored.setNat Member.isApn isApn).mem := (hapn.mono (by simp)).setNat (by simp) _
    exact hflag.trans (hvpn.mono (by simp))
  · obtain ⟨apn, hkey, hcases⟩ := getKeyValueStr_cases hstored
    refine ⟨apn, hkey, ?_⟩
    rw [hvpn.getNat_eq (by decide)]
    have hassign : (stored.setNat Member.isApn isApn).mem.getNat Member.isApn = isApn % 256 :=
      stored.getNat_setNat Member.isApn isApn
    rcases hcases with ⟨hnil, rfl, -⟩ | ⟨hne, rfl, -⟩
    · rw [if_pos hnil]
      exact hassign
    · rw [if_neg hne]
      exact hassign
  · obtain ⟨v, hv, hbyte⟩ := getKeyValueVPN_ifVPN h
    refine ⟨v, hv, hbyte.trans ?_⟩
    rw [CArray.getNat, DataSpm.read_setNat _ _ (by decide), hapn.read_eq (by decide)]
    rfl

theorem touches_dealNet (h : dealNet src node = some node') :
    node.mem.Touches [spread 63 Member.selnet, Member.isNet, Member.speedType, Member.result]
      node'.mem := by
  obtain ⟨⟨isNet, stored⟩, hstored, h⟩ := Option.bind_eq_some_iff.mp h
  have hselnet : node.mem.Touches
      [spread 63 Member.selnet, Member.isNet, Member.speedType, Member.result] stored.mem :=
    (touches_getKeyValueStr hstored).mono (by simp)
  cases h
  apply CArray.Touches.setInt _ (by simp)
  have hnet : node.mem.Touches
      [spread 63 Member.selnet, Member.isNet, Member.speedType, Member.result]
      (if isNet ≠ 0 then stored.setNat Member.isNet 0x02 else stored).mem := by
    split
    · exact hselnet.setNat (by simp) _
    · exact hselnet
  generalize (if isNet ≠ 0 then stored.setNat Member.isNet 0x02 else stored) = chosen at hnet ⊢
  split
  · exact hnet.setNat (by simp) _
  · exact hnet

/-- Network selection: `Selnet` is stored up to the end of the record, `IsNet` is set behind it,
and 1 becomes the bit of a speed limit. -/
theorem dealNet_spec (h : dealNet src node = some node') :
    ∃ t, getKey src (text "Selnet") = some t ∧
      node'.mem.getNat Member.isNet =
        (if Deal.longer 4 t = [] then node.mem.getNat Member.isNet else 2) ∧
      node'.mem.getNat Member.isApn =
        ((Deal.longer 4 t)[22]?).elim (node.mem.getNat Member.isApn) UInt8.toNat ∧
      node'.mem.getNat Member.speedType =
        (if node.mem.getNat Member.speedType = 1 then 4 else node.mem.getNat Member.speedType) := by
  obtain ⟨⟨isNet, stored⟩, hstored, h⟩ := Option.bind_eq_some_iff.mp h
  obtain ⟨t, ht, hcases⟩ := getKeyValueStr_cases hstored
  have hselnet := touches_getKeyValueStr hstored
  obtain rfl := Option.some.inj h
  refine ⟨t, ht, ?_⟩
  -- `IsNet` and the copy, before the speed is looked at
  let chosen := if isNet ≠ 0 then stored.setNat Member.isNet 0x02 else stored
  have hchosen : stored.mem.Touches [Member.isNet] chosen.mem := by
    show stored.mem.Touches [Member.isNet]
      (if isNet ≠ 0 then stored.setNat Member.isNet 0x02 else stored).mem
    split
    · exact (CArray.Touches.refl _ _).setNat (by simp) _
    · exact .refl _ _
  have hspeed : chosen.mem.getNat Member.speedType = node.mem.getNat Member.speedType :=
    (hchosen.getNat_eq (by decide)).trans (hselnet.getNat_eq (by decide))
  have hend : chosen.mem.Touches [Member.speedType, Member.result]
      ((if chosen.mem.getNat Member.speedType = 1 then chosen.setNat Member.speedType 0x04
        else chosen).setInt Member.result 0).mem := by
    apply CArray.Touches.setInt _ (by simp)
    split
    · exact (CArray.Touches.refl _ _).setNat (by simp) _
    · exact .refl _ _
  refine ⟨(hend.getNat_eq (by decide)).trans ?_, (hend.getNat_eq (by decide)).trans ?_, ?_⟩
  · obtain ⟨hnil, rfl, rfl⟩ | ⟨hne, rfl, -⟩ := hcases
    · rw [if_pos hnil]
      rfl
    · rw [if_neg hne]
      exact stored.getNat_setNat Member.isNet 2
  · rw [hchosen.getNat_eq (by decide)]
    obtain ⟨hnil, -, rfl⟩ | ⟨-, -, hcopy⟩ := hcases
    · rw [hnil]
      rfl
    · obtain ⟨mem, hmem, rfl⟩ := Option.map_eq_some_iff.mp hcopy
      exact CArray.getNat_copyTo_byte rfl (by decide) hmem
  · have hresult : ∀ m : DataSpm,
        (m.setInt Member.result 0).mem.getNat Member.speedType = m.mem.getNat Member.speedType :=
      fun m => ((CArray.Touches.refl [Member.result] _).setInt (by simp) 0).getNat_eq (by decide)
    show ((if chosen.mem.getNat Member.speedType = 1 then chosen.setNat Member.speedType 0x04
      else chosen).setInt Member.result 0).mem.getNat Member.speedType = _
    rw [hresult, ← hspeed]
    split
    · exact chosen.getNat_setNat Member.speedType 4
    · rfl

/-! ## Granted deals -/

/-- A text without `NUL` is not longer than the string that is found where it is stored. -/
theorem length_le_of_cstrAt {f : Member} {value s : List UInt8} (hvalue : 0 ∉ value)
    (hcopy : node.copyTo f value = some node') (h : node'.mem.cstrAt f = some s) :
    value.length ≤ s.length := by
  obtain ⟨mem, hmem, rfl⟩ := Option.map_eq_some_iff.mp hcopy
  obtain ⟨hfit, rfl⟩ := CArray.copyTo_eq_some.mp hmem
  have hsize : node.mem.bytes.length = dataSpmSize := node.mem.size
  have hstart : (node.mem.put f.off value hfit).bytes.drop f.off =
      value ++ node.mem.bytes.drop (f.off + value.length) := by
    have htake : (node.mem.bytes.take f.off).length = f.off := by
      rw [List.length_take]
      omega
    simp only [CArray.put, List.append_assoc]
    rw [List.drop_append, htake, Nat.sub_self, List.drop_zero,
      List.drop_eq_nil_of_le (Nat.le_of_eq htake), List.nil_append]
  unfold CArray.cstrAt at h
  rw [hstart] at h
  split at h
  · rw [← Option.some.inj h, List.takeWhile_append_of_pos (by
      intro c hc
      rw [decide_eq_true_eq]
      rintro rfl
      exact hvalue hc), List.length_append]
    omega
  · cases h

/-- If no redirect is left behind, the text of one was short. -/
theorem touches_factory_of_granted (hsrc : 0 ∉ src) (h : getKeyValueFactory src node = some node')
    (hzero : node'.mem.getNat Member.factoryFlag = 0) :
    node.mem.Touches [Member.factoryFlag, Member.serverInfo] node'.mem := by
  obtain ⟨v, -, h⟩ := Option.bind_eq_some_iff.mp h
  have hset : node.mem.Touches [Member.factoryFlag, Member.serverInfo]
      (node.setInt Member.factoryFlag v).mem := (CArray.Touches.refl _ _).setInt (by simp) v
  dsimp only at h
  split at h
  · rename_i hone
    have hclear := hset.setNat (g := Member.serverInfo) (by simp) 0
    obtain ⟨found, hfound, h⟩ := Option.bind_eq_some_iff.mp h
    cases found with
    | error e =>
      obtain ⟨cleared, hcleared, h⟩ := Option.bind_eq_some_iff.mp h
      obtain rfl := Option.some.inj hcleared
      obtain ⟨info, -, h⟩ := Option.bind_eq_some_iff.mp h
      split at h <;> cases h
      · exact hclear.setNat (by simp) _
      · exact hclear
    | ok value =>
      obtain ⟨stored, hstored, h⟩ := Option.bind_eq_some_iff.mp h
      obtain ⟨info, hinfo, h⟩ := Option.bind_eq_some_iff.mp h
      have hle := length_le_of_cstrAt (Deal.zero_notMem_of_getKeyValue hsrc hfound) hstored hinfo
      split at h <;> obtain rfl := Option.some.inj h
      · have hcopy : node.mem.Touches [Member.factoryFlag, Member.serverInfo] stored.mem :=
          hclear.trans ((touches_copyTo (k := 128) (by omega) hstored).within (by decide))
        exact hcopy.setNat (by simp) _
      · -- the flag is as it was before the text was stored
        have hcopy := touches_copyTo (length_of_copyTo hstored) hstored
        have hflag : stored.mem.getNat Member.factoryFlag =
            (node.setInt Member.factoryFlag v).mem.getNat Member.factoryFlag := by
          rw [CArray.getNat, hcopy.read_eq (by decide), DataSpm.read_setNat _ _ (by decide)]
          rfl
        rw [hflag, hone] at hzero
        cases hzero
  · cases h
    exact hset

theorem touches_dealCard (h : dealCard src node = some node') :
    node.mem.Touches [spread 63 Member.ip, Member.portInt, Member.simBankID, Member.channelID,
      spread 63 Member.speedStr, Member.vusimActiveFlag, spread 63 Member.vusimActiveNum,
      Member.imei] node'.mem := by
  obtain ⟨address, haddress, h⟩ := Option.bind_eq_some_iff.mp h
  obtain ⟨slot, hslot, h⟩ := Option.bind_eq_some_iff.mp h
  obtain ⟨⟨k, speed⟩, hspeed, h⟩ := Option.bind_eq_some_iff.mp h
  obtain ⟨vusim, hvusim, h⟩ := Option.bind_eq_some_iff.mp h
  exact ((touches_getKeyValueIPAndPort haddress).mono (by simp)).trans
    ((touches_getKeyValueStrType hslot).mono (by simp))
    |>.trans ((touches_getKeyValueStr hspeed).mono (by simp))
    |>.trans ((touches_getKeyValueVusimActiveFlag hvusim).mono (by simp))
    |>.trans ((touches_getKeyValueIMEI h).mono (by simp))

/-- What the address, the slot, the speed and the card of a granted deal may cover. -/
def cardRanges : List Member :=
  [spread 63 Member.ip, Member.portInt, Member.simBankID, Member.channelID,
   spread 42 Member.speedStr, Member.vusimActiveFlag, spread 63 Member.vusimActiveNum, Member.imei]

/-- A text of more than 42 bytes for `speedStr` would have been taken for a redirect. -/
theorem dealCard_of_granted (hsrc : 0 ∉ src) (h : dealCard src node = some node')
    (hzero : node'.mem.getNat Member.factoryFlag = 0) :
    node.mem.Touches cardRanges node'.mem ∧ node.mem.getNat Member.factoryFlag = 0 := by
  obtain ⟨address, haddress, h⟩ := Option.bind_eq_some_iff.mp h
  obtain ⟨slot, hslot, h⟩ := Option.bind_eq_some_iff.mp h
  obtain ⟨⟨k, speed⟩, hspeed, h⟩ := Option.bind_eq_some_iff.mp h
  obtain ⟨vusim, hvusim, h⟩ := Option.bind_eq_some_iff.mp h
  have hbefore : node.mem.Touches cardRanges slot.mem :=
    ((touches_getKeyValueIPAndPort haddress).mono (by simp [cardRanges])).trans
      ((touches_getKeyValueStrType hslot).mono (by simp [cardRanges]))
  have hafter : speed.mem.Touches
      [Member.vusimActiveFlag, spread 63 Member.vusimActiveNum, Member.imei] node'.mem :=
    ((touches_getKeyValueVusimActiveFlag hvusim).mono (by simp)).trans
      ((touches_getKeyValueIMEI h).mono (by simp))
  have hflag : speed.mem.getNat Member.factoryFlag = 0 := by
    rw [← hafter.getNat_eq (by decide)]
    exact hzero
  have hshort : slot.mem.Touches [spread 42 Member.speedStr] speed.mem := by
    obtain ⟨t, ht, ⟨-, -, rfl⟩ | ⟨-, -, hcopy⟩⟩ := getKeyValueStr_cases hspeed
    · exact .refl _ _
    · refine touches_copyTo ?_ hcopy
      by_contra hlong
      -- the 43rd byte is stored in `factoryFlag`
      obtain ⟨mem, hmem, rfl⟩ := Option.map_eq_some_iff.mp hcopy
      have hlt : 42 < (Deal.longer 4 t).length := by omega
      rw [CArray.getNat_copyTo_byte rfl (by decide) hmem,
        show Member.factoryFlag.off - Member.speedStr.off = 42 from rfl,
        List.getElem?_eq_getElem hlt] at hflag
      have hbyte : (Deal.longer 4 t)[42] = 0 := UInt8.toNat_inj.mp hflag
      exact Deal.zero_notMem_longer hsrc ht (hbyte ▸ List.getElem_mem hlt)
  refine ⟨?_, ?_⟩
  · exact (hbefore.trans (hshort.mono (by simp [cardRanges]))).trans
      (hafter.mono (by simp [cardRanges]))
  · rw [← hbefore.getNat_eq (by decide), ← hshort.getNat_eq (by decide)]
    exact hflag

/-- The nodes between the phases of a deal that is granted in the end. -/
structure GrantedRun (src : List UInt8) (node a b c d e node' : DataSpm) : Prop where
  numbers : dealNumbers src node = some a
  flags : dealFlags src a = some b
  factory : b.mem.Touches [Member.factoryFlag, Member.serverInfo] c.mem
  card : c.mem.Touches cardRanges d.mem
  imsi : getKeyValueIMSI src d = some e
  net : dealNet src e = some node'

theorem exists_grantedRun (hsrc : 0 ∉ src) (h : getDataFromDeal src node = some node')
    (hzero : node'.mem.getNat Member.factoryFlag = 0) :
    ∃ a b c d e, GrantedRun src node a b c d e node' := by
  rw [getDataFromDeal_phases] at h
  obtain ⟨a, hnumbers, h⟩ := Option.bind_eq_some_iff.mp h
  obtain ⟨b, hflags, h⟩ := Option.bind_eq_some_iff.mp h
  obtain ⟨c, hfactory, h⟩ := Option.bind_eq_some_iff.mp h
  obtain ⟨d, hcard, h⟩ := Option.bind_eq_some_iff.mp h
  obtain ⟨e, himsi, hnet⟩ := Option.bind_eq_some_iff.mp h
  have hflag : d.mem.getNat Member.factoryFlag = 0 := by
    rw [← (touches_getKeyValueIMSI himsi).getNat_eq (by decide),
      ← (touches_dealNet hnet).getNat_eq (by decide)]
    exact hzero
  obtain ⟨htouches, hflag'⟩ := dealCard_of_granted hsrc hcard hflag
  exact ⟨a, b, c, d, e, hnumbers, hflags,
    touches_factory_of_granted hsrc hfactory hflag', htouches, himsi, hnet⟩

namespace GrantedRun

variable {a b c d e : DataSpm} (h : GrantedRun src node a b c d e node')
include h

/-- Nothing of a granted deal gets over `minite_Remain` once it is stored. -/
theorem miniteRemain : ∃ n, getKeyValueInt src (text "minsRemaining") = some n ∧
    node'.mem.getNat Member.miniteRemain = (n % 2 ^ 16).toNat := by
  obtain ⟨-, ⟨n, hn, hstored⟩, -⟩ := dealNumbers_spec h.numbers
  refine ⟨n, hn, ?_⟩
  rw [(touches_dealNet h.net).getNat_eq (by decide),
    (touches_getKeyValueIMSI h.imsi).getNat_eq (by decide), h.card.getNat_eq (by decide),
    h.factory.getNat_eq (by decide), (dealFlags_spec h.flags).1.getNat_eq (by decide)]
  exact hstored

/-- 1 becomes the bit of a speed limit, any other number is kept in its byte. -/
theorem speedType : ∃ t, getKeyValueInt src (text "speedType") = some t ∧
    node'.mem.getNat Member.speedType = if t % 256 = 1 then 4 else (t % 256).toNat := by
  obtain ⟨-, -, t, ht, hstored⟩ := dealNumbers_spec h.numbers
  obtain ⟨sel, -, -, -, hspeed⟩ := dealNet_spec h.net
  refine ⟨t, ht, ?_⟩
  rw [hspeed, (touches_getKeyValueIMSI h.imsi).getNat_eq (by decide), h.card.getNat_eq (by decide),
    h.factory.getNat_eq (by decide), (dealFlags_spec h.flags).1.getNat_eq (by decide), hstored]
  split_ifs <;> omega

/-- The flag of the access point, unless `Selnet` runs over it. -/
theorem isApn : ∃ apn sel, getKey src (text "APN") = some apn ∧
    getKey src (text "Selnet") = some sel ∧
    node'.mem.getNat Member.isApn =
      ((Deal.longer 4 sel)[22]?).elim (if Deal.longer 3 apn = [] then 0 else 1) UInt8.toNat := by
  obtain ⟨-, ⟨apn, hapn, hstored⟩, -⟩ := dealFlags_spec h.flags
  obtain ⟨sel, hsel, -, hover, -⟩ := dealNet_spec h.net
  refine ⟨apn, sel, hapn, hsel, ?_⟩
  rw [hover, (touches_getKeyValueIMSI h.imsi).getNat_eq (by decide), h.card.getNat_eq (by decide),
    h.factory.getNat_eq (by decide), hstored]

/-- The flag of a network selection is set, never cleared. -/
theorem isNet : ∃ sel, getKey src (text "Selnet") = some sel ∧
    node'.mem.getNat Member.isNet =
      if Deal.longer 4 sel = [] then node.mem.getNat Member.isNet else 2 := by
  obtain ⟨sel, hsel, hnet, -, -⟩ := dealNet_spec h.net
  refine ⟨sel, hsel, ?_⟩
  rw [hnet, (touches_getKeyValueIMSI h.imsi).getNat_eq (by decide), h.card.getNat_eq (by decide),
    h.factory.getNat_eq (by decide), (dealFlags_spec h.flags).1.getNat_eq (by decide),
    (dealNumbers_spec h.numbers).1.getNat_eq (by decide)]

/-- The bits of the VPN, unless the text of the IMSI runs over them. -/
theorem ifVPN : ∃ v imsi, getKeyValueInt src (text "ifVPN") = some v ∧
    getKey src (text "IMSI") = some imsi ∧
    node'.mem.getNat Member.ifVPN =
      ((imsi.getD [])[19]?).elim (vpnByte v (node.mem.getNat Member.ifVPN)) UInt8.toNat := by
  obtain ⟨-, -, v, hv, hstored⟩ := dealFlags_spec h.flags
  obtain ⟨imsi, himsi, hcases⟩ := getKeyValueIMSI_cases h.imsi
  have hbefore : d.mem.getNat Member.ifVPN = vpnByte v (node.mem.getNat Member.ifVPN) := by
    rw [h.card.getNat_eq (by decide), h.factory.getNat_eq (by decide), hstored,
      (dealNumbers_spec h.numbers).1.getNat_eq (by decide)]
  refine ⟨v, imsi, hv, himsi, ?_⟩
  rw [(touches_dealNet h.net).getNat_eq (by decide), ← hbefore]
  obtain ⟨rfl, rfl⟩ | ⟨value, stored, rfl, hcopy, hhex⟩ := hcases
  · rfl
  · obtain ⟨mem, hmem, rfl⟩ := Option.map_eq_some_iff.mp hcopy
    rw [hhex.getNat_eq (by decide)]
    exact CArray.getNat_copyTo_byte rfl (by decide) hmem

end GrantedRun

end Phases

/-! ## `Deal_Proc` -/

section Proc
variable {node node' : DataSpm} {type cnt : ℤ} {x : Exchange} {dst : List UInt8}

/-- `Deal_Proc` stores numbers only. -/
def procFields : List Member :=
  [Member.miniteRemain, Member.lastStart, Member.factoryFlag, Member.result]

theorem touches_simAllocateErr (code : SimAllocErrCode) (node : DataSpm) :
    node.mem.Touches procFields (simAllocateErr code node).2.mem := by
  unfold simAllocateErr
  dsimp only
  apply CArray.Touches.setInt _ (by simp [procFields])
  split
  · exact (CArray.Touches.refl _ _).setNat (by simp [procFields]) _
  · exact .refl _ _

theorem touches_getDealFromSimPool (h : getDealFromSimPool node x = some (cnt, node', dst)) :
    node.mem.Touches procFields node'.mem := by
  obtain ⟨⟨c, src⟩, -, h⟩ := Option.bind_eq_some_iff.mp h
  dsimp only at h
  split_ifs at h
  · cases h
    exact touches_simAllocateErr _ node
  · cases h
    exact touches_simAllocateErr _ node
  · cases h
    exact touches_simAllocateErr _ node
  · cases h
    exact .refl _ _

theorem touches_dealProc (h : dealProc node type x = some (cnt, node')) :
    node.mem.Touches procFields node'.mem := by
  obtain ⟨⟨cnt', asked, dst⟩, hasked, h⟩ := Option.bind_eq_some_iff.mp h
  have hpool : node.mem.Touches procFields asked.mem :=
    ((CArray.Touches.refl _ _).setNat (by simp [procFields]) _).trans
      (touches_getDealFromSimPool hasked)
  dsimp only at h
  split at h
  · obtain ⟨start, -, h⟩ := Option.bind_eq_some_iff.mp h
    obtain ⟨mins, -, h⟩ := Option.bind_eq_some_iff.mp h
    have hstored : node.mem.Touches procFields ((asked.setInt Member.lastStart start).setInt
        Member.miniteRemain mins).mem :=
      (hpool.setInt (by simp [procFields]) _).setInt (by simp [procFields]) _
    split at h <;> cases h
    · exact hstored.setNat (by simp [procFields]) _
    · exact hstored
  · split at h <;> cases h
    · exact hpool.setInt (by simp [procFields]) _
    · exact hpool

end Proc

end Tdm.Common
