import Tdm.Common.Deal
import Tdm.Lib.Stores

/-!
# A well-formed deal is a fixed list of stores

A deal that carries its keys with values of the right size is written to the node by one
list of stores that does not depend on the node (`getDataFromDeal_eq`). The members it
stores to are always the same; a text that is not granted is a store of no bytes.
-/

namespace Tdm.Common

open Tdm.Lib

/-- What `Get_Data_From_Deal` finds in the text of a deal. -/
structure Deal where
  minsRemaining : ℤ
  lastStart : ℤ
  ifTest : ℤ
  orderType : ℤ
  ifRoam : ℤ
  speedType : ℤ
  fileUpdate : ℤ
  apn : Option (List UInt8)
  ifVPN : ℤ
  factoryFlag : ℤ
  serverInfo : Option (List UInt8)
  ip : List UInt8
  port : List UInt8
  bank : List UInt8
  channel : List UInt8
  speedStr : Option (List UInt8)
  activated : List UInt8
  vusimActiveNum : Option (List UInt8)
  imei : Option (List UInt8)
  imsi : List UInt8
  selnet : Option (List UInt8)

namespace Deal

/-- The two parts of a value, cut at a delimiter. -/
def parts (d : UInt8) (value : List UInt8) : Option (List UInt8 × List UInt8) := do
  let (first, rest) ← strtok d value
  let (second, _) ← strtok d rest
  return (first, second)

/-- The text carries the deal: the address, the slot, the state of the SIM card and its
IMSI are there, the other keys may be. -/
@[mk_iff]
structure CarriedBy (deal : Deal) (src : List UInt8) : Prop where
  minsRemaining : getKeyValueInt src (text "minsRemaining") = some deal.minsRemaining
  lastStart : getKeyValueInt src (text "lastStart") = some deal.lastStart
  ifTest : getKeyValueInt src (text "ifTest") = some deal.ifTest
  orderType : getKeyValueInt src (text "orderType") = some deal.orderType
  ifRoam : getKeyValueInt src (text "ifRoam") = some deal.ifRoam
  speedType : getKeyValueInt src (text "speedType") = some deal.speedType
  fileUpdate : getKeyValueInt src (text "fileUpdate") = some deal.fileUpdate
  apn : getKey src (text "APN") = some deal.apn
  ifVPN : getKeyValueInt src (text "ifVPN") = some deal.ifVPN
  factoryFlag : getKeyValueInt src (text "factoryFlag") = some deal.factoryFlag
  serverInfo : (getKeyValue src (text "serverInfo")).map Except.toOption = some deal.serverInfo
  address : (getKey src (text "IPAndPort")).map (Option.bind · (parts 58)) =
    some (some (deal.ip, deal.port))
  slot : (getKey src (text "slotNumber")).map (Option.bind · (parts 45)) =
    some (some (deal.bank, deal.channel))
  speedStr : getKey src (text "speedStr") = some deal.speedStr
  activated : getKey src (text "SIMIfActivated") = some (some deal.activated)
  vusimActiveNum : getKey src (text "Vusim_Active_Num") = some deal.vusimActiveNum
  imei : getKey src (text "IMEI") = some deal.imei
  imsi : getKey src (text "IMSI") = some (some deal.imsi)
  selnet : getKey src (text "Selnet") = some deal.selnet

/-- The values have the sizes and ranges the members are made for. -/
@[mk_iff]
structure Fits (deal : Deal) : Prop where
  ifVPN : deal.ifVPN = 0 ∨ deal.ifVPN = 1 ∨ deal.ifVPN = 2
  factoryFlag : deal.factoryFlag = 0 ∨ deal.factoryFlag = 1
  serverInfo : ∀ value, deal.serverInfo = some value → value.length < 128
  ip : deal.ip.length < 16
  speedStr : ∀ value, deal.speedStr = some value → value.length < 40
  imsi : deal.imsi.length = 18
  hex : (str2Hex deal.imsi).2.length = 9
  selnet : ∀ value, deal.selnet = some value → value.length < 8

-- one instance for each of the 19 keys
set_option synthInstance.maxSize 512 in
instance (deal : Deal) (src : List UInt8) : Decidable (deal.CarriedBy src) :=
  decidable_of_iff' _ (carriedBy_iff deal src)

instance (deal : Deal) : Decidable deal.Fits := decidable_of_iff' _ (fits_iff deal)

/-! ## What the deal grants -/

/-- A text counts only if it has more than `len` bytes. -/
def longer (len : ℕ) : Option (List UInt8) → List UInt8
  | none => []
  | some value => if len < value.length then value else []

def apnText (deal : Deal) : List UInt8 := longer 3 deal.apn

def selnetText (deal : Deal) : List UInt8 := longer 4 deal.selnet

def speedText (deal : Deal) : List UInt8 := longer 4 deal.speedStr

/-- The backend says that the SIM card is not activated yet. -/
def inactive (deal : Deal) : Bool := deal.activated.take 2 = [0xE5, 0x90]

/-- The number to call for the activation. -/
def vusimText (deal : Deal) : List UInt8 :=
  if deal.inactive then longer 9 deal.vusimActiveNum else []

/-- The server the backend sends the device to. -/
def redirectInfo (deal : Deal) : List UInt8 :=
  if deal.factoryFlag = 1 then longer 9 deal.serverInfo else []

/-! ## The stores -/

/-- The store of a text, if there is one. -/
def textStores (f : Member) (t : List UInt8) : List (Store dataSpmSize) :=
  if t = [] then [] else [.of f t]

def vpnStores (deal : Deal) : List (Store dataSpmSize) :=
  [.assignInt Member.vpn deal.ifVPN, .assignInt Member.ifVPN (8 * deal.ifVPN)]

def factoryStores (deal : Deal) : List (Store dataSpmSize) :=
  if deal.factoryFlag = 1 then
    [.assign Member.factoryFlag 1, .assign Member.serverInfo 0,
      .of Member.serverInfo (deal.serverInfo.getD [])] ++
      (if deal.redirectInfo = [] then [.assign Member.factoryFlag 0] else [])
  else [.assign Member.factoryFlag 0]

def addressStores (deal : Deal) : List (Store dataSpmSize) :=
  [.of Member.ip deal.ip, .assignInt Member.portInt (atoi deal.port)]

def slotStores (deal : Deal) : List (Store dataSpmSize) :=
  [.assignInt Member.simBankID (atoi deal.bank),
    .assignInt Member.channelID (atoi deal.channel)]

def vusimStores (deal : Deal) : List (Store dataSpmSize) :=
  if deal.inactive then
    [.assign Member.vusimActiveFlag 1] ++
      (match deal.vusimActiveNum with
        | none => []
        | some _ =>
          if deal.vusimText = [] then [.assign Member.vusimActiveFlag 0]
          else [.of Member.vusimActiveNum deal.vusimText])
  else [.assign Member.vusimActiveFlag 0]

def imeiStores (deal : Deal) : List (Store dataSpmSize) :=
  match deal.imei with
  | none => []
  | some value => [.assignInt Member.imei (atoll value)]

def imsiStores (deal : Deal) : List (Store dataSpmSize) :=
  [.of Member.sIMSI deal.imsi, .of Member.imsi (str2Hex deal.imsi).2]

/-- The stores up to `APN`. -/
def numberStores (deal : Deal) : List (Store dataSpmSize) :=
  [.assignInt Member.miniteRemain deal.minsRemaining,
   .assignInt Member.lastStart deal.lastStart,
   .assignInt Member.ifTest deal.ifTest,
   .assignInt Member.orderType deal.orderType,
   .assignInt Member.ifRoam deal.ifRoam,
   .assignInt Member.speedType deal.speedType,
   .assignInt Member.needFile deal.fileUpdate]

/-- The stores before those for a redirect. -/
def earlierStores (deal : Deal) : List (Store dataSpmSize) :=
  deal.numberStores ++ textStores Member.apn deal.apnText ++
  [.assign Member.isApn (if deal.apnText = [] then 0 else 1)] ++ deal.vpnStores

/-- The stores behind those for a redirect, up to `Selnet`. -/
def cardStores (deal : Deal) : List (Store dataSpmSize) :=
  deal.addressStores ++ deal.slotStores ++ textStores Member.speedStr deal.speedText ++
  deal.vusimStores ++ deal.imeiStores ++ deal.imsiStores ++
  textStores Member.selnet deal.selnetText

/-- Network selection is switched on together with `Selnet`, and never off. -/
def netStores (deal : Deal) : List (Store dataSpmSize) :=
  if deal.selnetText = [] then [] else [.assign Member.isNet 2]

/-- The stores behind those for a redirect, up to the test of `speedType`. -/
def laterStores (deal : Deal) : List (Store dataSpmSize) := deal.cardStores ++ deal.netStores

/-- The last stores. -/
def finalStores (deal : Deal) : List (Store dataSpmSize) :=
  (if deal.speedType % 256 = 1 then [.assign Member.speedType 4] else []) ++
  [.assignInt Member.result 0]

/-- The stores `Get_Data_From_Deal` makes. -/
def stores (deal : Deal) : List (Store dataSpmSize) :=
  deal.earlierStores ++ deal.factoryStores ++ deal.laterStores ++ deal.finalStores

end Deal

/-- The node after a list of stores. -/
def DataSpm.stores (node : DataSpm) (ws : List (Store dataSpmSize)) : DataSpm :=
  { node with mem := node.mem.stores ws }

theorem DataSpm.mem_stores (node : DataSpm) (ws : List (Store dataSpmSize)) :
    (node.stores ws).mem = node.mem.stores ws := rfl

theorem DataSpm.stores_append (node : DataSpm) (ws vs : List (Store dataSpmSize)) :
    node.stores (ws ++ vs) = (node.stores ws).stores vs := by
  unfold DataSpm.stores
  rw [CArray.stores_append]

theorem DataSpm.setInt_eq_stores (node : DataSpm) (f : Member) (v : ℤ) :
    node.setInt f v = node.stores [.assignInt f v] := rfl

theorem DataSpm.setNat_eq_stores (node : DataSpm) (f : Member) (v : ℕ) :
    node.setNat f v = node.stores [.assign f v] := rfl

theorem DataSpm.copyTo_of_le (node : DataSpm) {f : Member} {src : List UInt8}
    (h : src.length ≤ f.size) : node.copyTo f src = some (node.stores [.of f src]) := by
  have hfits := f.fits
  have hput : node.mem.copyTo f src = some (node.mem.store (.of f src)) := by
    rw [CArray.copyTo_of_le node.mem f (by omega)]
    congr 1
    simp only [CArray.store, Store.src_of h]
    rfl
  unfold DataSpm.copyTo
  rw [hput]
  rfl

/-! ## The helpers -/

namespace Deal

variable {deal : Deal} {src : List UInt8}

theorem getKeyValueStr_eq {key : List UInt8} {f : Member} {len : ℕ} {t : Option (List UInt8)}
    (hkey : getKey src key = some t) (hfits : (longer len t).length ≤ f.size) (node : DataSpm) :
    getKeyValueStr src key f len node =
      some (if longer len t = [] then 0 else 1, node.stores (textStores f (longer len t))) := by
  unfold getKeyValueStr
  rw [hkey]
  cases t with
  | none => rfl
  | some value =>
    by_cases hlen : len < value.length
    · have hl : longer len (some value) = value := if_pos hlen
      have hne : value ≠ [] := by
        rintro rfl
        simp at hlen
      rw [hl] at hfits ⊢
      simp [hlen, node.copyTo_of_le hfits, textStores, hne]
    · have hl : longer len (some value) = [] := if_neg hlen
      rw [hl]
      simp [hlen, textStores]
      rfl

theorem getKeyValueVPN_eq (hc : deal.CarriedBy src) (hf : deal.Fits) (node : DataSpm) :
    getKeyValueVPN src node = some (node.stores deal.vpnStores) := by
  have hget : ∀ v : ℤ, (node.setInt Member.vpn v).mem.getNat Member.vpn =
      (v % 2 ^ 8).toNat := node.getNat_setInt Member.vpn
  unfold getKeyValueVPN vpnStores
  rw [hc.ifVPN]
  simp only [Option.bind_eq_bind, Option.bind_some, hget]
  rcases hf.ifVPN with h | h | h <;> (rw [h]; rfl)

theorem exists_of_parts {key first second : List UInt8} {d : UInt8}
    (h : (getKey src key).map (Option.bind · (parts d)) = some (some (first, second))) :
    ∃ value rest rest', getKey src key = some (some value) ∧
      strtok d value = some (first, rest) ∧ strtok d rest = some (second, rest') := by
  obtain ⟨found, hkey, hfound⟩ := Option.map_eq_some_iff.mp h
  obtain ⟨value, hvalue, hparts⟩ := Option.bind_eq_some_iff.mp hfound
  unfold parts at hparts
  obtain ⟨token, htoken, hparts⟩ := Option.bind_eq_some_iff.mp hparts
  obtain ⟨token', htoken', hparts⟩ := Option.bind_eq_some_iff.mp hparts
  cases hparts
  exact ⟨value, token.2, token'.2, hvalue ▸ hkey, htoken, htoken'⟩

theorem getKeyValueIPAndPort_eq (hc : deal.CarriedBy src) (hf : deal.Fits) (node : DataSpm) :
    getKeyValueIPAndPort src node = some (node.stores deal.addressStores) := by
  obtain ⟨value, rest, rest', hkey, hip, hport⟩ := exists_of_parts hc.address
  unfold getKeyValueIPAndPort
  rw [hkey]
  simp only [Option.bind_eq_bind, Option.bind_some, hip, hport,
    node.copyTo_of_le (f := Member.ip) (Nat.le_of_lt hf.ip)]
  rfl

theorem getKeyValueStrType_eq (hc : deal.CarriedBy src) (node : DataSpm) :
    getKeyValueStrType src node = some (node.stores deal.slotStores) := by
  obtain ⟨value, rest, rest', hkey, hbank, hchannel⟩ := exists_of_parts hc.slot
  unfold getKeyValueStrType
  rw [hkey]
  simp only [Option.bind_eq_bind, Option.bind_some, hbank, hchannel]
  rfl

theorem getKeyValueIMEI_eq (hc : deal.CarriedBy src) (node : DataSpm) :
    getKeyValueIMEI src node = some (node.stores deal.imeiStores) := by
  unfold getKeyValueIMEI imeiStores
  rw [hc.imei]
  cases deal.imei with
  | none => rfl
  | some value => rfl

theorem getKeyValueIMSI_eq (hc : deal.CarriedBy src) (hf : deal.Fits) (node : DataSpm) :
    getKeyValueIMSI src node = some (node.stores deal.imsiStores) := by
  unfold getKeyValueIMSI
  rw [hc.imsi]
  simp only [Option.bind_eq_bind, Option.bind_some,
    node.copyTo_of_le (f := Member.sIMSI) (Nat.le_of_eq hf.imsi)]
  rw [DataSpm.copyTo_of_le _ (f := Member.imsi) (Nat.le_of_eq hf.hex), ← DataSpm.stores_append]
  rfl

/-- The texts found by `getKey` fit `Key[64]`. -/
theorem getKeyValue_of_getKey {key value : List UInt8} (h : getKey src key = some (some value)) :
    getKeyValue src key = some (.ok value) ∧ value.length < 64 := by
  unfold getKey at h
  cases hkv : getKeyValue src key with
  | none => simp [hkv] at h
  | some res =>
    cases res with
    | error code => simp [hkv] at h
    | ok value' =>
      simp only [hkv, Option.bind_eq_bind, Option.bind_some] at h
      split at h
      · cases h
        exact ⟨rfl, by assumption⟩
      · cases h

theorem length_longer_le {len k : ℕ} {t : Option (List UInt8)}
    (h : ∀ value, t = some value → value.length ≤ k) : (longer len t).length ≤ k := by
  cases t with
  | none => exact Nat.zero_le k
  | some value =>
    by_cases hlen : len < value.length
    · rw [show longer len (some value) = value from if_pos hlen]
      exact h value rfl
    · rw [show longer len (some value) = [] from if_neg hlen]
      exact Nat.zero_le k

theorem eq_some_of_longer {len : ℕ} {t : Option (List UInt8)} (h : longer len t ≠ []) :
    t = some (longer len t) := by
  cases t with
  | none => exact absurd rfl h
  | some value =>
    by_cases hlen : len < value.length
    · rw [show longer len (some value) = value from if_pos hlen]
    · exact absurd (if_neg hlen) h

theorem length_longer_le_of_getKey {key : List UInt8} {len : ℕ} {t : Option (List UInt8)}
    (h : getKey src key = some t) : (longer len t).length ≤ 63 := by
  apply length_longer_le
  rintro value rfl
  exact Nat.le_of_lt_succ (getKeyValue_of_getKey h).2

theorem getKeyValueVusimActiveFlag_eq (hc : deal.CarriedBy src) (node : DataSpm) :
    getKeyValueVusimActiveFlag src node = some (node.stores deal.vusimStores) := by
  have hget : ∀ v : ℕ, (node.setNat Member.vusimActiveFlag v).mem.getNat Member.vusimActiveFlag =
      v % 256 ^ 1 := node.getNat_setNat Member.vusimActiveFlag
  unfold getKeyValueVusimActiveFlag vusimStores
  rw [hc.activated]
  simp only [Option.bind_eq_bind, Option.bind_some]
  by_cases hinactive : deal.activated.take 2 = [0xE5, 0x90]
  · have hin : deal.inactive = true := decide_eq_true hinactive
    simp only [hinactive, if_true, hget, hc.vusimActiveNum, Option.bind_some, vusimText, hin]
    cases hnum : deal.vusimActiveNum with
    | none => rfl
    | some value =>
      by_cases hlen : 9 < value.length
      · have hl : longer 9 (some value) = value := if_pos hlen
        have hne : value ≠ [] := by
          rintro rfl
          simp at hlen
        have hfits : value.length ≤ Member.vusimActiveNum.size := by
          have hlt : value.length < 64 := (getKeyValue_of_getKey (hnum ▸ hc.vusimActiveNum)).2
          show value.length ≤ 126
          omega
        simp only [hl, hlen, hne, if_true, if_false, DataSpm.copyTo_of_le _ hfits]
        rfl
      · have hl : longer 9 (some value) = [] := if_neg hlen
        simp only [hl, hlen, if_true, if_false]
        rfl
  · have hin : deal.inactive = false := decide_eq_false hinactive
    simp only [hinactive, if_false, hget, hin]
    rfl

/-- What is found in a string has no terminator in it. -/
theorem zero_notMem_of_getKeyValue {key value : List UInt8} (hsrc : 0 ∉ src)
    (h : getKeyValue src key = some (.ok value)) : 0 ∉ value := by
  have hfind : findKeyValue src key = .ok value := by
    unfold getKeyValue at h
    split at h
    · cases h
    · split at h
      · cases h
      · exact Option.some.inj h
  unfold findKeyValue at hfind
  -- each search goes on inside the rest the one before has found
  split at hfind
  · cases hfind
  · rename_i p hp
    split at hfind
    · cases hfind
    · rename_i p' hp'
      split at hfind
      · cases hfind
      · rename_i p'' hp''
        split at hfind
        · cases hfind
        · rename_i token rest htok
          cases hfind
          intro hzero
          apply hsrc
          apply (suffix_of_strstr hp).mem
          apply (suffix_of_strstr hp').mem
          apply (suffix_of_strstr hp'').mem
          exact mem_of_mem_strtok htok hzero

/-- `ServerInfo` holds a text that was stored in it behind a `memset`. -/
theorem holds_cleared_serverInfo (node : DataSpm) {info : List UInt8} (hzero : 0 ∉ info)
    (hlen : info.length < 128) :
    (node.stores [.assign Member.serverInfo 0, .of Member.serverInfo info]).mem.Holds
      Member.serverInfo info := by
  have hsrc : (Store.of Member.serverInfo info).src = info := Store.src_of (Nat.le_of_lt hlen)
  have hcleared : (node.mem.setNat Member.serverInfo 0).Holds Member.serverInfo [] :=
    .of_zeros (by decide) (CArray.read_setNat_zero node.mem Member.serverInfo)
  have hread := CArray.read_stores_of_mem (a := node.mem.setNat Member.serverInfo 0)
    (List.mem_singleton.mpr rfl) (w := .of Member.serverInfo info)
    (fun v hv => .inl (List.mem_singleton.mp hv))
  rw [hsrc] at hread
  exact hcleared.overwrite hzero hlen hread (Nat.zero_le _)

theorem getKeyValueFactory_eq (hc : deal.CarriedBy src) (hf : deal.Fits) (hsrc : 0 ∉ src)
    (node : DataSpm) : getKeyValueFactory src node = some (node.stores deal.factoryStores) := by
  have hget : ∀ v : ℤ, (node.setInt Member.factoryFlag v).mem.getNat Member.factoryFlag =
      (v % 2 ^ 8).toNat := node.getNat_setInt Member.factoryFlag
  unfold getKeyValueFactory factoryStores
  rw [hc.factoryFlag]
  simp only [Option.bind_eq_bind, Option.bind_some, hget]
  rcases hf.factoryFlag with h | h
  · rw [h]
    rfl
  · rw [h]
    obtain ⟨res, hres, hval⟩ := Option.map_eq_some_iff.mp hc.serverInfo
    rw [hres]
    cases res with
    | error code =>
      have hnone : deal.serverInfo = none := hval.symm
      have hred : deal.redirectInfo = [] := by simp [redirectInfo, hnone, longer]
      have hstr := (holds_cleared_serverInfo (node.setInt Member.factoryFlag 1)
        (List.not_mem_nil (a := (0 : UInt8))) (by decide)).cstrAt
      have hnil : (node.setInt Member.factoryFlag 1).stores
          [.assign Member.serverInfo 0, .of Member.serverInfo []] =
          (node.setInt Member.factoryFlag 1).setNat Member.serverInfo 0 :=
        congrArg (DataSpm.mk · node.pool) (CArray.store_of_nil _ Member.serverInfo)
      rw [hnil] at hstr
      rw [if_pos rfl, hred, hnone, if_pos rfl]
      show (((node.setInt Member.factoryFlag 1).setNat Member.serverInfo 0).mem.cstrAt
        Member.serverInfo).bind _ = _
      rw [hstr]
      show some (((node.setInt Member.factoryFlag 1).setNat Member.serverInfo 0).setNat
        Member.factoryFlag 0) = some (((node.setInt Member.factoryFlag 1).stores
          [.assign Member.serverInfo 0, .of Member.serverInfo []]).stores
            [.assign Member.factoryFlag 0])
      rw [hnil]
      rfl
    | ok value =>
      have hsome : deal.serverInfo = some value := hval.symm
      have hlen := hf.serverInfo value hsome
      have hstr := (holds_cleared_serverInfo (node.setInt Member.factoryFlag 1)
        (zero_notMem_of_getKeyValue hsrc hres) hlen).cstrAt
      have hcopy := ((node.setInt Member.factoryFlag 1).setNat Member.serverInfo 0).copyTo_of_le
        (f := Member.serverInfo) (Nat.le_of_lt hlen)
      rw [if_pos rfl, hsome]
      show ((((node.setInt Member.factoryFlag 1).setNat Member.serverInfo 0).copyTo
        Member.serverInfo value).bind fun node => (node.mem.cstrAt Member.serverInfo).bind _) = _
      rw [hcopy]
      show ((((node.setInt Member.factoryFlag 1).stores
        [.assign Member.serverInfo 0, .of Member.serverInfo value]).mem.cstrAt
          Member.serverInfo).bind _) = _
      rw [hstr]
      by_cases hshort : value.length < 10
      · have hred : deal.redirectInfo = [] := by
          simp [redirectInfo, h, hsome, longer, show ¬ 9 < value.length by omega]
        rw [hred]
        simp [hshort]
        rfl
      · have hred : deal.redirectInfo ≠ [] := by
          have hinfo : deal.redirectInfo = value := by
            simp [redirectInfo, h, hsome, longer, show 9 < value.length by omega]
          rw [hinfo]
          rintro rfl
          exact hshort (by decide)
        simp [hshort, hred]
        rfl

/-! ## The whole deal -/

/-- The stores of texts, one for each member. -/
def textStoreList (deal : Deal) : List (Store dataSpmSize) :=
  [.of Member.apn deal.apnText, .of Member.ip deal.ip, .of Member.speedStr deal.speedText,
   .of Member.vusimActiveNum deal.vusimText, .of Member.selnet deal.selnetText]

/-- The members of the stores before `speedStr` that are not texts. -/
def earlierFields : List Member :=
  [Member.miniteRemain, Member.lastStart, Member.ifTest, Member.orderType, Member.ifRoam,
   Member.speedType, Member.needFile, Member.isApn, Member.vpn, Member.ifVPN]

def cardFields : List Member :=
  [Member.portInt, Member.simBankID, Member.channelID, Member.vusimActiveFlag, Member.imei,
   Member.sIMSI, Member.imsi]

def laterFields : List Member := cardFields ++ [Member.isNet]

theorem eq_of_mem_textStores {f : Member} {t : List UInt8} {w : Store dataSpmSize}
    (hw : w ∈ textStores f t) : w = .of f t := by
  unfold textStores at hw
  split at hw
  · cases hw
  · exact List.mem_singleton.mp hw

theorem field_of_mem_factoryStores {w : Store dataSpmSize} (hw : w ∈ deal.factoryStores) :
    w.field = Member.factoryFlag ∨ w.field = Member.serverInfo := by
  unfold factoryStores at hw
  split at hw
  · rcases List.mem_append.mp hw with hw | hw
    · simp only [List.mem_cons, List.not_mem_nil, or_false] at hw
      rcases hw with rfl | rfl | rfl
      · exact .inl rfl
      · exact .inr rfl
      · exact .inr rfl
    · split at hw
      · rw [List.mem_singleton.mp hw]
        exact .inl rfl
      · cases hw
  · rw [List.mem_singleton.mp hw]
    exact .inl rfl

theorem field_of_mem_vusimStores {w : Store dataSpmSize} (hw : w ∈ deal.vusimStores) :
    w.field = Member.vusimActiveFlag ∨ w = .of Member.vusimActiveNum deal.vusimText := by
  unfold vusimStores at hw
  split at hw
  · rcases List.mem_append.mp hw with hw | hw
    · rw [List.mem_singleton.mp hw]
      exact .inl rfl
    · split at hw
      · cases hw
      · split at hw
        · rw [List.mem_singleton.mp hw]
          exact .inl rfl
        · exact .inr (List.mem_singleton.mp hw)
  · rw [List.mem_singleton.mp hw]
    exact .inl rfl

theorem field_of_mem_imeiStores {w : Store dataSpmSize} (hw : w ∈ deal.imeiStores) :
    w.field = Member.imei := by
  unfold imeiStores at hw
  split at hw
  · cases hw
  · rw [List.mem_singleton.mp hw]
    rfl

theorem mem_earlierStores {w : Store dataSpmSize} (hw : w ∈ deal.earlierStores) :
    w ∈ deal.textStoreList ∨ w.field ∈ earlierFields := by
  simp only [earlierStores, List.mem_append] at hw
  rcases hw with ((hw | hw) | hw) | hw
  · right
    simp only [numberStores, List.mem_cons, List.not_mem_nil, or_false] at hw
    rcases hw with rfl | rfl | rfl | rfl | rfl | rfl | rfl <;>
      simp [Store.assignInt, Store.assign, earlierFields]
  · left
    rw [eq_of_mem_textStores hw]
    simp [textStoreList]
  · right
    rw [List.mem_singleton.mp hw]
    simp [Store.assign, earlierFields]
  · right
    simp only [vpnStores, List.mem_cons, List.not_mem_nil, or_false] at hw
    rcases hw with rfl | rfl <;> simp [Store.assignInt, Store.assign, earlierFields]

theorem mem_cardStores {w : Store dataSpmSize} (hw : w ∈ deal.cardStores) :
    w ∈ deal.textStoreList ∨ w.field ∈ cardFields := by
  simp only [cardStores, addressStores, slotStores, imsiStores, List.mem_append, List.mem_cons,
    List.not_mem_nil, or_false] at hw
  rcases hw with ((((((rfl | rfl) | (rfl | rfl)) | hw) | hw) | hw) | (rfl | rfl)) | hw
  · simp [textStoreList]
  · simp [Store.assignInt, Store.assign, cardFields]
  · simp [Store.assignInt, Store.assign, cardFields]
  · simp [Store.assignInt, Store.assign, cardFields]
  · rw [eq_of_mem_textStores hw]
    simp [textStoreList]
  · rcases field_of_mem_vusimStores hw with h | rfl
    · simp [h, cardFields]
    · simp [textStoreList]
  · simp [field_of_mem_imeiStores hw, cardFields]
  · simp [Store.of, cardFields]
  · simp [Store.of, cardFields]
  · rw [eq_of_mem_textStores hw]
    simp [textStoreList]

theorem eq_of_mem_netStores {w : Store dataSpmSize} (hw : w ∈ deal.netStores) :
    w = .assign Member.isNet 2 := by
  unfold netStores at hw
  split at hw
  · cases hw
  · exact List.mem_singleton.mp hw

theorem mem_laterStores {w : Store dataSpmSize} (hw : w ∈ deal.laterStores) :
    w ∈ deal.textStoreList ∨ w.field ∈ laterFields := by
  rcases List.mem_append.mp hw with hw | hw
  · rcases mem_cardStores hw with h | h
    · exact .inl h
    · exact .inr (List.mem_append_left _ h)
  · rw [eq_of_mem_netStores hw]
    exact .inr (by simp [Store.assign, laterFields])

theorem field_of_mem_textStoreList {w : Store dataSpmSize} (hw : w ∈ deal.textStoreList) :
    w.field ∈ [Member.apn, Member.ip, Member.speedStr, Member.vusimActiveNum, Member.selnet] := by
  simp only [textStoreList, List.mem_cons, List.not_mem_nil, or_false] at hw
  rcases hw with rfl | rfl | rfl | rfl | rfl <;> simp [Store.of]

/-- No store of a text, for a redirect or behind it is for `f`. -/
theorem disjoint_of_mem_laterStores {f : Member}
    (htext : ∀ g ∈ [Member.apn, Member.ip, Member.speedStr, Member.vusimActiveNum,
      Member.selnet], g.Disjoint f)
    (hlater : ∀ g ∈ laterFields, g.Disjoint f) {w : Store dataSpmSize}
    (hw : w ∈ deal.laterStores) : w.field.Disjoint f := by
  rcases mem_laterStores hw with hw | hw
  · exact htext _ (field_of_mem_textStoreList hw)
  · exact hlater _ hw

theorem disjoint_of_mem_factoryStores {f : Member}
    (h : ∀ g ∈ [Member.factoryFlag, Member.serverInfo], g.Disjoint f) {w : Store dataSpmSize}
    (hw : w ∈ deal.factoryStores) : w.field.Disjoint f := by
  rcases field_of_mem_factoryStores hw with hw | hw
  · rw [hw]
    exact h _ (by simp)
  · rw [hw]
    exact h _ (by simp)

/-- One store only is for `speedType` until it is tested. -/
theorem speedType_stored (deal : Deal) (node : DataSpm) :
    (node.stores (deal.earlierStores ++ deal.factoryStores ++ deal.laterStores)).mem.getNat
      Member.speedType = (deal.speedType % 2 ^ 8).toNat := by
  have hread : (node.mem.stores (deal.earlierStores ++ deal.factoryStores ++
      deal.laterStores)).read Member.speedType = leBytes 1 (deal.speedType % 2 ^ 8).toNat := by
    apply CArray.read_stores_assign (f := Member.speedType)
    · simp [earlierStores, numberStores, Store.assignInt, Member.speedType]
    · intro w hw
      rcases List.mem_append.mp hw with hw | hw
      · rcases List.mem_append.mp hw with hw | hw
        · simp only [earlierStores, numberStores, vpnStores, List.mem_append, List.mem_cons,
            List.not_mem_nil, or_false] at hw
          rcases hw with (((rfl | rfl | rfl | rfl | rfl | rfl | rfl) | hw) | rfl) | rfl | rfl
          case inl.inl.inl.inr.inr.inr.inr.inr.inl => exact .inl rfl
          case inl.inl.inr =>
            rw [eq_of_mem_textStores hw]
            exact .inr (show Member.apn.Disjoint Member.speedType by decide)
          all_goals exact .inr (of_decide_eq_true rfl)
        · exact .inr (disjoint_of_mem_factoryStores (by decide) hw)
      · exact .inr (disjoint_of_mem_laterStores (by decide) (by decide) hw)
  rw [CArray.getNat, DataSpm.mem_stores, hread, leNat_leBytes]
  omega

theorem getDataFromDeal_eq (hc : deal.CarriedBy src) (hf : deal.Fits) (hsrc : 0 ∉ src)
    (node : DataSpm) : getDataFromDeal src node = some (node.stores deal.stores) := by
  have hapn : ∀ node, getKeyValueStr src (text "APN") Member.apn 3 node =
      some (if deal.apnText = [] then 0 else 1,
        node.stores (textStores Member.apn deal.apnText)) :=
    getKeyValueStr_eq hc.apn (Nat.le_succ_of_le (length_longer_le_of_getKey hc.apn))
  have hspeed : ∀ node, getKeyValueStr src (text "speedStr") Member.speedStr 4 node =
      some (if deal.speedText = [] then 0 else 1,
        node.stores (textStores Member.speedStr deal.speedText)) :=
    getKeyValueStr_eq hc.speedStr
      (length_longer_le fun value h => Nat.le_of_lt (hf.speedStr value h))
  have hselnet : ∀ node, getKeyValueStr src (text "Selnet") Member.selnet 4 node =
      some (if deal.selnetText = [] then 0 else 1,
        node.stores (textStores Member.selnet deal.selnetText)) :=
    getKeyValueStr_eq hc.selnet
      (length_longer_le fun value h => Nat.le_of_lt (hf.selnet value h))
  have htype := deal.speedType_stored node
  have hone : (deal.speedType % 2 ^ 8).toNat = 1 ↔ deal.speedType % 256 = 1 := by omega
  unfold getDataFromDeal
  simp only [hc.minsRemaining, hc.lastStart, hc.ifTest, hc.orderType, hc.ifRoam, hc.speedType,
    hc.fileUpdate, hapn, getKeyValueVPN_eq hc hf, getKeyValueFactory_eq hc hf hsrc,
    getKeyValueIPAndPort_eq hc hf, getKeyValueStrType_eq hc, hspeed,
    getKeyValueVusimActiveFlag_eq hc, getKeyValueIMEI_eq hc, getKeyValueIMSI_eq hc hf, hselnet,
    Option.bind_eq_bind, Option.bind_some]
  simp only [DataSpm.setInt_eq_stores, DataSpm.setNat_eq_stores, ← DataSpm.stores_append]
  unfold stores finalStores
  -- both sides become one list of stores; `isNet` is stored only if `Selnet` is granted
  by_cases hnet : deal.selnetText = [] <;>
  by_cases hslow : deal.speedType % 256 = 1 <;>
  · simp only [earlierStores, laterStores, cardStores, netStores, numberStores, hnet, if_true, if_false, ne_eq, not_true_eq_false,
      one_ne_zero, not_false_eq_true, List.append_nil, List.append_assoc, List.cons_append,
      List.nil_append] at htype ⊢
    rw [htype]
    simp only [hone, hslow, if_true, if_false, ← DataSpm.stores_append, List.append_assoc,
      List.cons_append, List.nil_append]
    rfl

end Deal

end Tdm.Common
