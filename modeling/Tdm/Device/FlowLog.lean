import Tdm.Device.Relay

/-!
# The traffic a device reports

`Local_Log_Pack` logs a `Vsim_UpLoad_Flow` that stands in `Buff` of a node. Newer firmware counts
in units of 1024 bytes. The product is formed in 32 bits and only then stored in 64, so it wraps
at 4 GB, and the record does not tell.
-/

namespace Tdm.Device

open Tdm.Lib Tdm.Common

/-! ## The record -/

namespace UploadFlow

def status3g : Member := ⟨81, 1, by decide⟩
def strength3g : Member := ⟨82, 1, by decide⟩
def wifiState : Member := ⟨83, 1, by decide⟩
def uploadFlowId : Member := ⟨84, 4, by decide⟩
def upFlowAll : Member := ⟨88, 4, by decide⟩
def downFlowAll : Member := ⟨92, 4, by decide⟩
def dayUsed : Member := ⟨96, 4, by decide⟩
def wifiCount : Member := ⟨100, 1, by decide⟩
def battery : Member := ⟨101, 1, by decide⟩
def mcc : Member := ⟨104, 4, by decide⟩
def mnc : Member := ⟨108, 4, by decide⟩
def lac : Member := ⟨112, 4, by decide⟩
def cid : Member := ⟨116, 4, by decide⟩
def roamUpFlowAll : Member := ⟨120, 4, by decide⟩
def roamDownFlowAll : Member := ⟨124, 4, by decide⟩
def roamDayUsed : Member := ⟨128, 4, by decide⟩
def roam3gStrength : Member := ⟨132, 4, by decide⟩
def flowAll : Member := ⟨140, 4, by decide⟩
def networkType : Member := ⟨144, 4, by decide⟩

end UploadFlow

/-- `getNetworkType`: the text it stores. -/
def getNetworkType : ℤ → List UInt8
  | 1 => text "GPRS"
  | 2 => text "EDGE"
  | 3 => text "UMTS"
  | 4 => text "CMDA"
  | 5 => text "EVDO_0"
  | 6 => text "EVDO_A"
  | 7 => text "1xRTT"
  | 8 => text "HSDPA"
  | 9 => text "HSUPA"
  | 10 => text "HSPA"
  | 11 => text "IDEN"
  | 12 => text "EVDO_B"
  | 13 => text "LTE"
  | 14 => text "EHRPD"
  | 15 => text "HSPAP"
  | _ => []

/-- The number logged for a counter: an `unsigned int` is multiplied by 1024. -/
def flowNumber (version counter : ℕ) : ℕ :=
  if 1601080936 ≤ version then counter * 1024 % 2 ^ 32 else counter

/-- What `Local_Log_Pack` prints in front of the traffic. -/
def flowFront (sn : List UInt8) (node : DataSpm) : List UInt8 :=
  text "45445445,2001,20|\x7b'SN':'" ++ sn ++ text "','location':'" ++
    decimalInt (node.mem.getInt UploadFlow.mcc) ++ text "." ++
    decimalInt (node.mem.getInt UploadFlow.mnc) ++ text "." ++
    decimalInt (node.mem.getInt UploadFlow.lac) ++ text "." ++
    decimalInt (node.mem.getInt UploadFlow.cid) ++ text "','UploadFlowCount':'" ++
    decimalInt (node.mem.getInt UploadFlow.uploadFlowId) ++ text "','wifiCount':'" ++
    decimalInt (node.mem.getNat UploadFlow.wifiCount) ++ text "','battery':'" ++
    decimalInt (node.mem.getNat UploadFlow.battery) ++ text "','wifiState':'" ++
    decimalInt (node.mem.getNat UploadFlow.wifiState * 2) ++ text "','gSta':'" ++
    decimalInt (node.mem.getNat UploadFlow.status3g) ++ text "','gStrenth':'" ++
    decimalInt (node.mem.getNat UploadFlow.strength3g) ++ text "','upFlowAll':'"

/-- What follows the traffic. -/
def flowBack (imsi : List UInt8) (node : DataSpm) (now : ℤ) : List UInt8 :=
  text ",'minsRemaining':'" ++ decimalInt (node.mem.getInt InBuff.remainMin) ++
    text "','roamGStrenth':'" ++ decimalInt (node.mem.getInt UploadFlow.roam3gStrength) ++
    text "','roamUpFlowAll':'" ++ decimalInt (node.mem.getInt UploadFlow.roamUpFlowAll) ++
    text "','roamDownFlowAll':'" ++ decimalInt (node.mem.getInt UploadFlow.roamDownFlowAll) ++
    text "','roamDayUsedFlow':'" ++ decimalInt (node.mem.getInt UploadFlow.roamDayUsed) ++
    text "','FlowDistinction':'" ++ decimalInt (node.mem.getInt UploadFlow.flowAll) ++
    text "','IMSI':'" ++ imsi ++ text "','TTContext':'" ++
    getNetworkType (node.mem.getInt UploadFlow.networkType) ++ text "','lastTime':'" ++
    decimalInt now ++ text "'\x7d&&"

/-- The text that `Local_Log_Pack` prints, with the traffic `up`, `down` and `day`. -/
def localLogText (sn imsi : List UInt8) (node : DataSpm) (up down day : ℕ) (now : ℤ) :
    List UInt8 :=
  flowFront sn node ++ (decimalInt up ++ 39 :: (text ",'downFlowAll':'" ++ (decimalInt down ++
    39 :: (text ",'dayUsedFlow':'" ++ (decimalInt day ++ 39 :: flowBack imsi node now)))))

/-- `Local_Log_Pack` on the record in `Buff`: the node and the text. -/
def localLogPack (sn imsi : List UInt8) (node : DataSpm) (version : ℕ) (now : ℤ) :
    DataSpm × List UInt8 :=
  let node :=
    if node.mem.getNat InBuff.remainMin = 0 then node.setNat InBuff.remainMin 1440 else node
  (node, localLogText sn imsi node (flowNumber version (node.mem.getNat UploadFlow.upFlowAll))
    (flowNumber version (node.mem.getNat UploadFlow.downFlowAll))
    (flowNumber version (node.mem.getNat UploadFlow.dayUsed)) now)

/-- `Coding_With_Local` with the record it logs. -/
def codingWithLocalLogged (node : DataSpm) (now : ℤ) : Option (DataSpm × LogData) := do
  let sn ← (CArray.zero 16).memcpy (node.mem.read Member.key)
  let node := node.setNat Member.type 2
  let (node, line) := localLogPack (← node.mem.cstrAt Member.sn) (← node.mem.cstrAt Member.sIMSI)
    node (node.mem.getNat Member.version) now
  let printed ← (CArray.zero 1004).memcpy (line ++ [0])
  return (node, ⟨sn, printed, (← printed.cstr).length⟩)

/-- The log does not change what the handler does to the node. -/
theorem codingWithLocal_of_logged {node node' : DataSpm} {now : ℤ} {log : LogData}
    (h : codingWithLocalLogged node now = some (node', log)) :
    codingWithLocal node = (node', []) := by
  obtain ⟨sn, -, h⟩ := Option.bind_eq_some_iff.mp h
  obtain ⟨snText, -, h⟩ := Option.bind_eq_some_iff.mp h
  obtain ⟨imsi, -, h⟩ := Option.bind_eq_some_iff.mp h
  obtain ⟨printed, -, h⟩ := Option.bind_eq_some_iff.mp h
  obtain ⟨s, -, h⟩ := Option.bind_eq_some_iff.mp h
  obtain ⟨rfl, -⟩ := Prod.mk.inj (Option.some.inj h)
  rfl

/-! ## The numbers -/

/-- The counter in bytes. -/
def exactFlow (version counter : ℕ) : ℕ :=
  if 1601080936 ≤ version then counter * 1024 else counter

theorem flowNumber_eq_iff (version counter : ℕ) :
    flowNumber version counter = exactFlow version counter ↔
      version < 1601080936 ∨ counter < 2 ^ 22 := by
  unfold flowNumber exactFlow
  split <;> omega

/-- A text in front of a quote is found again. -/
theorem quoted_inj {a b s t : List UInt8} (ha : a ≠ []) (hb : b ≠ []) (ha' : 39 ∉ a) (hb' : 39 ∉ b)
    (h : a ++ 39 :: s = b ++ 39 :: t) : a = b ∧ s = t := by
  have htok := congrArg (strtok 39) h
  rw [strtok_append ha ha', strtok_append hb hb'] at htok
  exact Prod.mk.inj (Option.some.inj htok)

theorem number_inj {a b : ℕ} {s t : List UInt8}
    (h : decimalInt a ++ 39 :: s = decimalInt b ++ 39 :: t) : a = b ∧ s = t := by
  obtain ⟨hnumber, hrest⟩ := quoted_inj (decimalInt_ne_nil _) (decimalInt_ne_nil _)
    (notMem_decimalInt (by decide) (by decide) _) (notMem_decimalInt (by decide) (by decide) _) h
  exact ⟨Int.ofNat.inj (decimalPadded_injective 0 hnumber), hrest⟩

/-- The traffic can be read from the text. -/
theorem localLogText_inj {sn imsi : List UInt8} {node : DataSpm} {now : ℤ}
    {up down day up' down' day' : ℕ} :
    localLogText sn imsi node up down day now = localLogText sn imsi node up' down' day' now ↔
      up = up' ∧ down = down' ∧ day = day' := by
  constructor
  · intro h
    obtain ⟨hup, h⟩ := number_inj (List.append_cancel_left h)
    obtain ⟨hdown, h⟩ := number_inj (List.append_cancel_left h)
    obtain ⟨hday, -⟩ := number_inj (List.append_cancel_left h)
    exact ⟨hup, hdown, hday⟩
  · rintro ⟨rfl, rfl, rfl⟩
    rfl

/-- The traffic a record is about. -/
theorem getNat_localLogPack (sn imsi : List UInt8) (node : DataSpm) (version : ℕ) (now : ℤ)
    {f : Member} (hf : InBuff.remainMin.Disjoint f) :
    (localLogPack sn imsi node version now).1.mem.getNat f = node.mem.getNat f := by
  unfold localLogPack
  dsimp only
  split
  · exact CArray.getNat_setNat_of_disjoint _ _ hf
  · rfl

/-- For every record and every version: the record that is logged is the one with the exact traffic
exactly if the version counts bytes or all counters are below 2^22. As long as they are, more
traffic is a larger number. -/
theorem flow_exact_iff (sn imsi : List UInt8) (node : DataSpm) (version : ℕ) (now : ℤ) :
    ((localLogPack sn imsi node version now).2 =
        localLogText sn imsi (localLogPack sn imsi node version now).1
          (exactFlow version (node.mem.getNat UploadFlow.upFlowAll))
          (exactFlow version (node.mem.getNat UploadFlow.downFlowAll))
          (exactFlow version (node.mem.getNat UploadFlow.dayUsed)) now ↔
      version < 1601080936 ∨ node.mem.getNat UploadFlow.upFlowAll < 2 ^ 22 ∧
        node.mem.getNat UploadFlow.downFlowAll < 2 ^ 22 ∧
        node.mem.getNat UploadFlow.dayUsed < 2 ^ 22) ∧
    StrictMonoOn (flowNumber version) {counter | version < 1601080936 ∨ counter < 2 ^ 22} := by
  constructor
  · have hlogged : (localLogPack sn imsi node version now).2 =
        localLogText sn imsi (localLogPack sn imsi node version now).1
          (flowNumber version (node.mem.getNat UploadFlow.upFlowAll))
          (flowNumber version (node.mem.getNat UploadFlow.downFlowAll))
          (flowNumber version (node.mem.getNat UploadFlow.dayUsed)) now := by
      rw [← getNat_localLogPack sn imsi node version now (f := UploadFlow.upFlowAll) (by decide),
        ← getNat_localLogPack sn imsi node version now (f := UploadFlow.downFlowAll) (by decide),
        ← getNat_localLogPack sn imsi node version now (f := UploadFlow.dayUsed) (by decide)]
      rfl
    rw [hlogged, localLogText_inj, flowNumber_eq_iff, flowNumber_eq_iff, flowNumber_eq_iff]
    omega
  · intro a ha b hb hlt
    have ha' : version < 1601080936 ∨ a < 2 ^ 22 := ha
    have hb' : version < 1601080936 ∨ b < 2 ^ 22 := hb
    rw [(flowNumber_eq_iff version a).mpr ha', (flowNumber_eq_iff version b).mpr hb']
    unfold exactFlow
    split <;> omega

/-- A device that has sent 4 GB. -/
def flowNode : DataSpm := initDataSpm.setNat UploadFlow.upFlowAll (2 ^ 22)

/-- 4 GB are logged as 0, and 1024 bytes less as more. -/
theorem flow_wraps :
    flowNode.mem.getNat UploadFlow.upFlowAll = 4194304 ∧
      (strstr (text "'upFlowAll':'0','")
        (localLogPack (text "172150210000937") [] flowNode 1601080936 0).2).isSome = true ∧
      flowNumber 1601080936 4194304 = 0 ∧ flowNumber 1601080936 4194303 = 4294966272 := by
  refine ⟨?_, ?_, by decide, by decide⟩
  · rw [flowNode, DataSpm.getNat_setNat]
    rfl
  · decide +kernel

end Tdm.Device
