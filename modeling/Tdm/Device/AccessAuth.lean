import Tdm.Common.Deal

/-!
# Logins

`Coding_With_CMD_Data_Pool` stores a message in the node of its device;
`Coding_With_ACCESS_AUTH` then gets a deal for the device and `AccessAuth_Result_Pack`
builds the answer frame from the node.
-/

namespace Tdm.Device

open Tdm.Lib Tdm.Common

/-! ## The answer -/

/-- `Set_Dada_IP` on a zeroed `Data_IP`: the numbers of a dotted text, one byte each. -/
def setDadaIP (ip : List UInt8) : Option (CArray 12) :=
  -- the text is copied to `simip[20]` and cut up there
  if 20 ≤ ip.length then none
  else (CArray.zero 12).memcpy ((tokens 46 ip).map fun p => UInt8.ofNat (atoi p % 256).toNat)

def maskNum : ℕ := 0x1F

/-! The members of `TD_Result_t`. -/

namespace TdResult

def needFile : Field 36 := ⟨0, 1, by decide⟩
def vusimActiveFlag : Field 36 := ⟨3, 1, by decide⟩
def dataClrFlag : Field 36 := ⟨4, 1, by decide⟩
def unused0 : Field 36 := ⟨5, 1, by decide⟩
def unused1 : Field 36 := ⟨6, 1, by decide⟩
def imsi : Field 36 := ⟨7, 9, by decide⟩
def thresholdData : Field 36 := ⟨16, 2, by decide⟩
def miniteRemain : Field 36 := ⟨20, 4, by decide⟩
def byteRemain : Field 36 := ⟨24, 2, by decide⟩
def systemId : Field 36 := ⟨26, 1, by decide⟩
def channelId : Field 36 := ⟨27, 1, by decide⟩
def ip : Field 36 := ⟨28, 4, by decide⟩
def thresholdBattery : Field 36 := ⟨32, 1, by decide⟩

end TdResult

/-- `ip` of a `Data_IP`. -/
def dataIpIp : Field 12 := ⟨0, 4, by decide⟩

/-- The feature byte: APN, network selection, speed and VPN. -/
def featureByte (node : DataSpm) : ℕ :=
  maskNum &&& (node.mem.getNat Member.isApn ||| node.mem.getNat Member.isNet |||
    node.mem.getNat Member.speedType ||| node.mem.getNat Member.ifVPN)

/-- The `TD_Result_t` of a granted login. -/
def tdResult (node : DataSpm) (para1 : CArray 12) : CArray 36 :=
  let para := CArray.zero 36
  let para := para.copyField TdResult.imsi node.mem Member.imsi (by decide)
  let para := para.setNat TdResult.miniteRemain (node.mem.getNat Member.miniteRemain)
  let para := para.setNat TdResult.needFile (node.mem.getNat Member.needFile)
  let para :=
    if node.mem.getNat Member.orderType ≠ 2 then
      para.setNat TdResult.dataClrFlag (node.mem.getNat Member.lastStart)
    else para
  let para := para.setNat TdResult.unused0 (featureByte node)
  let para := para.setNat TdResult.unused1 (node.mem.getNat Member.ifRoam)
  let para := para.setNat TdResult.thresholdData (node.mem.getNat Member.threshold)
  let para := para.setNat TdResult.vusimActiveFlag (node.mem.getNat Member.vusimActiveFlag)
  let para := para.copyField TdResult.ip para1 dataIpIp (by decide)
  let para := para.setNat TdResult.thresholdBattery 6
  let para := para.setNat TdResult.systemId (node.mem.getNat Member.simBankID)
  let para := para.setNat TdResult.channelId (node.mem.getNat Member.channelID)
  para.setNat TdResult.byteRemain (node.mem.getNat Member.port)

/-- `AccessAuth_Result_Pack`: the bytes of the frame. -/
def accessAuthResultPack (node : DataSpm) : Option (List UInt8) :=
  let result := node.mem.getInt Member.result
  if 0 < result then do
    let code := if result = SimAllocErrCode.sockErr.value then SimAllocErrCode.ipChange.value
      else result
    let info ←
      if node.mem.getNat Member.factoryFlag = 1 then node.mem.cstrAt Member.serverInfo
      else some []
    return [0x91, 1, 0, 0x32, UInt8.ofNat code.toNat] ++ info
  else do
    let para1 ← setDadaIP (← node.mem.cstrAt Member.ip)
    return [0x91, 36, 0, 0x31] ++ (tdResult node para1).bytes

/-! ## The message -/

/-- `Node_Data`. -/
structure NodeData where
  cmdTag : ℤ
  fd : ℤ
  len : ℤ
  sn : CArray 16
  imsi : CArray 12
  buff : CArray 256

def NodeData.imsi9 : Field 12 := ⟨0, 9, by decide⟩
def NodeData.wholeBuff : Field 256 := ⟨0, 256, by decide⟩

theorem NodeData.size_imsi9 : imsi9.size = Member.imsi.size := rfl

theorem NodeData.size_wholeBuff : wholeBuff.size = Member.buff.size := rfl

/-- The low bytes of a country code fit in a message. -/
theorem NodeData.country_fits : ([0x36, 1] : List UInt8).length ≤ 256 := by decide

/-- What `Coding_With_CMD_Data_Pool` stores in the node. -/
def receive (node : DataSpm) (para : NodeData) : DataSpm :=
  let node := node.setInt Member.cmdTag para.cmdTag
  let node := node.setInt Member.fd1 para.fd
  let node := node.setInt Member.len para.len
  let node := node.copyField Member.buff para.buff NodeData.wholeBuff NodeData.size_wholeBuff
  if node.mem.bytes[55]? ≠ some 0x80 then
    node.copyField Member.imsi para.imsi NodeData.imsi9 NodeData.size_imsi9
  else node

/-- The node and the frame `Coding_With_ACCESS_AUTH` makes. -/
def accessAuth (node : DataSpm) (x : Exchange) : Option (DataSpm × List UInt8) := do
  let (_, node) ← simAllocateProc node x
  let frame ← accessAuthResultPack node
  return (node.setNat Member.type 1, frame)

/-- A login: the message is stored and handled. -/
def login (node : DataSpm) (para : NodeData) (x : Exchange) : Option (DataSpm × List UInt8) :=
  accessAuth (receive node para) x

end Tdm.Device
