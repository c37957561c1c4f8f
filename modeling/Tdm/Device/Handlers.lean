import Tdm.Device.Command

/-!
# The handlers of `TDM.c`

What each handler that `Coding_With_Date` calls does to the node of its device, and the
frames it writes to the device. The texts of log records are left out, and so are the
requests sent to the backend; a log record that overruns its buffer has no result.
-/

namespace Tdm.Device

open Tdm.Lib Tdm.Common

/-- The node after a handler and the frames it has written. -/
abbrev Handled := DataSpm × List (List UInt8)

/-! The members of the structs that handlers read from `Buff`, at byte 72 of the node. -/

namespace InBuff

/-- `IMSI` of a `heartBeatWithData_t`. -/
def hbIMSI : Member := ⟨72, 9, by decide⟩
/-- `SN` of a `heartBeatWithData_t`. -/
def hbSN : Member := ⟨81, 15, by decide⟩
/-- `Buff[0]`. -/
def first : Member := ⟨72, 1, by decide⟩
/-- `Buff[5]`, the length byte of an APDU. -/
def apduLength : Member := ⟨77, 1, by decide⟩
/-- `IMSI` of a `Deal_t`. -/
def dealIMSI : Member := ⟨82, 9, by decide⟩
/-- `Imsi` of a `Device_Logout`. -/
def logoutImsi : Member := ⟨88, 9, by decide⟩
/-- `Vpn` of a `Release_Vpn`. -/
def releasedVpn : Member := ⟨88, 50, by decide⟩
/-- `remain_min` of a `Vsim_UpLoad_Flow`. -/
def remainMin : Member := ⟨136, 4, by decide⟩

end InBuff

/-- `Hex2String(imsi, para->sIMSI, LEN_OF_IMSI)`. -/
def setSIMSI (node : DataSpm) (imsi : List UInt8) : Option DataSpm :=
  node.copyTo Member.sIMSI (hex2String imsi ++ [0])

/-! ## The SIM pool server -/

namespace DataIP

def port : Field 12 := ⟨4, 2, by decide⟩
def systemId : Field 12 := ⟨6, 1, by decide⟩
def channelId : Field 12 := ⟨7, 1, by decide⟩
def sn : Field 12 := ⟨8, 4, by decide⟩

end DataIP

/-- `sprintf("%d.%d.%d.%d")`. -/
def dotted (ip : List UInt8) : List UInt8 :=
  (text ".").intercalate (ip.map fun b => decimal b.toNat)

/-- The 12 bytes that end where the message ends. If it is shorter than that they begin
before `Buff`. -/
def trailer (node : DataSpm) : CArray 12 :=
  ⟨(node.mem.bytes.drop (60 + node.mem.getNat Member.len)).take 12, by
    have hlen : node.mem.getNat Member.len < 256 := node.mem.getNat_lt Member.len
    have hsize : node.mem.bytes.length = 912 := node.mem.size
    rw [List.length_take, List.length_drop, hsize]
    omega⟩

/-- The start of `PickUp_Data_Spm`: an address behind the APDU becomes that of the node. -/
def takeTrailer (node : DataSpm) : Option DataSpm := do
  let len := node.mem.getNat Member.len
  if node.mem.getNat Member.cmdTag = Cmd.cmdTT.tag.toNat ∧
      (node.mem.getNat InBuff.apduLength : ℤ) ≠ len - 6 then
    let para1 := trailer node
    let node ← node.copyTo Member.ip (dotted (para1.read dataIpIp) ++ [0])
    let node := node.setNat Member.port (para1.getNat DataIP.port)
    let node := node.setNat Member.simBankID (para1.getNat DataIP.systemId)
    let node := node.setNat Member.channelID (para1.getNat DataIP.channelId)
    return node.setInt Member.len (len - 12)
  else return node

namespace TdmToSpm

def cmd : Field 152 := ⟨0, 4, by decide⟩
def len : Field 152 := ⟨4, 4, by decide⟩
def imsi : Field 152 := ⟨8, 9, by decide⟩
def buff : Field 152 := ⟨17, 127, by decide⟩
def simBankID : Field 152 := ⟨144, 4, by decide⟩
def channelID : Field 152 := ⟨148, 4, by decide⟩

end TdmToSpm

/-- The `Tdm_to_Spm` record. -/
def tdmToSpm (node : DataSpm) : Option (CArray 152) := do
  let len := node.mem.getNat Member.len
  let data := CArray.zero 152
  let data := data.setNat TdmToSpm.cmd (node.mem.getNat Member.cmdTag)
  let data := data.setNat TdmToSpm.len len
  let data := data.setInt TdmToSpm.simBankID (node.mem.getInt Member.simBankID)
  let data := data.setInt TdmToSpm.channelID (node.mem.getInt Member.channelID)
  let data ← data.copyTo TdmToSpm.buff ((node.mem.read Member.buff).take len)
  return data.copyField TdmToSpm.imsi node.mem Member.imsi (by decide)

/-- What `PickUp_Data_Spm` leaves: its result, the record it stores, if it gets that far, the
node and the descriptors it has opened and closed. -/
structure PickedUp where
  socketSpm : ℤ
  record : Option (CArray 152)
  node : DataSpm
  events : List FdEvent

/-- `PickUp_Data_Spm`. -/
def pickUpDataSpm (node : DataSpm) (w : World) : Option PickedUp := do
  let node ← takeTrailer node
  if node.mem.getInt Member.socketSpm ≤ 0 ∧ 0 < node.mem.getNat Member.port then
    let node := node.setInt Member.socketSpm (connectToServerTimeOut w.connect)
    let socketSpm := node.mem.getInt Member.socketSpm
    if socketSpm ≤ 0 then
      return ⟨0, none, node, w.connect.events ++
        setSimCardsStatusEvents (node.mem.read Member.sIMSI) w.status⟩
    else return ⟨socketSpm, some (← tdmToSpm node), node, w.connect.events⟩
  else return ⟨node.mem.getInt Member.socketSpm, some (← tdmToSpm node), node, []⟩

/-- `Data_Coding_Spm` with a destination of `n` bytes: its result, the destination and the
node. A failed exchange closes the socket. -/
def dataCodingSpm (node : DataSpm) (n : ℕ) (x : SpmExchange) :
    Option (ℤ × CArray n × DataSpm) :=
  match x with
  | .sendFailed => some (-12, .zero n, node.setInt Member.socketSpm (-1))
  | .recvFailed stored => do
    return (-13, ← (CArray.zero n).memcpy stored, node.setInt Member.socketSpm (-1))
  -- `GetMsgFromSock` stores a terminator behind the reply
  | .reply bytes _ => do return (bytes.length, ← (CArray.zero n).memcpy (bytes ++ [0]), node)

/-- The descriptor `Data_Coding_Spm` closes. -/
def dataCodingSpmEvents (node : DataSpm) : SpmExchange → List FdEvent
  | .sendFailed | .recvFailed _ => closeSocketFdEvents node Member.socketSpm
  | .reply _ _ => []

/-- `PickUp_Data_Spm` and then `Data_Coding_Spm`, as both callers make them: the number of
bytes received, the buffer and the node. -/
def spmExchange (node : DataSpm) (n : ℕ) (w : World) : Option (ℤ × CArray n × DataSpm) := do
  let picked ← pickUpDataSpm node w
  let node := picked.node.setInt Member.socketSpm picked.socketSpm
  match picked.record with
  | none => return (0, .zero n, node)
  | some _ => dataCodingSpm node n w.spm

/-- `Coding_With_SIMFILE_REQUEST`. -/
def codingWithSimfileRequest (node : DataSpm) (w : World) : Option Handled := do
  let (sendbytes, recvBuf, node) ← spmExchange node 1024 w
  if sendbytes ≤ 5 then return (node, [])
  else return (node, [recvBuf.bytes.take sendbytes.toNat])

/-- `TT_Log_Pack_Data`: the text of `len` bytes is put in `TT_buf[160]`, and `imsi[18]` is
cleared. -/
def ttLogPackData (node : DataSpm) (len : ℤ) : Option DataSpm :=
  if 160 < 2 * len + 1 then none else some (node.setNat Member.virFlag 0)

/-- `TT_Result_Pack` without data: the header is stored over the buffer. -/
def ttResultPack {n : ℕ} (recvBuf : CArray n) (num : ℕ) (first : UInt8) : List UInt8 :=
  [0x93, UInt8.ofNat num, 0, first] ++ (recvBuf.bytes.drop 4).take num

/-- `Coding_With_CMDTT`. -/
def codingWithCMDTT (node : DataSpm) (w : World) : Option Handled := do
  let node := node.setNat Member.type 1
  let node := node.setNat Member.ttCnt (node.mem.getNat InBuff.first)
  let node ← setSIMSI node (node.mem.read Member.imsi)
  let (sendbytes, recvBuf, node) ← spmExchange node 520 w
  let first := UInt8.ofNat (node.mem.getNat InBuff.first)
  if sendbytes = 1 then
    let result := (recvBuf.get 0).toNat
    if result ∈ [1, 2, 3, 4, 6, 7, 8] then
      let node := node.setNat Member.result 3
      return (← ttLogPackData node (-result), [ttResultPack recvBuf 1 first])
    else if result ∈ [5, 9, 10, 11] then
      return (← ttLogPackData node (-result), [ttResultPack recvBuf 2 first])
    else return (← ttLogPackData node (-result), [recvBuf.bytes.take 1])
  else if 1 < sendbytes then
    -- the reply is kept in `tmp_buff[128]`, and packed by way of `SendBuf[256]`
    if 128 < sendbytes then none
    else
      let data := recvBuf.bytes.take sendbytes.toNat
      return (← ttLogPackData node sendbytes,
        [[0x93, UInt8.ofNat sendbytes.toNat, 0, first] ++ data])
  else return (← ttLogPackData node 0, [ttResultPack recvBuf 1 first])

/-! ## Deals -/

/-- `Set_Deal_From_SimPool` with its `Dst[256]`. -/
def setDealFromSimPool (x : Exchange) : Option ℤ := do
  let (cnt, dst) ← getDealFromSimPoolSocket x
  if 256 < dst.length then none else return cnt

/-- `Send_Change_IP`. -/
def sendChangeIP (node : DataSpm) (w : World) : Option Handled := do
  let _ ← if redirected (node.mem.getNat Member.mcc) then setDealFromSimPool w.deal else some 0
  let node := node.setNat Member.factoryFlag 0
  let node := node.setNat Member.result 0
  return (node, [[Cmd.ip.tag, 0, 0, 0]])

/-- `Get_SpeedStr_From_Socket`. -/
def getSpeedStrFromSocket (node : DataSpm) (x : Exchange) : Option DataSpm := do
  let (cnt, dst) ← getDealFromSimPoolSocket x
  -- the text is read as a string in `Dst[256]`
  if 256 ≤ dst.length then none
  else if cnt = 0 then
    let (_, node) ← getKeyValueStr dst (text "speedStr") Member.speedStr 4 node
    return node
  else return node

/-- `Get_Config_By_MCC`: the configuration and the node. -/
def getConfigByMCC (node : DataSpm) (x : Exchange) : Option (List UInt8 × DataSpm) := do
  let speedStr ← node.mem.cstrAt Member.speedStr
  if 5 < speedStr.length then return (node.mem.read Member.speedStr, node)
  else return (List.replicate 40 0, ← getSpeedStrFromSocket node x)

/-- `Coding_With_CFMD_Soeckt`. -/
def codingWithCFMDSocket (node : DataSpm) (mcc : ℤ) (state : ℕ) (w : World) :
    Option Handled := do
  let version := node.mem.getNat Member.version
  let length := if 1601080936 ≤ version then 40 else 240
  let node ← if mcc ≠ 0 then (dealProc node 1 w.deal).map Prod.snd else some node
  let remain := (node.mem.bytes.drop Member.miniteRemain.off).take 4
  if node.mem.getNat Member.miniteRemain ≠ 0 ∧ (state = 0 ∨ state = 2) ∧ mcc ≠ 0 then
    let (config, node) ← getConfigByMCC node w.speed
    let data := (config ++ List.replicate 200 0).take length
    let test := if 1605041005 ≤ version then node.mem.read Member.ifTest else []
    let payload := remain ++ data ++ test
    return (node, [[Cmd.cfmd.tag, UInt8.ofNat payload.length, 0, 0] ++ payload])
  else return (node, [[Cmd.cfmd.tag, 4, 0, 0] ++ remain])

namespace TellServerBill

def sn : Field 68 := ⟨0, 15, by decide⟩
def vsimActionState : Field 68 := ⟨16, 1, by decide⟩
def imsi : Field 68 := ⟨17, 9, by decide⟩
def version : Field 68 := ⟨26, 10, by decide⟩
def mcc : Field 68 := ⟨36, 4, by decide⟩
def apkVersion : Field 68 := ⟨44, 4, by decide⟩

end TellServerBill

/-- `Coding_With_CFMD`. The record is filled from as many bytes as the message has. -/
def codingWithCFMD (node : DataSpm) (w : World) : Option Handled := do
  let len := node.mem.getNat Member.len
  let tell ← (CArray.zero 68).memcpy ((node.mem.read Member.buff).take len)
  let node := node.copyField Member.key tell TellServerBill.sn (by decide)
  let node := node.setInt Member.version (atoll (tell.read TellServerBill.version))
  let mcc := tell.getInt TellServerBill.mcc
  let state := tell.getNat TellServerBill.vsimActionState
  let (node, frames) ← codingWithCFMDSocket node mcc state w
  let node ← setSIMSI node (tell.read TellServerBill.imsi)
  let node := node.setNat Member.versionAPK (tell.getNat TellServerBill.apkVersion)
  let node := if mcc ≠ 0 then node.setInt Member.mcc mcc else node
  let node := node.setNat Member.state state
  let node := if state = 0 ∨ state = 2 then node.setNat Member.localeFlag 1 else node
  return (closeSocketFd node Member.socketSpm, frames)

/-- `Coding_With_Deal`. The answer is copied from five bytes and its last byte is set. -/
def codingWithDeal (node : DataSpm) (w : World) : Option Handled := do
  let node ← setSIMSI node (node.mem.read InBuff.dealIMSI)
  let (_, node) ← dealProc node 0 w.deal
  let remain := (node.mem.bytes.drop Member.miniteRemain.off).take 4
  return (node, [[0xB1, 5, 0, 0] ++ remain ++ [1]])

/-! ## The other commands -/

/-- `Coding_With_HB`. -/
def codingWithHB (node : DataSpm) : Option Handled :=
  if node.mem.getNat Member.len ≠ 0 then do
    let heartBeat := node.mem
    let node := node.copyField Member.imsi heartBeat InBuff.hbIMSI (by decide)
    let node := node.copyField Member.key heartBeat InBuff.hbSN (by decide)
    let node ← setSIMSI node (node.mem.read Member.imsi)
    return (node, [])
  else some (node, [])

/-- `Coding_With_NewHB`. -/
def codingWithNewHB (node : DataSpm) : Handled := (node.setNat Member.type 1, [])

/-- `Coding_With_Local`. The packing of the log record replaces a remaining time of 0. -/
def codingWithLocal (node : DataSpm) : Handled :=
  let node := node.setNat Member.type 2
  let node :=
    if node.mem.getNat InBuff.remainMin = 0 then node.setNat InBuff.remainMin 1440 else node
  (node, [])

/-- `Coding_With_LogOut`. -/
def codingWithLogOut (node : DataSpm) (w : World) : Option Handled := do
  let node ← setSIMSI node (node.mem.read InBuff.logoutImsi)
  let node := if 0 < node.mem.getInt Member.fd1 then node.setNat Member.fd1 0 else node
  if w.now - node.mem.getInt Member.outtime ≤ 25 then return (node, [])
  else
    let node := node.setInt Member.outtime w.now
    return (closeSocketFd node Member.socketSpm, [])

/-- `Coding_With_Low_Vsim`. There is never a card, so the answer is an error. -/
def codingWithLowVsim (node : DataSpm) : Option Handled :=
  -- the message is copied to a `Rqst_Low_Vsim` of 20 bytes
  if 20 < node.mem.getNat Member.len then none
  else some (node, [[Cmd.lowVsim.tag, 0, 0, 0xFF]])

/-- `Coding_With_VPN_RQST`. `GetVPN_From_SimPool` finds none. -/
def codingWithVPNRqst (node : DataSpm) : Handled := (node, [[Cmd.vpnProfileRqst.tag, 0, 0, 1]])

/-- `Coding_With_VPN_CMD`. -/
def codingWithVPNCmd (node : DataSpm) : Option Handled :=
  let vpn := node.mem.read InBuff.releasedVpn
  if 0 ∉ vpn then none
  else if (vpn.takeWhile (· ≠ 0)).length ≤ 5 then
    some (node, [[Cmd.vpnReleaseCmd.tag, 0, 0, 0]])
  else some (node.setNat Member.vpnFlag 0, [[Cmd.vpnReleaseCmd.tag, 0, 0, 0]])

/-- `Coding_With_ACCESS_AUTH`. -/
def codingWithAccessAuth (node : DataSpm) (w : World) : Option Handled := do
  let (node, frame) ← accessAuth node w.deal
  return (node, if node.mem.getInt Member.fd1 ≠ 0 then [frame] else [])

/-- `Coding_With_Date`. -/
def codingWithDate (node : DataSpm) (cmd : Cmd) (w : World) : Option Handled :=
  match cmd with
  | .accessAuth => codingWithAccessAuth node w
  | .simfileRequest => codingWithSimfileRequest node w
  | .ip => sendChangeIP node w
  | .cmdTT => codingWithCMDTT node w
  | .hb => codingWithHB node
  | .hbNew => some (codingWithNewHB node)
  | .cfmd => codingWithCFMD node w
  | .localSta => some (codingWithLocal node)
  | .logout => codingWithLogOut node w
  | .lowVsim => codingWithLowVsim node
  | .deal => codingWithDeal node w
  | .vpnProfileRqst => some (codingWithVPNRqst node)
  | .vpnReleaseCmd => codingWithVPNCmd node
  | .adn | .getApnInfo | .autonet => some (node, [])

end Tdm.Device
