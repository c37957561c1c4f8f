import Tdm.Common.SimPool

/-!
# What a deal does to the device record

The text of a granted deal is searched for one key after the other by `Get_Key_Value`, and
each helper stores what it finds by a rule of its own: always, only if the key is there,
only if the value is long enough. Texts are copied with their own length, no terminator is
stored behind them, and nothing checks that they fit their member.
-/

namespace Tdm.Common

open Tdm.Lib

/-! ## Values -/

/-- The search of `Get_Key_Value`: the value, or the error code. -/
def findKeyValue (src key : List UInt8) : Except ℤ (List UInt8) :=
  match strstr key src with
  | none => .error (-2)
  | some p =>
    match strstr (text ":") p with
    | none => .error (-3)
    | some p =>
      match strstr (text "\"") p with
      | none => .error (-4)
      | some p =>
        match strtok 34 p with
        | none => .error (-5)
        | some (value, _) => .ok value

/-- `Get_Key_Value`. The text is searched in a copy of 512 bytes. -/
def getKeyValue (src key : List UInt8) : Option (Except ℤ (List UInt8)) :=
  if src = [] then some (.error (-1))
  else if 512 ≤ src.length then none
  else some (findKeyValue src key)

/-- `Get_Key_Value` into `char Key[64]`, which is then read as a string. -/
def getKey (src key : List UInt8) : Option (Option (List UInt8)) := do
  match ← getKeyValue src key with
  | .error _ => return none
  | .ok value => if value.length < 64 then return some value else none

def getKeyValueInt (src key : List UInt8) : Option ℤ := do
  match ← getKey src key with
  | none => return 0
  | some value => return atoi value

/-! ## Hexadecimal texts -/

/-- The place of a character in `List_Capital` or `List_Small`. -/
def hexVal (c : UInt8) : Option ℕ :=
  if 48 ≤ c && c ≤ 57 then some (c.toNat - 48)
  else if 65 ≤ c && c ≤ 70 then some (c.toNat - 55)
  else if 97 ≤ c && c ≤ 102 then some (c.toNat - 87)
  else none

/-- `str2Hex` on a string: its result and the bytes it stores. The terminator is read as
the second half of a last single digit. -/
def str2Hex : List UInt8 → ℤ × List UInt8
  | [] => (0, [0])
  | [a] =>
    match hexVal a with
    | none => (0, [0])
    | some high => (0, [UInt8.ofNat (high * 16)])
  | a :: b :: rest =>
    match hexVal a with
    | none => (0, [0])
    | some high =>
      match hexVal b with
      | none => (0, [UInt8.ofNat (high * 16)])
      | some low =>
        let byte := UInt8.ofNat (high * 16 + low)
        if rest = [] then (1, [byte])
        else ((str2Hex rest).1, byte :: (str2Hex rest).2)

/-! ## The members of a deal -/

def getKeyValueVPN (src : List UInt8) (node : DataSpm) : Option DataSpm := do
  let node := node.setInt Member.vpn (← getKeyValueInt src (text "ifVPN"))
  match node.mem.getNat Member.vpn with
  | 0 => return node.setNat Member.ifVPN 0
  | 1 => return node.setNat Member.ifVPN 0x08
  | 2 => return node.setNat Member.ifVPN 0x10
  | _ => return node

def getKeyValueFactory (src : List UInt8) (node : DataSpm) : Option DataSpm := do
  let node := node.setInt Member.factoryFlag (← getKeyValueInt src (text "factoryFlag"))
  if node.mem.getNat Member.factoryFlag = 1 then
    -- `Get_Key_Value` clears the whole of `ServerInfo` before it searches
    let node := node.setNat Member.serverInfo 0
    let node ← match ← getKeyValue src (text "serverInfo") with
      | .error _ => some node
      | .ok value => node.copyTo Member.serverInfo value
    let info ← node.mem.cstrAt Member.serverInfo
    if info.length < 10 then return node.setNat Member.factoryFlag 0 else return node
  else return node

def getKeyValueIMEI (src : List UInt8) (node : DataSpm) : Option DataSpm := do
  match ← getKey src (text "IMEI") with
  | none => return node
  | some value => return node.setInt Member.imei (atoll value)

/-- The port is stored as an `int`, over `SimBank_ID` and `Channel_ID`. -/
def getKeyValueIPAndPort (src : List UInt8) (node : DataSpm) : Option DataSpm := do
  match ← getKey src (text "IPAndPort") with
  | none => return node
  | some value =>
    match strtok 58 value with
    | none => return node
    | some (ip, rest) =>
      let node ← node.copyTo Member.ip ip
      match strtok 58 rest with
      | none => return node
      | some (port, _) => return node.setInt Member.portInt (atoi port)

/-- `Get_Key_Value_Str_Type` for `slotNumber`. -/
def getKeyValueStrType (src : List UInt8) (node : DataSpm) : Option DataSpm := do
  match ← getKey src (text "slotNumber") with
  | none => return node
  | some value =>
    match strtok 45 value with
    | none => return node
    | some (bank, rest) =>
      let node := node.setInt Member.simBankID (atoi bank)
      match strtok 45 rest with
      | none => return node
      | some (channel, _) => return node.setInt Member.channelID (atoi channel)

/-- `Get_Key_Value_Str`: a value of more than `len` bytes is stored. -/
def getKeyValueStr (src key : List UInt8) (f : Member) (len : ℕ) (node : DataSpm) :
    Option (ℕ × DataSpm) := do
  match ← getKey src key with
  | none => return (0, node)
  | some value =>
    if len < value.length then return (1, ← node.copyTo f value) else return (0, node)

/-- The key `SIMIfActivated` is answered with a text whose first two bytes are compared. -/
def getKeyValueVusimActiveFlag (src : List UInt8) (node : DataSpm) : Option DataSpm := do
  let node ← match ← getKey src (text "SIMIfActivated") with
    | none => some node
    | some value =>
      some (node.setNat Member.vusimActiveFlag (if value.take 2 = [0xE5, 0x90] then 1 else 0))
  if node.mem.getNat Member.vusimActiveFlag = 1 then
    match ← getKey src (text "Vusim_Active_Num") with
    | none => return node
    | some value =>
      if 9 < value.length then node.copyTo Member.vusimActiveNum value
      else return node.setNat Member.vusimActiveFlag 0
  else return node

def getKeyValueIMSI (src : List UInt8) (node : DataSpm) : Option DataSpm := do
  match ← getKey src (text "IMSI") with
  | none => return node
  | some value =>
    let node ← node.copyTo Member.sIMSI value
    node.copyTo Member.imsi (str2Hex value).2

/-- `Get_Data_From_Deal`; its result is the member `factoryFlag`. -/
def getDataFromDeal (src : List UInt8) (node : DataSpm) : Option DataSpm := do
  let node := node.setInt Member.miniteRemain (← getKeyValueInt src (text "minsRemaining"))
  let node := node.setInt Member.lastStart (← getKeyValueInt src (text "lastStart"))
  let node := node.setInt Member.ifTest (← getKeyValueInt src (text "ifTest"))
  let node := node.setInt Member.orderType (← getKeyValueInt src (text "orderType"))
  let node := node.setInt Member.ifRoam (← getKeyValueInt src (text "ifRoam"))
  let node := node.setInt Member.speedType (← getKeyValueInt src (text "speedType"))
  let node := node.setInt Member.needFile (← getKeyValueInt src (text "fileUpdate"))
  let (isApn, node) ← getKeyValueStr src (text "APN") Member.apn 3 node
  let node := node.setNat Member.isApn isApn
  let node ← getKeyValueVPN src node
  let node ← getKeyValueFactory src node
  let node ← getKeyValueIPAndPort src node
  let node ← getKeyValueStrType src node
  let (_, node) ← getKeyValueStr src (text "speedStr") Member.speedStr 4 node
  let node ← getKeyValueVusimActiveFlag src node
  let node ← getKeyValueIMEI src node
  let node ← getKeyValueIMSI src node
  let (isNet, node) ← getKeyValueStr src (text "Selnet") Member.selnet 4 node
  let node := if isNet ≠ 0 then node.setNat Member.isNet 0x02 else node
  let node :=
    if node.mem.getNat Member.speedType = 1 then node.setNat Member.speedType 0x04 else node
  return node.setInt Member.result 0

/-! ## Logins and checks -/

def testIP : List UInt8 := text
  "218.17.107.11:11111,120.24.221.252:8070,120.24.221.252:8070,DOMAINNAME:test.easy2go.cn"

def masterIP : List UInt8 := text
  "218.17.107.11:11113,120.24.221.252:8070,120.24.221.252:8070,DOMAINNAME:test.easy2go.cn"

/-- The start of `Get_Deal_From_Remote`: the country of the request, 460 when there is
none, becomes the country of the node. -/
def noteMCC (node : DataSpm) : DataSpm :=
  let node := closeSocketFd node Member.socketSpm
  let node :=
    if node.mem.getInt Member.authMCC = 0 then node.setInt Member.authMCC 460 else node
  if node.mem.getInt Member.authMCC ≠ node.mem.getNat Member.mcc then
    node.setInt Member.mcc (node.mem.getInt Member.authMCC)
  else node

/-- The countries whose devices are sent to another server. -/
def redirected (mcc : ℕ) : Bool := mcc == 454 || mcc == 455 || mcc == 460

/-- `Get_Deal_From_Remote` for the request in `Buff`. -/
def getDealFromRemote (node : DataSpm) (x : Exchange) : Option (ℤ × DataSpm) := do
  let node := noteMCC node
  if redirected (node.mem.getNat Member.mcc) then
    let node := node.setNat Member.factoryFlag 1
    let node ← node.copyTo Member.serverInfo testIP
    return simAllocateErr .ipChange node
  else
    let node ← node.copyTo Member.serverInfo masterIP
    let (cnt, node, dst) ← getDealFromSimPool node x
    if cnt ≠ 0 then return (cnt, node)
    else
      let node ← getDataFromDeal dst node
      if node.mem.getNat Member.factoryFlag ≠ 0 then return simAllocateErr .ipChange node
      else return (cnt, node)

/-- `Deal_Proc`: the value of `cnt` it branches on, and the node. Its own result is 0. -/
def dealProc (node : DataSpm) (type : ℤ) (x : Exchange) : Option (ℤ × DataSpm) := do
  let node := node.setNat Member.miniteRemain 0
  let (cnt, node, dst) ← getDealFromSimPool node x
  if cnt = 0 then
    let node := node.setInt Member.lastStart (← getKeyValueInt dst (text "lastStart"))
    let node := node.setInt Member.miniteRemain (← getKeyValueInt dst (text "minsRemaining"))
    if type = 0 ∧ node.mem.getNat Member.lastStart = 1 then
      return (cnt, node.setNat Member.miniteRemain 1440)
    else return (cnt, node)
  else if cnt ≠ SimAllocErrCode.outOfService.value then
    return (cnt, node.setInt Member.miniteRemain (if type ≠ 0 then -1 else 1))
  else return (cnt, node)

/-- `SIM_Allocate_Proc`. -/
def simAllocateProc (node : DataSpm) (x : Exchange) : Option (ℤ × DataSpm) :=
  let node := node.copyField Member.takeTime node.mem Member.authTakeTime Member.size_authTakeTime
  let node := node.copyField Member.versionAPK node.mem Member.authVersionAPK Member.size_authVersionAPK
  getDealFromRemote node x

end Tdm.Common
