import Tdm.Device.Web

/-!
# Receiving messages

`Coding_With_Recv_Data` reads one message, tells web requests from device frames and
decodes a frame into the record `tmd_pthread` and the buffer `TempBuf`; some commands are
answered here, the others are dispatched with what was decoded. `socket_read_cb` calls it
with a record of its own that nothing has initialised.

A message that does not fit `TempBuf`, a text that does not fit `SN` and a node pointer that
leads to no node have no result.
-/

namespace Tdm.Device

open Tdm.Lib Tdm.Common

/-- `tmd_pthread`. The bytes behind `SN` are reached when it is read as a string that does
not end inside it. -/
structure Session where
  num : ℤ
  sn : CArray 16
  behind : List UInt8
  node : Option ℕ
  imsi : CArray 12
  pool : Option ℕ

/-- `para->SN` as an argument. -/
def Session.snArg (para : Session) : SnArg where
  bytes := para.sn.bytes ++ para.behind
  long := by
    rw [List.length_append, para.sn.size]
    omega

/-! ## Frames -/

/-- `p_Recv->FrameSize`. -/
def frameSize (buf : CArray 512) : ℕ := (buf.get 1).toNat

/-- `len` bytes of `p_Recv->Frame_Data` from `off` on. -/
def frameData (buf : CArray 512) (off len : ℕ) : List UInt8 := (buf.bytes.drop (2 + off)).take len

theorem frameSize_lt (buf : CArray 512) : frameSize buf < 256 := (buf.get 1).toNat_lt

theorem length_frameData_le (buf : CArray 512) (off len : ℕ) :
    (frameData buf off len).length ≤ len := List.length_take_le ..

/-- `memcpy(TempBuf, p_Recv->Frame_Data, p_Recv->FrameSize)`. -/
def tempPayload (buf : CArray 512) (tempBuf : CArray 256) : CArray 256 :=
  tempBuf.overlay (frameData buf 0 (frameSize buf))
    ((length_frameData_le ..).trans (Nat.le_of_lt (frameSize_lt buf)))

/-- `para->num` before the command is looked at. -/
def frameNum (buf : CArray 512) : ℕ := frameSize buf - 9

/-- `memcpy(para->SN, p_Recv->Frame_Data + off, 15)`. -/
def Session.copySN (para : Session) (buf : CArray 512) (off : ℕ) : Session :=
  { para with
    sn := para.sn.overlay (frameData buf off 15) ((length_frameData_le ..).trans (by decide)) }

/-- `memcpy(para->IMSI, p_Recv->Frame_Data, 9)`. -/
def Session.copyIMSI (para : Session) (buf : CArray 512) : Session :=
  { para with
    imsi := para.imsi.overlay (frameData buf 0 9) ((length_frameData_le ..).trans (by decide)) }

/-! ## Results -/

/-- What `Coding_With_Recv_Data` returns: -1, 10 or the tag of a command. -/
inductive Outcome
  | dropped
  | served
  | dispatch (cmd : Cmd)
deriving DecidableEq

/-- What is left when a message has been decoded. -/
structure Received where
  outcome : Outcome
  session : Session
  tempBuf : CArray 256
  writes : List Write
  registry : Registry

/-- `Coding_With_TT_Reinsert`. -/
def codingWithTTReinsert (fd : ℤ) (tag : UInt8) : List Write :=
  if 0 < fd then [⟨fd, pickUpWebData tag []⟩] else []

/-! ## Commands that are dispatched -/

/-- `Coding_With_Frame_Data`. -/
def codingWithFrameData (cmd : Cmd) (buf : CArray 512) (para : Session) : Session :=
  let para := { para with num := frameSize buf }
  if cmd = .accessAuth then
    { para with
      sn := para.sn.overlay (frameData buf 24 16) (length_frameData_le ..) }
  else para

/-- The serial number `Coding_With_TT_Data` makes from the number in a `Data_IP`. -/
def trailerSN (number : ℕ) : List UInt8 :=
  if number < 210000000 then text "860172" ++ decimalPadded 9 number
  else text "172150" ++ decimalPadded 9 (toSigned 32 number)

/-- The 12 bytes of the payload that `Coding_With_TT_Data` takes for a `Data_IP`. -/
def trailerOf (buf : CArray 512) : Option (List UInt8) :=
  if frameSize buf < 10 then none else some ((buf.bytes.drop (frameSize buf - 10)).take 12)

/-- `para->SN` is shorter than a serial number and the IMSI is one of a certain range. -/
def looksForTrailer (para : Session) : Bool :=
  (para.snArg.bytes.takeWhile (· ≠ 0)).length < 10 &&
    (para.imsi.get 0 == 0x80 && (0x90 < para.imsi.get 1 && para.imsi.get 1 ≤ 0x99))

theorem frameNum_lt (buf : CArray 512) : frameNum buf < 256 :=
  (Nat.sub_le ..).trans_lt (frameSize_lt buf)

/-- `memcpy(TempBuf, p_Recv->Frame_Data + 9, para->num)`. -/
def ttPayload (buf : CArray 512) (tempBuf : CArray 256) : CArray 256 :=
  tempBuf.overlay (frameData buf 9 (frameNum buf))
    ((length_frameData_le ..).trans (Nat.le_of_lt (frameNum_lt buf)))

/-- `Coding_With_TT_Data`: the record and the buffer. -/
def codingWithTTData (buf : CArray 512) (tempBuf : CArray 256) (para : Session) :
    Option (Session × CArray 256) := do
  let para := para.copyIMSI buf
  let tempBuf := ttPayload buf tempBuf
  if looksForTrailer para ∧ ((tempBuf.get 5).toNat : ℤ) ≠ (frameNum buf : ℤ) - 6 then
    let data ← trailerOf buf
    let sn ← para.sn.memcpy (trailerSN (leNat (data.drop 8)) ++ [0])
    return ({ para with sn }, tempBuf)
  else return (para, tempBuf)

/-- The command that `Coding_With_TT_Data` sends to a device it cannot identify. -/
def ttReinsert (para : Session) (fd : ℤ) : List Write :=
  if isValidSN para.snArg.bytes then [] else codingWithTTReinsert fd 0x09

/-- The answer of `Coding_With_VPN_CMD_Socket` and `Coding_With_LogOut_Socket`. -/
def packAnswer (cmd : Cmd) (fd : ℤ) : List Write :=
  match cmd with
  | .vpnReleaseCmd => [⟨fd, [Cmd.vpnReleaseCmd.tag, 0, 0, 1]⟩]
  | .logout => [⟨fd, [Cmd.logout.tag, 0, 0, 0]⟩]
  | _ => []

/-- The serial number that `Coding_With_CMD_Data_Pack` stores. That of a `Deal_t` is a
number, the others are texts. -/
def packSN (cmd : Cmd) (buf : CArray 512) (para : Session) : Option Session := do
  if cmd = .deal then
    let sn ← para.sn.memcpy (decimal (leNat (frameData buf 0 8)) ++ [0])
    return { para with sn }
  else return para.copySN buf 0

/-- `return CMD_TAG` if the serial number is valid, -1 otherwise. -/
def dispatchIfValid (cmd : Cmd) (para : Session) : Outcome :=
  if isValidSN para.snArg.bytes then .dispatch cmd else .dropped

/-! ## Commands that are answered -/

/-- The node a message without serial number belongs to: the one of the session, or the one
found or added for its `SN`. -/
def sessionNode (r : Registry) (para : Session) (malloc : Bool) :
    Option (Option ℕ × Registry) :=
  match para.node with
  | some i => some (some i, r)
  | none => getNodeBySN r para.snArg malloc

/-- What `Coding_With_Local_Socket` stores in the node. -/
def receiveLocal (node : DataSpm) (para : Session) (tempBuf : CArray 256) (fd : ℤ) : DataSpm :=
  let node := { node with pool := para.pool }
  let node := node.setInt Member.len para.num
  let node := node.setInt Member.fd1 fd
  let node :=
    if node.mem.bytes[55]? ≠ some 0x80 then
      node.copyField Member.imsi para.imsi NodeData.imsi9 NodeData.size_imsi9
    else node
  node.copyField Member.buff tempBuf NodeData.wholeBuff NodeData.size_wholeBuff

/-- The answers of `Coding_With_Local_Socket`: the low byte of `Upload_Flow_Id`, and an
order to shut down when the battery is low. -/
def localAnswers (tempBuf : CArray 256) (fd : ℤ) : List Write :=
  let battery := (tempBuf.get 29).toNat
  ⟨fd, [0x97, 0, 0, tempBuf.get 12]⟩ ::
    if battery < 3 ∧ battery ≠ 0 then codingWithTTReinsert fd 0xA0 else []

/-- `Coding_With_Local_Socket`. -/
def codingWithLocalSocket (r : Registry) (buf : CArray 512) (tempBuf : CArray 256)
    (para : Session) (fd : ℤ) (w : World) : Option Received := do
  let para := { para.copyIMSI buf with num := frameSize buf }
  let tempBuf := tempPayload buf tempBuf
  let (node, r) ← sessionNode r para w.malloc
  let para := { para with node }
  match node with
  | none => return ⟨.served, para, tempBuf, localAnswers tempBuf fd, r⟩
  | some i =>
    if i < r.nodes.length then
      let r := r.modify i fun node => (codingWithLocal (receiveLocal node para tempBuf fd)).1
      return ⟨.served, para, tempBuf, localAnswers tempBuf fd, r⟩
    else none

/-- A text of the node as the answer to a command. The announced length is one byte, and as
many bytes of the text are sent. -/
def textAnswer (cmd : Cmd) (f : Member) (node : DataSpm) (fd : ℤ) : Option Write := do
  let value ← node.mem.cstrAt f
  let frameSizeL := UInt8.ofNat value.length
  return ⟨fd, [cmd.tag, frameSizeL, 0, 0] ++ value.take frameSizeL.toNat⟩

/-- `Coding_with_Selnet`. -/
def codingWithSelnet : DataSpm → ℤ → Option Write := textAnswer .autonet Member.selnet

/-- `Coding_With_APN`. -/
def codingWithAPN : DataSpm → ℤ → Option Write := textAnswer .getApnInfo Member.apn

/-- `Coding_With_ADN`. -/
def codingWithADN : DataSpm → ℤ → Option Write := textAnswer .adn Member.vusimActiveNum

/-- `switch(*CMD_TAG)` of `Coding_With_Out_Sql`. -/
def outSqlAnswer (cmd : Cmd) (node : DataSpm) (fd : ℤ) : Option (List Write) :=
  match cmd with
  | .autonet => (codingWithSelnet node fd).map fun write => [write]
  | .getApnInfo => (codingWithAPN node fd).map fun write => [write]
  | .adn => (codingWithADN node fd).map fun write => [write]
  | _ => some []

/-- `Coding_With_Out_Sql`. -/
def codingWithOutSql (r : Registry) (tempBuf : CArray 256) (cmd : Cmd) (para : Session)
    (fd : ℤ) (w : World) : Option Received := do
  let (node, r) ← sessionNode r para w.malloc
  let para := { para with node }
  match node with
  | none => return ⟨.served, para, tempBuf, [], r⟩
  | some i => return ⟨.served, para, tempBuf, ← outSqlAnswer cmd (← r.nodes[i]?) fd, r⟩

/-! ## One message -/

/-- The branch of `switch(CMD_TAG)` in `Coding_With_Recv_Data`. -/
def deviceBranch (r : Registry) (buf : CArray 512) (tempBuf : CArray 256) (cmd : Cmd)
    (para : Session) (fd : ℤ) (w : World) : Option Received := do
  let para := { para with num := frameNum buf }
  match cmd with
  | .accessAuth | .simfileRequest =>
    let para := codingWithFrameData cmd buf para
    return ⟨.dispatch cmd, para, tempPayload buf tempBuf, [], r⟩
  | .cmdTT =>
    let (para, tempBuf) ← codingWithTTData buf tempBuf para
    return ⟨.dispatch cmd, para, tempBuf, ttReinsert para fd, r⟩
  | .hbNew =>
    let para := { para with num := frameSize buf }
    return ⟨.dispatch cmd, para, tempPayload buf tempBuf, [⟨fd, [0x9B, 0, 0, 0]⟩], r⟩
  | .vpnProfileRqst | .vpnReleaseCmd | .deal | .lowVsim | .logout | .cfmd =>
    let para ← packSN cmd buf { para with num := frameSize buf }
    return ⟨dispatchIfValid cmd para, para, tempPayload buf tempBuf, packAnswer cmd fd, r⟩
  | .localSta => codingWithLocalSocket r buf tempBuf para fd w
  | .hb =>
    let para := para.copySN buf 9
    return ⟨dispatchIfValid cmd para, para, tempPayload buf tempBuf, [⟨fd, [0x94, 0, 0, 0]⟩], r⟩
  | .autonet | .getApnInfo | .adn => codingWithOutSql r tempBuf cmd para fd w
  | .ip => return ⟨.dispatch cmd, para, tempBuf, [], r⟩

/-- Who a message is for. -/
inductive Route
  | web
  | device (cmd : Cmd)
  | unknown
deriving DecidableEq

/-- How `Coding_With_Recv_Data` tells web requests from device frames. -/
def route (buf : CArray 512) : Option Route := do
  let src ← buf.cstr
  if (strstr (text "sn") src).isSome then return .web
  else match cmdTest (buf.get 0) with
    | none => return .unknown
    | some cmd => return .device cmd

/-- `buf` after `read` has stored a message that fits `TempBuf`. -/
def recvBuf (msg : List UInt8) (h : msg.length ≤ 256) : CArray 512 :=
  (CArray.zero 512).overlay msg (h.trans (by decide))

/-- The branch a message takes; it has to fit `TempBuf` first. -/
def routeOf (msg : List UInt8) : Option Route :=
  if h : msg.length ≤ 256 then route (recvBuf msg h) else none

/-- `Coding_With_Recv_Data` on the message `msg`, with an empty one for a failed `read`. -/
def codingWithRecvData (r : Registry) (para : Session) (fd : ℤ) (w : World)
    (msg : List UInt8) : Option Received :=
  if msg = [] then some ⟨.dropped, para, .zero 256, [], r⟩
  else if h : msg.length ≤ 256 then do
    let buf := recvBuf msg h
    let tempBuf := (CArray.zero 256).overlay msg h
    match ← routeOf msg with
    | .web =>
      let writes ← clientWebManage r (← buf.cstr) fd
      return ⟨.dropped, para, tempBuf, writes, r⟩
    | .device cmd => deviceBranch r buf tempBuf cmd para fd w
    | .unknown => return ⟨.dropped, para, tempBuf, [], r⟩
  else none

/-- What `socket_read_cb` leaves behind: the registry, what was written to sockets and the
text pushed to the log worker. -/
structure Reaction where
  registry : Registry
  writes : List Write
  log : List UInt8

/-- `socket_read_cb` on descriptor `fd`; `para` is what its local record happens to hold. -/
def socketReadCb (r : Registry) (para : Session) (fd : ℤ) (w : World) (msg : List UInt8) :
    Option Reaction := do
  let received ← codingWithRecvData r para fd w msg
  return ⟨received.registry, received.writes, ← received.tempBuf.cstr⟩

end Tdm.Device
