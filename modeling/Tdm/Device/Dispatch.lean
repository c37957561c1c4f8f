import Tdm.Device.Recv

/-!
# Dispatching messages

A decoded message is put in a `Node_Data`; `Coding_With_CMD_Data_Pool` gets the node of its
serial number, stores the message there and calls the handler of its command.
-/

namespace Tdm.Device

open Tdm.Lib Tdm.Common

/-- The `Node_Data` that `socket_read_cb` fills when a command is dispatched. -/
def nodeData (cmd : Cmd) (fd : ℤ) (para : Session) (tempBuf : CArray 256) : NodeData where
  cmdTag := cmd.tag.toNat
  fd := fd
  len := para.num
  sn := para.sn
  imsi := (CArray.zero 12).overlay (para.imsi.bytes.take 9)
    ((List.length_take_le ..).trans (by decide))
  buff := tempBuf

/-- The IMSI of the session is the one that is dispatched. -/
theorem imsi_nodeData (cmd : Cmd) (fd : ℤ) (para : Session) (tempBuf : CArray 256) :
    (nodeData cmd fd para tempBuf).imsi.read NodeData.imsi9 = para.imsi.bytes.take 9 := by
  have hlen : (para.imsi.bytes.take 9).length = 9 := by
    rw [List.length_take, para.imsi.size]
    rfl
  simp only [nodeData, CArray.read, CArray.bytes_overlay]
  show ((para.imsi.bytes.take 9 ++ _).drop 0).take 9 = _
  exact List.take_left' hlen

/-- `para->SN` of a `Node_Data` as an argument, with the members behind it. -/
def NodeData.snArg (para : NodeData) : SnArg where
  bytes := para.sn.bytes ++ para.imsi.bytes ++ para.buff.bytes
  long := by
    rw [List.length_append, List.length_append, para.sn.size]
    omega

/-- `Coding_With_CMD_Data_Pool`: the registry and what is written to the device. -/
def codingWithCMDDataPool (r : Registry) (cmd : Cmd) (para : NodeData) (w : World) :
    Option (Registry × List Write) := do
  let (found, r) ← getNodeBySN r para.snArg w.malloc
  match found with
  | none => return (r, [])
  | some i =>
    let (node, frames) ← codingWithDate (receive (← r.nodes[i]?) para) cmd w
    return (r.modify i fun _ => node, frames.map fun frame => ⟨para.fd, frame⟩)

/-- A message on descriptor `fd`: it is decoded, and dispatched if it is not answered then. -/
def handleMessage (r : Registry) (para : Session) (fd : ℤ) (w : World) (msg : List UInt8) :
    Option (Registry × List Write) := do
  let received ← codingWithRecvData r para fd w msg
  match received.outcome with
  | .dispatch cmd =>
    let (r, writes) ← codingWithCMDDataPool received.registry cmd
      (nodeData cmd fd received.session received.tempBuf) w
    return (r, received.writes ++ writes)
  | _ => return (received.registry, received.writes)

end Tdm.Device
