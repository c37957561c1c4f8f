import Tdm.Device.Handlers
import Tdm.Common.Registry

/-!
# Requests of the web server

A web request is a JSON text on the port of the devices. `Client_Web_Manage` looks the
device up, tells the client whether it is connected and sends the command to the
descriptor its node holds.
-/

namespace Tdm.Device

open Tdm.Lib Tdm.Common

/-- `Find_Str_By_Key` with a destination of 56 bytes: what stands behind the first colon
after the key, up to a quote. -/
def findStrByKey (src key : List UInt8) : Option (Option (List UInt8)) :=
  match strstr key src with
  | none => some none
  | some p =>
    match strtok 58 p with
    | none => some none
    | some (_, outer) =>
      match strtok 34 outer with
      | none => some none
      | some (value, _) => if value.length ≤ 56 then some (some value) else none

/-- `Find_Str_By_Key` where `Dst[56]` is then read as a string. -/
def findText (src key : List UInt8) : Option (Option (List UInt8)) := do
  match ← findStrByKey src key with
  | none => return none
  | some value => if value.length < 56 then return some value else none

/-- What `getValue` takes from a request: `Web_Data`, `sn` and `dst`. -/
structure WebRequest where
  type : UInt8
  num : UInt8
  sn : List UInt8
  dst : List UInt8

/-- An `int` stored in an `unsigned char`. -/
def byteOf (v : ℤ) : UInt8 := UInt8.ofNat (v % 256).toNat

/-- `getValue`. The 15 bytes of `sn` may end in zeros. -/
def getValue (src : List UInt8) : Option WebRequest := do
  let sn := match ← findStrByKey src (text "sn") with
    | none => List.replicate 15 0
    | some value => (value ++ List.replicate 15 0).take 15
  let type := match ← findText src (text "type") with
    | none => 0
    | some value => byteOf (atoi value)
  match ← findText src (text "num") with
  | none => return ⟨type, 0, sn, []⟩
  | some value =>
    if type ∈ [8, 10, 11, 15] then return ⟨type, 0, sn, value⟩
    else return ⟨type, byteOf (atoi value), sn, []⟩

/-- The frame of `PickUp_Web_Data`. -/
def pickUpWebData (tag : UInt8) (src : List UInt8) : List UInt8 :=
  [tag, UInt8.ofNat src.length, 0, 0] ++ src

/-- The types of request that ask a device to update itself. -/
def updateTypes : List UInt8 :=
  [3, 4, 5, 6, 17, 18, 7, 110, 111, 112, 113, 114, 115, 116, 117, 118, 119, 120, 121, 122, 123,
    218, 219, 220, 221, 222, 223]

/-- `switch(para1.type)`: the frame that is sent to the device. -/
def webFrame (para1 : WebRequest) : Option (List UInt8) :=
  if para1.type ∈ [1, 2] then some (pickUpWebData 0x41 [para1.type, para1.num])
  else if para1.type ∈ updateTypes then some (pickUpWebData 0x8D [para1.type, para1.num])
  else match para1.type with
    | 8 => some (pickUpWebData 0x99 para1.dst)
    | 9 => some (pickUpWebData 0x89 [])
    | 10 => some (pickUpWebData 0x9A para1.dst)
    | 11 => some (pickUpWebData 0x9D para1.dst)
    | 15 => some (pickUpWebData 0xA3 para1.dst)
    | 12 => some (pickUpWebData 0x9E para1.dst)
    | 13 => some (pickUpWebData 0xA2 [])
    | 14 => some (pickUpWebData 0xA0 [])
    | 16 => some (pickUpWebData 0xA1 [])
    | _ => none

/-- `fd1` of the node that was found. -/
def fdOf (r : Registry) (node : Option ℕ) : ℤ :=
  match node.bind (r.nodes[·]?) with
  | none => 0
  | some node => node.mem.getInt Member.fd1

/-- `Client_Web_Manage` for a request that came in on descriptor `client`. -/
def clientWebManage (r : Registry) (src : List UInt8) (client : ℤ) : Option (List Write) := do
  let para1 ← getValue src
  let fd := fdOf r (← getDataListBySN r para1.sn)
  if 0 < fd then
    return ⟨client, text "ok\n"⟩ :: (webFrame para1).toList.map fun frame => ⟨fd, frame⟩
  else return [⟨client, text "faild\n"⟩]

end Tdm.Device
