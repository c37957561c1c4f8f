import Tdm.Common.Node
import Tdm.Lib.CString

/-!
# Deals from the SimPool backend

`Send_Sim_Data` exchanges one text with the backend, `Data_Coing` takes the reply apart,
`Get_Deal_From_SimPool_socket` and `Get_Deal_From_SimPool` turn it into an error code or
into the text of a deal, and `Get_Deal_From_Remote` (login) and `Deal_Proc` (later checks)
act on it. What the backend does is a parameter, `Exchange`; the text sent to it is left
out, since nothing here depends on it.

A function has no result where the source has no defined behaviour: a copy over the end of
its buffer, a length that has become negative, a string that is not terminated inside its
buffer.
-/

namespace Tdm.Common

open Tdm.Lib

/-! ## The exchange -/

/-- How the exchange of `Send_Sim_Data` ends. -/
inductive Exchange
  | connectFailed
  | writeFailed
  /-- `recv` fails or times out -/
  | recvFailed
  /-- the peer closes the connection without a reply -/
  | closed
  | reply (bytes : List UInt8) (some : bytes ≠ []) (fits : bytes.length ≤ 1024)

/-- `Send_Sim_Data`: its result. -/
def sendSimData : Exchange → ℤ
  | .connectFailed => -1
  | .writeFailed => -1
  | .recvFailed => -1
  | .closed => 0
  | .reply bytes _ _ => bytes.length

/-- The bytes `recv` stores. -/
def Exchange.bytes : Exchange → List UInt8
  | .reply bytes _ _ => bytes
  | _ => []

theorem Exchange.bytes_fit (x : Exchange) : x.bytes.length ≤ 1024 := by
  cases x with
  | reply bytes some fits => exact fits
  | _ => exact Nat.zero_le _

/-- `recvbuff` after the exchange. -/
def Exchange.recvbuff (x : Exchange) : CArray 1024 := (CArray.zero 1024).overlay x.bytes x.bytes_fit

/-! ## Taking the reply apart -/

/-- `Json_date`. -/
structure JsonDate where
  head : ℤ
  type : ℤ
  paraNum : ℤ
  result : ℤ
  len : ℤ
  data : CArray 512

/-- `memset(&Data, 0, sizeof(Data))`. -/
def JsonDate.zero : JsonDate := ⟨0, 0, 0, 0, 0, CArray.zero 512⟩

/-- `switch(i)`: where field `i` of the header is stored. -/
def storeField (data : JsonDate) (p : List UInt8) : ℕ → JsonDate
  | 0 => { data with head := atoi p }
  | 1 => { data with type := atoi p }
  | 2 => { data with paraNum := atoi p }
  | 3 => { data with result := atoi p }
  | _ => data

/-- The loop over the fields of the header: `i` counts them. -/
def codeHeader (data : JsonDate) : ℕ → List (List UInt8) → JsonDate
  | _, [] => data
  | i, p :: ps => codeHeader (storeField data p i) (i + 1) ps

/-- `Len = strlen(p + 1) - 1` and the copy of that many bytes from `p + 1`. -/
def codeBody (data : JsonDate) (p : List UInt8) : Option JsonDate :=
  let len : ℤ := (p.drop 1).length - 1
  if len < 0 then none
  else (data.data.memcpy ((p.drop 1).take len.toNat)).map fun copy =>
    { data with len, data := copy }

/-- `Data_Coing` on a terminated string. -/
def dataCoing (src : List UInt8) (data : JsonDate) : Option (ℤ × JsonDate) :=
  if src = [] then some (-1, data)
  else match strtok 124 src with
    | none => some (data.result, data)
    | some (header, rest) =>
      let data := codeHeader data 0 (tokens 44 header)
      match strtok 91 rest with
      | none => some (data.result, data)
      | some (p, _) => (codeBody data p).map fun data => (data.result, data)

/-- `Get_Deal_From_SimPool_socket`: its result and the text stored in `Dst`. -/
def getDealFromSimPoolSocket (x : Exchange) : Option (ℤ × List UInt8) :=
  if sendSimData x ≠ 0 then do
    let src ← x.recvbuff.cstr
    let (_, data) ← dataCoing src .zero
    if data.result = 0 then return (data.result, ← data.data.cstr)
    else return (data.result, [])
  else some (JsonDate.zero.result, [])

/-- The text of a deal is a string. -/
theorem zero_notMem_of_socket {x : Exchange} {cnt : ℤ} {dst : List UInt8}
    (h : getDealFromSimPoolSocket x = some (cnt, dst)) : 0 ∉ dst := by
  unfold getDealFromSimPoolSocket at h
  split at h
  · obtain ⟨src, -, h⟩ := Option.bind_eq_some_iff.mp h
    obtain ⟨⟨ret, data⟩, -, h⟩ := Option.bind_eq_some_iff.mp h
    simp only at h
    split at h
    · obtain ⟨s, hs, h⟩ := Option.bind_eq_some_iff.mp h
      cases h
      exact CArray.zero_notMem_of_cstr hs
    · cases h
      exact List.not_mem_nil
  · cases h
    exact List.not_mem_nil

/-! ## Errors -/

/-- `SimAlloc_Err_Code`. -/
inductive SimAllocErrCode
  | unrecognizedDevSN | noDealForDevSN | outOfService | noSimUsable | mallocErr | ipChange
  | lowPower | sockErr
deriving DecidableEq

def SimAllocErrCode.value : SimAllocErrCode → ℤ
  | .unrecognizedDevSN => 1
  | .noDealForDevSN => 2
  | .outOfService => 3
  | .noSimUsable => 4
  | .mallocErr => 5
  | .ipChange => 6
  | .lowPower => 7
  | .sockErr => 8

/-- `SIM_Allocate_Err`. -/
def simAllocateErr (code : SimAllocErrCode) (node : DataSpm) : ℤ × DataSpm :=
  let node := if code = .sockErr then node.setNat Member.factoryFlag 1 else node
  (code.value, node.setInt Member.result code.value)

/-- `Get_Deal_From_SimPool`: its result, the node and the text of the deal. -/
def getDealFromSimPool (node : DataSpm) (x : Exchange) :
    Option (ℤ × DataSpm × List UInt8) := do
  let (cnt, dst) ← getDealFromSimPoolSocket x
  if cnt ≠ 0 then
    let (ret, node) :=
      if cnt = 1 then simAllocateErr .lowPower node
      else if cnt = 2 then simAllocateErr .outOfService node
      else simAllocateErr .noSimUsable node
    return (ret, node, dst)
  else return (0, node, dst)

end Tdm.Common
