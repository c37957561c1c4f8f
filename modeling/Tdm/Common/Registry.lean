import Tdm.Common.Node
import Tdm.Lib.CircularList
import Tdm.Lib.System

/-!
# The device registry of `common.c`

`Data_Fd.head` anchors a circular list of `Data_Spm` nodes. `Get_Node_By_SN` and
`Set_Device_SN_VPN` both look a serial number up and append a node when there is none, each
with its own copy of the code and both under `list_mutex`.

A node's address is its place in the order of allocation, since nodes are never freed; the
links of the anchor and of the nodes are read through `next` and `prev`. Following a link
that is `NULL` or leads to no node has no result.

In `machine` any number of threads make any calls in any order. What runs under
`list_mutex` is one step, `Is_Valid_SN` is evaluated before it and `Close_Socket_Fd` runs
after it. `served` is history: the key of every call that got a node, with the node.
-/

namespace Tdm.Common

open Tdm.Lib

structure Registry where
  next : Link ℕ → Link ℕ
  prev : Link ℕ → Link ℕ
  nodes : List DataSpm

namespace Registry

/-- Static storage before any code has run. -/
def zeroed : Registry := ⟨fun _ => .null, fun _ => .null, []⟩

/-- `INIT_LIST_HEAD(&Data_Fd.head)`. -/
def initListHead (r : Registry) : Registry :=
  { r with
    next := Function.update r.next .anchor .anchor
    prev := Function.update r.prev .anchor .anchor }

/-- The pointer leads to the anchor or to a node. -/
def live (r : Registry) : Link ℕ → Bool
  | .null => false
  | .anchor => true
  | .elem i => i < r.nodes.length

/-- `list_add_tail(&node->list, &Data_Fd.head)`. -/
def listAddTail (r : Registry) (i : ℕ) : Option Registry :=
  if r.live (r.prev .anchor) then
    some { r with next := addTailNext r.next r.prev i, prev := addTailPrev r.prev i }
  else none

/-- A change of one node's own members. -/
def modify (r : Registry) (i : ℕ) (f : DataSpm → DataSpm) : Registry :=
  { r with nodes := r.nodes.modify i f }

/-- `if(node) f(node)`. -/
def onNode (r : Registry) (node : Option ℕ) (f : DataSpm → DataSpm) : Registry :=
  match node with
  | none => r
  | some i => r.modify i f

/-- The keys of the nodes in the order of allocation. -/
def keys (r : Registry) : List (List UInt8) := r.nodes.map DataSpm.key

end Registry

/-- What `ConnectToMysqlInit` makes of the registry. -/
def connectToMysqlInit : Registry := Registry.zeroed.initListHead

/-- `get_data_list_by_SN`, called with the 15 bytes it compares. -/
def getDataListBySN (r : Registry) (key : List UInt8) : Option (Option ℕ) :=
  search r.next (fun i => r.nodes[i]?.map fun node => node.key == key) (r.nodes.length + 1)
    (r.next .anchor)

/-- The look-up or insertion both functions make: `fresh` is the new node before its `SN`
is stored, `malloc` whether there is memory for it. -/
def findOrAdd (r : Registry) (sn : SnArg) (fresh : DataSpm) (malloc : Bool) :
    Option (Option ℕ × Registry) := do
  match ← getDataListBySN r sn.key with
  | some i => return (some i, r)
  | none =>
    if malloc then
      let new := r.nodes.length
      let r' ← { r with nodes := r.nodes ++ [fresh.copySN sn] : Registry }.listAddTail new
      return (some new, r')
    else return (none, r)

/-- The part of `Get_Node_By_SN` under `list_mutex`. -/
def getNodeLocked (r : Registry) (sn : SnArg) (malloc : Bool) :
    Option (Option ℕ × Registry) :=
  findOrAdd r sn initDataSpm malloc

/-- The part of `Get_Node_By_SN` after `list_mutex`. -/
def getNodeUnlocked (r : Registry) (node : Option ℕ) : Registry :=
  r.onNode node (closeSocketFd · Member.socketSpm)

/-- `Get_Node_By_SN`. -/
def getNodeBySN (r : Registry) (sn : SnArg) (malloc : Bool) : Option (Option ℕ × Registry) :=
  if isValidSN sn.bytes then do
    let (node, r') ← getNodeLocked r sn malloc
    return (node, getNodeUnlocked r' node)
  else some (none, r)

/-- A VPN text that fits `vpnc` with its terminator. -/
structure VpnText where
  bytes : List UInt8
  fits : bytes.length ≤ 126
  text : 0 ∉ bytes

/-- `memcpy(node->vpnc, vpn, strlen(vpn))` and the flag behind it. -/
def DataSpm.setVpn (node : DataSpm) (vpn : VpnText) (flag : ℤ) : DataSpm :=
  let mem := node.mem.put Member.vpnc.off vpn.bytes (by
    have := vpn.fits
    show 548 + vpn.bytes.length ≤ 912
    omega)
  { node with mem }.setInt Member.vpnFlag flag

/-- `Set_Device_SN_VPN`, with the node it updated. -/
def setDeviceSNVPN (r : Registry) (sn : SnArg) (vpn : VpnText) (flag : ℤ) (malloc : Bool) :
    Option (Option ℕ × Registry) := do
  let (node, r') ← findOrAdd r sn DataSpm.zero malloc
  return (node, r'.onNode node (·.setVpn vpn flag))

/-! ## Threads -/

/-- Where a thread stands. -/
inductive Pc
  | idle
  /-- inside `Get_Node_By_SN`, before `list_mutex` -/
  | getting (sn : SnArg)
  /-- inside `Get_Node_By_SN`, behind `list_mutex`, with the node it will return -/
  | closing (i : ℕ)
  /-- inside `Set_Device_SN_VPN`, before `list_mutex` -/
  | setting (sn : SnArg) (vpn : VpnText) (flag : ℤ)

structure State where
  registry : Registry
  threads : ℕ → Pc
  served : List (List UInt8 × ℕ)

/-- The history after a call for `sn` got `node`. -/
def State.serve (s : State) (sn : SnArg) (node : Option ℕ) : List (List UInt8 × ℕ) :=
  match node with
  | none => s.served
  | some i => s.served ++ [(sn.key, i)]

/-- What `Get_Node_By_SN` does after `list_mutex` is released. -/
def Pc.afterGet : Option ℕ → Pc
  | none => .idle
  | some i => .closing i

/-- What a step does. -/
inductive Action
  /-- `Get_Node_By_SN` returns `NULL` because `Is_Valid_SN` rejects its argument -/
  | reject (sn : SnArg)
  | call
  | get (sn : SnArg) (malloc : Bool)
  | close
  | set (sn : SnArg) (malloc : Bool)
  | undefined

/-- One step of thread `t`. -/
inductive Step : State → Action → State → Prop
  | reject {s : State} {t : ℕ} {sn : SnArg} (hpc : s.threads t = .idle)
      (hsn : isValidSN sn.bytes = false) : Step s (.reject sn) s
  | callGet {s : State} {t : ℕ} {sn : SnArg} (hpc : s.threads t = .idle)
      (hsn : isValidSN sn.bytes = true) :
      Step s .call { s with threads := Function.update s.threads t (.getting sn) }
  | callSet {s : State} {t : ℕ} {sn : SnArg} {vpn : VpnText} {flag : ℤ}
      (hpc : s.threads t = .idle) :
      Step s .call { s with threads := Function.update s.threads t (.setting sn vpn flag) }
  | get {s : State} {t : ℕ} {sn : SnArg} {malloc : Bool} {node : Option ℕ} {r : Registry}
      (hpc : s.threads t = .getting sn)
      (hr : getNodeLocked s.registry sn malloc = some (node, r)) :
      Step s (.get sn malloc)
        { registry := r
          threads := Function.update s.threads t (.afterGet node)
          served := s.serve sn node }
  | close {s : State} {t i : ℕ} (hpc : s.threads t = .closing i) :
      Step s .close
        { s with
          registry := getNodeUnlocked s.registry (some i)
          threads := Function.update s.threads t .idle }
  | set {s : State} {t : ℕ} {sn : SnArg} {vpn : VpnText} {flag : ℤ} {malloc : Bool}
      {node : Option ℕ} {r : Registry} (hpc : s.threads t = .setting sn vpn flag)
      (hr : setDeviceSNVPN s.registry sn vpn flag malloc = some (node, r)) :
      Step s (.set sn malloc)
        { registry := r
          threads := Function.update s.threads t .idle
          served := s.serve sn node }
  | undefinedGet {s s' : State} {t : ℕ} {sn : SnArg} {malloc : Bool}
      (hpc : s.threads t = .getting sn) (hr : getNodeLocked s.registry sn malloc = none) :
      Step s .undefined s'
  | undefinedSet {s s' : State} {t : ℕ} {sn : SnArg} {vpn : VpnText} {flag : ℤ}
      {malloc : Bool} (hpc : s.threads t = .setting sn vpn flag)
      (hr : setDeviceSNVPN s.registry sn vpn flag malloc = none) : Step s .undefined s'

/-- All runs of any number of threads, from the list `ConnectToMysqlInit` builds. -/
def machine : System State Action where
  init s := s.registry = connectToMysqlInit ∧ (∀ t, s.threads t = .idle) ∧ s.served = []
  step := Step

end Tdm.Common
