import Tdm.Device.Rekey
import Tdm.Device.Startup

/-!
# Web requests and the connections they reach

A node keeps in `fd1` the descriptor its device was heard on last, and a web request for the
device is sent there. `Network` adds to the registry what the registry does not know: which
descriptors are open and which device spoke last on each. `conn_close` leaves `fd1` as it is,
so that a descriptor that is used again may still be in the node of another device.

`Careful` is the discipline under which this does not happen: a connection is closed only
when no node holds it, it speaks for one device at a time, and messages that do not name
their device are sent where it has been named before.
-/

namespace Tdm.Device

open Tdm.Lib Tdm.Common

/-! ## The machine -/

/-- What is known about the other end of a descriptor. -/
inductive Peer
  | closed
  /-- open, and no message has named a device yet -/
  | unidentified
  /-- open, and `key` is the device that was named last -/
  | device (key : List UInt8)
deriving DecidableEq

structure Network where
  registry : Registry
  peers : ℤ → Peer

inductive NetworkEvent
  | accept (fd : ℤ)
  /-- a device frame or a web request; `para` is what the record of `socket_read_cb` holds -/
  | message (fd : ℤ) (para : Session) (w : World) (msg : List UInt8)
  /-- `conn_close` -/
  | close (fd : ℤ)

/-- The condition under which `Coding_With_TT_Data` takes a serial number from the message. -/
def namesDevice (buf : CArray 512) (tempBuf : CArray 256) (para : Session) : Bool :=
  looksForTrailer (para.copyIMSI buf) &&
    ((ttPayload buf tempBuf).get 5).toNat ≠ (frameNum buf : ℤ) - 6

/-- The serial number a message is dispatched with is one it carried itself. -/
def carriesSN (cmd : Cmd) (para : Session) (msg : List UInt8) : Bool :=
  match cmd with
  | .cmdTT =>
    if h : msg.length ≤ 256 then
      namesDevice (recvBuf msg h) ((CArray.zero 256).overlay msg h) para
    else false
  | .accessAuth | .hb => true
  | _ => packed cmd

/-- The device that a decoded message names. -/
def identified (para : Session) (fd : ℤ) (msg : List UInt8) (received : Received) :
    Option (List UInt8) :=
  match received.outcome with
  | .dispatch cmd =>
    let sn := (nodeData cmd fd received.session received.tempBuf).snArg
    if carriesSN cmd para msg ∧ isValidSN sn.bytes then some sn.key else none
  | _ => none

/-- What is known of the descriptors when `named` has been heard on `fd`. -/
def hear (peers : ℤ → Peer) (fd : ℤ) (named : Option (List UInt8)) : ℤ → Peer :=
  named.elim peers fun key => Function.update peers fd (.device key)

/-- One event. A descriptor that is accepted is one that is not open. -/
inductive Network.Step (s : Network) : NetworkEvent → Network → Prop
  | accept {fd : ℤ} (hclosed : s.peers fd = .closed) (hint : 0 ≤ fd ∧ fd < 2 ^ 31) :
      Step s (.accept fd) { s with peers := Function.update s.peers fd .unidentified }
  | message {fd : ℤ} {para : Session} {w : World} {msg : List UInt8} {received : Received}
      {r' : Registry} {writes : List Write} (hopen : s.peers fd ≠ .closed)
      (hrecv : codingWithRecvData s.registry para fd w msg = some received)
      (hrun : handleMessage s.registry para fd w msg = some (r', writes)) :
      Step s (.message fd para w msg) ⟨r', hear s.peers fd (identified para fd msg received)⟩
  | close {fd : ℤ} (hopen : s.peers fd ≠ .closed) :
      Step s (.close fd) { s with peers := Function.update s.peers fd .closed }

/-- The server from the set-up of its list on. -/
def network : System Network NetworkEvent where
  init s := s = ⟨connectToMysqlInit, fun _ => .closed⟩
  step := Network.Step

/-! ## The discipline -/

/-- `fd1` of a node. -/
def heldFd (node : DataSpm) : ℤ := node.mem.getInt Member.fd1

/-- The device a message without serial number is taken to come from. -/
def sessionKey (r : Registry) (para : Session) : Option (List UInt8) :=
  match para.node with
  | some i => r.nodes[i]?.map DataSpm.key
  | none => if isValidSN para.snArg.bytes then some para.snArg.key else none

/-- A message that is dispatched: if it names its device, no other device is reached on the
descriptor; if it does not, its device was the last to be named there. The handler leaves
the key of the node. -/
def CarefulDispatch (s : Network) (fd : ℤ) (para : Session) (w : World) (msg : List UInt8)
    (cmd : Cmd) (data : NodeData) : Prop :=
  (carriesSN cmd para msg = true → isValidSN data.snArg.bytes = true →
    ∀ node ∈ s.registry.nodes, heldFd node = fd → node.key = data.snArg.key) ∧
  (Served s.registry data w →
    (carriesSN cmd para msg = false → s.peers fd = .device data.snArg.key) ∧
      Resends cmd msg w data.snArg.key)

/-- The events that keep the descriptors of the nodes right. -/
def Careful (s : Network) : NetworkEvent → Prop
  | .accept _ => True
  | .message fd para w msg =>
    (∀ received cmd, codingWithRecvData s.registry para fd w msg = some received →
      received.outcome = .dispatch cmd →
        CarefulDispatch s fd para w msg cmd
          (nodeData cmd fd received.session received.tempBuf)) ∧
    (routeOf msg = some (.device .localSta) → ∀ key, sessionKey s.registry para = some key →
      key ∈ s.registry.keys ∨ w.malloc = true → s.peers fd = .device key)
  | .close fd => ∀ node ∈ s.registry.nodes, heldFd node ≠ fd

/-- The runs that consist of such events. -/
def carefulNetwork : System Network NetworkEvent := network.restrict Careful

/-- A descriptor that a node holds is open, and its device was the last that was named there. -/
structure Network.Routed (s : Network) : Prop where
  sound : s.registry.Sound
  int : ∀ fd, s.peers fd ≠ .closed → 0 ≤ fd ∧ fd < 2 ^ 31
  heard : ∀ node ∈ s.registry.nodes, 0 < heldFd node → s.peers (heldFd node) = .device node.key

/-! ## Where nodes come from -/

/-- A node that was in the registry with its key and `fd1`, or that holds no descriptor. -/
def Stems (r : Registry) (node' : DataSpm) : Prop :=
  (∃ node ∈ r.nodes, Spares node node') ∨ heldFd node' ≤ 0

theorem heldFd_of_read {node node' : DataSpm}
    (h : node'.mem.read Member.fd1 = node.mem.read Member.fd1) : heldFd node' = heldFd node := by
  simp only [heldFd, CArray.getInt, CArray.getNat, h]

theorem Stems.of_mem {r : Registry} {node : DataSpm} (h : node ∈ r.nodes) : Stems r node :=
  .inl ⟨node, h, .refl node⟩

theorem Stems.spares {r : Registry} {node node' : DataSpm} (h : Stems r node)
    (hs : Spares node node') : Stems r node' := by
  rcases h with ⟨old, hold, hs'⟩ | hle
  · exact .inl ⟨old, hold, hs'.trans hs⟩
  · right
    rw [heldFd_of_read hs.fd1]
    exact hle

theorem mem_of_mem_modify {l : List DataSpm} {i : ℕ} {f : DataSpm → DataSpm} {node' : DataSpm}
    (h : node' ∈ l.modify i f) : node' ∈ l ∨ ∃ node, l[i]? = some node ∧ node' = f node := by
  obtain ⟨j, hj⟩ := List.mem_iff_getElem?.mp h
  rw [List.getElem?_modify] at hj
  obtain ⟨node, hnode, hnode'⟩ := Option.map_eq_some_iff.mp hj
  by_cases hij : i = j
  · rw [if_pos hij] at hnode'
    exact .inr ⟨node, hij ▸ hnode, hnode'.symm⟩
  · rw [if_neg hij] at hnode'
    exact .inl (hnode' ▸ List.mem_of_getElem? hnode)

/-- Looking a serial number up adds at most a node that holds no descriptor. -/
theorem stems_findOrAdd {r r' : Registry} {sn : SnArg} {malloc : Bool} {found : Option ℕ}
    (h : findOrAdd r sn initDataSpm malloc = some (found, r')) :
    ∀ node ∈ r'.nodes, Stems r node := by
  obtain ⟨list, -, h⟩ := Option.bind_eq_some_iff.mp h
  intro node hnode
  cases list with
  | some i =>
    cases h
    exact .of_mem hnode
  | none =>
    dsimp only at h
    split at h
    · obtain ⟨added, hadd, h⟩ := Option.bind_eq_some_iff.mp h
      cases h
      unfold Registry.listAddTail at hadd
      split at hadd
      · cases hadd
        rcases List.mem_append.mp hnode with hold | hnew
        · exact .of_mem hold
        · right
          rw [List.mem_singleton.mp hnew]
          have hfit : 32 + sn.key.length ≤ dataSpmSize := by
            rw [sn.length_key]
            decide
          have hread : (initDataSpm.copySN sn).mem.read Member.fd1 =
              initDataSpm.mem.read Member.fd1 :=
            CArray.read_put_of_disjoint _ _ hfit (.inl (by decide))
          rw [heldFd_of_read hread]
          decide +kernel
      · cases hadd
    · cases h
      exact .of_mem hnode

theorem stems_getNodeBySN {r r' : Registry} {sn : SnArg} {malloc : Bool} {found : Option ℕ}
    (h : getNodeBySN r sn malloc = some (found, r')) : ∀ node ∈ r'.nodes, Stems r node := by
  unfold getNodeBySN at h
  split at h
  · obtain ⟨⟨found', r₁⟩, hlocked, h⟩ := Option.bind_eq_some_iff.mp h
    cases h
    have hstems := stems_findOrAdd hlocked
    intro node hnode
    cases found with
    | none => exact hstems node hnode
    | some i =>
      rcases mem_of_mem_modify hnode with hold | ⟨old, hold, rfl⟩
      · exact hstems node hold
      · exact (hstems old (List.mem_of_getElem? hold)).spares (Spares.refl old).closeSocketFd
  · cases h
    exact fun node hnode => .of_mem hnode

theorem stems_sessionNode {r r' : Registry} {para : Session} {malloc : Bool}
    {found : Option ℕ} (h : sessionNode r para malloc = some (found, r')) :
    ∀ node ∈ r'.nodes, Stems r node := by
  unfold sessionNode at h
  split at h
  · cases h
    exact fun node hnode => .of_mem hnode
  · exact stems_getNodeBySN h

/-- A node that stems from a registry whose descriptors are right is right itself. -/
theorem Network.Routed.heard_of_stems {s : Network} (h : s.Routed) {node : DataSpm}
    (hstems : Stems s.registry node) (hpos : 0 < heldFd node) :
    s.peers (heldFd node) = .device node.key := by
  rcases hstems with ⟨old, hold, hs⟩ | hle
  · rw [heldFd_of_read hs.fd1] at hpos ⊢
    rw [hs.key]
    exact h.heard old hold hpos
  · omega

/-! ## Messages that are not dispatched -/

section Answered
variable {r : Registry} {para : Session} {fd : ℤ} {w : World} {msg : List UInt8}
  {received : Received}

/-- The node of a session has the key of the session. -/
theorem sessionNode_key (hr : r.Sound) {i : ℕ} {r₁ : Registry} {malloc : Bool}
    (h : sessionNode r para malloc = some (some i, r₁)) {node : DataSpm}
    (hnode : r₁.nodes[i]? = some node) :
    sessionKey r para = some node.key ∧ (node.key ∈ r.keys ∨ malloc = true) := by
  cases hj : para.node with
  | some j =>
    have hkey : sessionKey r para = r.nodes[j]?.map DataSpm.key := by rw [sessionKey, hj]
    rw [sessionNode, hj] at h
    cases h
    rw [hkey, hnode]
    exact ⟨rfl, .inl (List.mem_map_of_mem (List.mem_of_getElem? hnode))⟩
  | none =>
    have hkey : sessionKey r para =
        if isValidSN para.snArg.bytes then some para.snArg.key else none := by rw [sessionKey, hj]
    have h : getNodeBySN r para.snArg malloc = some (some i, r₁) := by
      rw [← h, sessionNode, hj]
    by_cases hvalid : isValidSN para.snArg.bytes = true
    · obtain ⟨found, r₂, ho, hget⟩ := getNodeBySN_obtains hr hvalid malloc
      obtain ⟨rfl, rfl⟩ := Prod.mk.inj (Option.some.inj (h.symm.trans hget))
      rw [hkey, if_pos hvalid, ho.key_unlocked hnode]
      exact ⟨rfl, ho.mem_or_malloc⟩
    · rw [getNodeBySN, if_neg hvalid] at h
      cases h

theorem heldFd_receiveLocal (node : DataSpm) (para : Session) (tempBuf : CArray 256)
    (hfd : 0 ≤ fd ∧ fd < 2 ^ 31) :
    heldFd (codingWithLocal (receiveLocal node para tempBuf fd)).1 = fd := by
  rw [heldFd_of_read (spares_codingWithLocal _).fd1]
  have hread : (receiveLocal node para tempBuf fd).mem.read Member.fd1 =
      ((({ node with pool := para.pool } : DataSpm).setInt Member.len para.num).setInt
        Member.fd1 fd).mem.read Member.fd1 := by
    unfold receiveLocal
    rw [DataSpm.read_copyField _ _ _ _ (by decide)]
    split
    · rw [DataSpm.read_copyField _ _ _ _ (by decide)]
    · rfl
  rw [heldFd_of_read hread]
  exact CArray.getInt_setInt_self _ (by decide) (le_trans (by decide) hfd.1) hfd.2

/-- `Coding_With_Local_Socket` stores the descriptor in the node of the session. -/
theorem nodes_codingWithLocalSocket (hr : r.Sound) (hfd : 0 ≤ fd ∧ fd < 2 ^ 31)
    {buf : CArray 512} {tempBuf : CArray 256}
    (h : codingWithLocalSocket r buf tempBuf para fd w = some received) :
    ∀ node ∈ received.registry.nodes, Stems r node ∨
      (heldFd node = fd ∧ sessionKey r para = some node.key ∧
        (node.key ∈ r.keys ∨ w.malloc = true)) := by
  obtain ⟨-, found, r₁, hnode, hr₁ | ⟨i, para', tempBuf', rfl, -, hr₁⟩⟩ :=
    codingWithLocalSocket_cases h
  · rw [hr₁]
    exact fun node hmem => .inl (stems_sessionNode hnode node hmem)
  · rw [hr₁]
    intro node hmem
    rcases mem_of_mem_modify hmem with hold | ⟨old, hold, hstored⟩
    · exact .inl (stems_sessionNode hnode node hold)
    · right
      rw [hstored, key_codingWithLocal, key_receiveLocal]
      exact ⟨heldFd_receiveLocal old _ _ hfd, sessionNode_key hr hnode hold⟩

/-- The nodes when a message has been decoded: no other command stores the descriptor. -/
theorem nodes_received (hr : r.Sound) (hfd : 0 ≤ fd ∧ fd < 2 ^ 31)
    (h : codingWithRecvData r para fd w msg = some received) :
    ∀ node ∈ received.registry.nodes, Stems r node ∨
      (routeOf msg = some (.device .localSta) ∧ heldFd node = fd ∧
        sessionKey r para = some node.key ∧ (node.key ∈ r.keys ∨ w.malloc = true)) := by
  intro node hmem
  have hsame : received.registry = r → Stems r node := by
    intro heq
    rw [heq] at hmem
    exact .of_mem hmem
  rcases codingWithRecvData_cases h with ⟨heq, -⟩ | ⟨hfit, cmd, hroute, hbranch⟩
  · exact .inl (hsame heq)
  · rcases deviceBranch_cases hbranch with ⟨heq, -⟩ | ⟨rfl, hlocal⟩ | ⟨-, found, hnode⟩
    · exact .inl (hsame heq)
    · rcases nodes_codingWithLocalSocket hr hfd hlocal node hmem with hstems | hheld
      · exact .inl hstems
      · exact .inr ⟨hroute, hheld⟩
    · exact .inl (stems_sessionNode hnode node hmem)

end Answered

/-! ## Messages that are dispatched -/

/-- The nodes when a handler has run: it leaves the descriptor of the message in the node it
was called for, unless the device has logged out. -/
theorem nodes_dispatched {r r' : Registry} (hr : r.Sound) {cmd : Cmd} {data : NodeData}
    {w : World} {writes : List Write} (hfd : 0 ≤ data.fd ∧ data.fd < 2 ^ 31)
    (h : codingWithCMDDataPool r cmd data w = some (r', writes)) :
    ∀ node ∈ r'.nodes, Stems r node ∨
      (Served r data w ∧ heldFd node = data.fd ∧
        node.key = keyAfter cmd data w data.snArg.key) := by
  rcases codingWithCMDDataPool_cases hr h with ⟨-, rfl⟩ |
    ⟨hserved, i, r₁, found, found', frames, -, hget, hkey, hrun, rfl⟩
  · exact fun node hmem => .inl (.of_mem hmem)
  · intro node hmem
    rcases mem_of_mem_modify hmem with hold | ⟨_, -, rfl⟩
    · exact .inl (stems_getNodeBySN hget node hold)
    · obtain ⟨hafter, hlogout | hkept⟩ := codingWithDate_identity hrun
      · exact .inl (.inr hlogout.2)
      · refine .inr ⟨hserved, ?_, by rw [hafter, hkey]⟩
        rw [heldFd_of_read hkept, heldFd, CArray.getInt, (receive_spec found data).2.2]
        exact toSigned_emod (by decide) (le_trans (by decide) hfd.1) hfd.2

/-! ## Steps -/

theorem hear_of_ne {peers : ℤ → Peer} {fd fd' : ℤ} (named : Option (List UInt8))
    (hne : fd' ≠ fd) : hear peers fd named fd' = peers fd' := by
  cases named with
  | none => rfl
  | some key => exact Function.update_of_ne hne _ _

namespace Network

variable {s : Network}

/-- Descriptors that are open stay open when a message comes in, and no others are opened. -/
theorem Routed.int_hear (h : s.Routed) {fd : ℤ} (hopen : s.peers fd ≠ .closed)
    (named : Option (List UInt8)) :
    ∀ fd', hear s.peers fd named fd' ≠ .closed → 0 ≤ fd' ∧ fd' < 2 ^ 31 := by
  intro fd' hopen'
  by_cases hsame : fd' = fd
  · rw [hsame]
    exact h.int fd hopen
  · rw [hear_of_ne named hsame] at hopen'
    exact h.int fd' hopen'

theorem Routed.accept (h : s.Routed) {fd : ℤ} (hclosed : s.peers fd = .closed)
    (hint : 0 ≤ fd ∧ fd < 2 ^ 31) :
    Routed { s with peers := Function.update s.peers fd .unidentified } where
  sound := h.sound
  int := by
    intro fd' hopen
    by_cases hsame : fd' = fd
    · rw [hsame]
      exact hint
    · apply h.int fd'
      change Function.update s.peers fd .unidentified fd' ≠ .closed at hopen
      rwa [Function.update_of_ne hsame] at hopen
  heard := by
    intro node hmem hpos
    have hheard := h.heard node hmem hpos
    -- a descriptor that is not open is in no node
    have hne : heldFd node ≠ fd := by
      intro heq
      rw [heq, hclosed] at hheard
      cases hheard
    exact (Function.update_of_ne hne _ _).trans hheard

theorem Routed.close (h : s.Routed) {fd : ℤ}
    (hfree : ∀ node ∈ s.registry.nodes, heldFd node ≠ fd) :
    Routed { s with peers := Function.update s.peers fd .closed } where
  sound := h.sound
  int := by
    intro fd' hopen
    apply h.int fd'
    change Function.update s.peers fd .closed fd' ≠ .closed at hopen
    by_cases hsame : fd' = fd
    · rw [hsame, Function.update_self] at hopen
      exact absurd rfl hopen
    · rwa [Function.update_of_ne hsame] at hopen
  heard := fun node hmem hpos =>
    (Function.update_of_ne (hfree node hmem) _ _).trans (h.heard node hmem hpos)

section Message
variable {fd : ℤ} {para : Session} {w : World} {msg : List UInt8} {received : Received}

/-- A message that is answered while it is decoded names no device. -/
theorem Routed.answered (h : s.Routed) (hopen : s.peers fd ≠ .closed)
    (hrecv : codingWithRecvData s.registry para fd w msg = some received)
    (hcareful : routeOf msg = some (.device .localSta) →
      ∀ key, sessionKey s.registry para = some key →
        key ∈ s.registry.keys ∨ w.malloc = true → s.peers fd = .device key) :
    Routed ⟨received.registry, s.peers⟩ where
  sound := (codingWithRecvData_settled hrecv).sound h.sound
  int := h.int
  heard := by
    intro node hmem hpos
    rcases nodes_received h.sound (h.int fd hopen) hrecv node hmem with
      hstems | ⟨hroute, hfd, hkey, hserved⟩
    · exact h.heard_of_stems hstems hpos
    · show s.peers (heldFd node) = _
      rw [hfd]
      exact hcareful hroute node.key hkey hserved

/-- A message that is dispatched. -/
theorem Routed.dispatched (h : s.Routed) (hopen : s.peers fd ≠ .closed) {cmd : Cmd}
    (hrecv : codingWithRecvData s.registry para fd w msg = some received)
    (hout : received.outcome = .dispatch cmd) {data : NodeData}
    (hdata : data = nodeData cmd fd received.session received.tempBuf)
    (hcareful : CarefulDispatch s fd para w msg cmd data) {r' : Registry} {writes : List Write}
    (hrun : codingWithCMDDataPool s.registry cmd data w = some (r', writes)) :
    Routed ⟨r', hear s.peers fd (identified para fd msg received)⟩ := by
  obtain ⟨hothers, hown⟩ := hcareful
  obtain ⟨-, hfit, hbranch⟩ := decoded_of_dispatch hrecv hout
  have hfd : data.fd = fd := by rw [hdata]; rfl
  have hkeep := keyAfter_eq_iff hfit hbranch hdata
  have hnamed : identified para fd msg received =
      if carriesSN cmd para msg ∧ isValidSN data.snArg.bytes then some data.snArg.key else none := by
    rw [identified, hout, hdata]
  refine ⟨?_, h.int_hear hopen _, ?_⟩
  · apply sound_of_keysKept h.sound hrun
    apply (keysKept_iff_keyAfter h.sound hrun).mpr
    exact fun hserved => hkeep.mpr (hown hserved).2
  · intro node hmem hpos
    show hear s.peers fd (identified para fd msg received) (heldFd node) = _
    rcases nodes_dispatched h.sound (hfd ▸ h.int fd hopen) hrun node hmem with
      hstems | ⟨hserved, hheld, hkey⟩
    · have hheard := h.heard_of_stems hstems hpos
      by_cases hsame : heldFd node = fd
      · rw [hnamed]
        split
        · rename_i hboth
          rcases hstems with ⟨old, hold, hs⟩ | hle
          · -- an old node with this descriptor is the one of the device that is named
            rw [hs.key, hothers hboth.1 hboth.2 old hold ((heldFd_of_read hs.fd1).symm.trans hsame),
              hsame]
            exact Function.update_self ..
          · omega
        · exact hheard
      · rw [hear_of_ne _ hsame]
        exact hheard
    · obtain ⟨hlast, hresends⟩ := hown hserved
      rw [hheld, hfd, hkey, hkeep.mpr hresends, hnamed]
      by_cases hcarries : carriesSN cmd para msg = true
      · rw [if_pos ⟨hcarries, hserved.1⟩]
        exact Function.update_self ..
      · rw [if_neg fun hboth => hcarries hboth.1]
        exact hlast (Bool.eq_false_iff.mpr hcarries)

/-- Any message. -/
theorem Routed.message (h : s.Routed) (hopen : s.peers fd ≠ .closed)
    (hrecv : codingWithRecvData s.registry para fd w msg = some received)
    (hcareful : Careful s (.message fd para w msg)) {r' : Registry} {writes : List Write}
    (hrun : handleMessage s.registry para fd w msg = some (r', writes)) :
    Routed ⟨r', hear s.peers fd (identified para fd msg received)⟩ := by
  rw [handleMessage, hrecv, Option.bind_eq_bind, Option.bind_some] at hrun
  cases hout : received.outcome with
  | dispatch cmd =>
    rw [hout] at hrun
    obtain ⟨⟨r₁, writes'⟩, hpool, hrun⟩ := Option.bind_eq_some_iff.mp hrun
    cases hrun
    rw [(decoded_of_dispatch hrecv hout).1] at hpool
    exact h.dispatched hopen hrecv hout rfl (hcareful.1 received cmd hrecv hout) hpool
  | served | dropped =>
    rw [hout] at hrun
    cases hrun
    rw [identified, hout]
    exact h.answered hopen hrecv hcareful.2

end Message

/-- A message that names a device. -/
theorem Step.of_identified {fd : ℤ} {para : Session} {w : World} {msg key : List UInt8}
    {handled : Registry × List Write} (hopen : s.peers fd ≠ .closed)
    (hrun : handleMessage s.registry para fd w msg = some handled)
    (hkey : (codingWithRecvData s.registry para fd w msg).map (identified para fd msg) =
      some (some key)) :
    s.Step (.message fd para w msg) ⟨handled.1, Function.update s.peers fd (.device key)⟩ := by
  obtain ⟨received, hrecv, hnamed⟩ := Option.map_eq_some_iff.mp hkey
  have hstep : s.Step _ _ := .message hopen hrecv hrun
  rw [hnamed] at hstep
  exact hstep

theorem Routed.step (h : s.Routed) {e : NetworkEvent} {s' : Network} (hstep : s.Step e s')
    (hcareful : Careful s e) : s'.Routed := by
  cases hstep with
  | accept hclosed hint => exact h.accept hclosed hint
  | message hopen hrecv hrun => exact h.message hopen hrecv hcareful hrun
  | close hopen => exact h.close hcareful

theorem routed_of_reachable (h : carefulNetwork.Reachable s) : s.Routed := by
  apply h.invariant
  · rintro s rfl
    exact ⟨sound_connectToMysqlInit, fun fd hopen => absurd rfl hopen, nofun⟩
  · rintro s e s' - hrouted ⟨hstep, hcareful⟩
    exact hrouted.step hstep hcareful

end Network

/-! ## Requests -/

/-- A request that is answered with `ok` has found a node of its serial number that holds a
descriptor, and the frame goes there. -/
theorem clientWebManage_ok {r : Registry} (hr : r.Sound) {src : List UInt8} {client : ℤ}
    {para1 : WebRequest} (hvalue : getValue src = some para1) {writes : List Write}
    (h : clientWebManage r src client = some writes)
    (hok : writes.head? = some ⟨client, text "ok\n"⟩) :
    ∃ node ∈ r.nodes, node.key = para1.sn ∧ 0 < heldFd node ∧
      writes.tail = (webFrame para1).toList.map fun frame => ⟨heldFd node, frame⟩ := by
  have hfaild : (⟨client, text "faild\n"⟩ : Write) ≠ ⟨client, text "ok\n"⟩ := by
    intro heq
    have hbytes : text "faild\n" = text "ok\n" := congrArg Write.bytes heq
    exact absurd hbytes (by decide)
  rw [clientWebManage, hvalue, Option.bind_eq_bind, Option.bind_some] at h
  obtain ⟨found, hfound, h⟩ := Option.bind_eq_some_iff.mp h
  dsimp only at h
  split at h
  · rename_i hpos
    cases h
    rcases getDataListBySN_spec hr para1.sn with ⟨i, hget, hkey⟩ | ⟨hget, -⟩
    · obtain rfl := Option.some.inj (hfound.symm.trans hget)
      rw [Registry.getElem?_keys] at hkey
      obtain ⟨node, hnode, hkey⟩ := Option.map_eq_some_iff.mp hkey
      have hfd : fdOf r (some i) = heldFd node := by
        rw [fdOf, Option.bind_some, hnode]
        rfl
      rw [hfd] at hpos ⊢
      exact ⟨node, List.mem_of_getElem? hnode, hkey, hpos, rfl⟩
    · -- without a node there is no descriptor
      obtain rfl := Option.some.inj (hfound.symm.trans hget)
      exact absurd hpos (Int.lt_irrefl 0)
  · cases h
    exact absurd (Option.some.inj hok) hfaild

/-- In every run of careful events, a web request that is answered with `ok` is sent to a
descriptor that is open and on which its device was the last to be named, and no two nodes
hold the same descriptor. -/
theorem requests_reach_device {s : Network} (h : carefulNetwork.Reachable s) :
    (∀ src client para1 writes, getValue src = some para1 →
      clientWebManage s.registry src client = some writes →
      writes.head? = some ⟨client, text "ok\n"⟩ →
        ∃ fd, s.peers fd = .device para1.sn ∧
          writes.tail = (webFrame para1).toList.map fun frame => ⟨fd, frame⟩) ∧
    (∀ (i j : ℕ) a b, s.registry.nodes[i]? = some a → s.registry.nodes[j]? = some b →
      0 < heldFd a → heldFd a = heldFd b → i = j) := by
  have hrouted := Network.routed_of_reachable h
  refine ⟨?_, ?_⟩
  · intro src client para1 writes hvalue hweb hok
    obtain ⟨node, hmem, hkey, hpos, htail⟩ := clientWebManage_ok hrouted.sound hvalue hweb hok
    refine ⟨heldFd node, ?_, htail⟩
    rw [hrouted.heard node hmem hpos, hkey]
  · intro i j a b ha hb hpos hsame
    have hheard := hrouted.heard a (List.mem_of_getElem? ha) hpos
    have hheard' := hrouted.heard b (List.mem_of_getElem? hb) (hsame ▸ hpos)
    rw [hsame, hheard'] at hheard
    have hkeys : b.key = a.key := Peer.device.inj hheard
    have hi : s.registry.keys[i]? = some a.key := by
      rw [Registry.getElem?_keys, ha]
      rfl
    have hj : s.registry.keys[j]? = some a.key := by
      rw [Registry.getElem?_keys, hb, ← hkeys]
      rfl
    exact hrouted.sound.index_unique hi hj

/-- A web request for the device `sn` to swap its card. -/
def swapRequest (sn : List UInt8) : List UInt8 :=
  text "\x7b\"sn\":\"" ++ sn ++ text "\",\"type\":\"9\"\x7d"

/-- A device is reached on the connection it has sent its heartbeat on. -/
theorem requests_reach_device_heartbeat :
    ∃ s : Network, carefulNetwork.Reachable s ∧
      clientWebManage s.registry (swapRequest (text "172150210000937")) 8 =
        some [⟨8, text "ok\n"⟩, ⟨5, [0x89, 0, 0, 0]⟩] ∧
      s.peers 5 = .device (text "172150210000937") := by
  have hstart : carefulNetwork.Reachable ⟨connectToMysqlInit, fun _ => .closed⟩ := .start rfl
  have hopen : carefulNetwork.Reachable
      ⟨connectToMysqlInit, Function.update (fun _ => .closed) 5 .unidentified⟩ :=
    hstart.next (a := .accept 5) ⟨.accept rfl (by decide), trivial⟩
  obtain ⟨handled, hrun⟩ : ∃ handled, handleMessage connectToMysqlInit anonymous 5 .silent
      (heartbeat 24 (text "172150210000937")) = some handled :=
    Option.isSome_iff_exists.mp (by decide +kernel)
  have hkey : (codingWithRecvData connectToMysqlInit anonymous 5 .silent
      (heartbeat 24 (text "172150210000937"))).map
        (identified anonymous 5 (heartbeat 24 (text "172150210000937"))) =
      some (some (text "172150210000937")) := by decide +kernel
  have hcareful : Careful ⟨connectToMysqlInit, Function.update (fun _ => .closed) 5 .unidentified⟩
      (.message 5 anonymous .silent (heartbeat 24 (text "172150210000937"))) := by
    have hout : (codingWithRecvData connectToMysqlInit anonymous 5 .silent
        (heartbeat 24 (text "172150210000937"))).map Received.outcome =
        some (.dispatch .hb) := by decide +kernel
    refine ⟨?_, fun hroute => absurd hroute (by decide)⟩
    intro received cmd hrecv hcmd
    rw [hrecv, Option.map_some, hcmd] at hout
    obtain rfl := Outcome.dispatch.inj (Option.some.inj hout)
    refine ⟨fun _ _ node hmem => absurd hmem List.not_mem_nil, fun _ => ⟨nofun, .inr ?_⟩⟩
    exact fun i hi _ hcut => absurd hi (Nat.not_lt.mpr hcut)
  have hreach := hopen.next ⟨.of_identified (by decide) hrun hkey, hcareful⟩
  have hweb : (handleMessage connectToMysqlInit anonymous 5 .silent
      (heartbeat 24 (text "172150210000937"))).bind (fun handled =>
        clientWebManage handled.1 (swapRequest (text "172150210000937")) 8) =
      some [⟨8, text "ok\n"⟩, ⟨5, [0x89, 0, 0, 0]⟩] := by decide +kernel
  rw [hrun, Option.bind_some] at hweb
  obtain ⟨fd, hpeer, htail⟩ := (requests_reach_device hreach).1
    (swapRequest (text "172150210000937")) 8 ⟨9, 0, text "172150210000937", []⟩ _ rfl hweb rfl
  have hfd : fd = 5 := (congrArg (fun writes : List Write => (writes.map Write.fd).headD 0)
    htail).symm
  rw [hfd] at hpeer
  exact ⟨_, hreach, hweb, hpeer⟩

/-- A connection is closed and its descriptor is used for that of another device: a request
for the first device is answered with `ok` and sent to the second. -/
theorem request_reaches_other_device :
    ∃ s : Network, network.Reachable s ∧
      clientWebManage s.registry (swapRequest (text "172150210000937")) 8 =
        some [⟨8, text "ok\n"⟩, ⟨5, [0x89, 0, 0, 0]⟩] ∧
      s.peers 5 = .device (text "172150210000938") ∧ s.registry.nodes.map heldFd = [5, 5] := by
  have hstart : network.Reachable ⟨connectToMysqlInit, fun _ => .closed⟩ := .start rfl
  have hopen : network.Reachable
      ⟨connectToMysqlInit, Function.update (fun _ => .closed) 5 .unidentified⟩ :=
    hstart.next (a := .accept 5) (.accept rfl (by decide))
  obtain ⟨first, hfirst⟩ : ∃ first, handleMessage connectToMysqlInit anonymous 5 .silent
      (heartbeat 24 (text "172150210000937")) = some first :=
    Option.isSome_iff_exists.mp (by decide +kernel)
  have hkey : (codingWithRecvData connectToMysqlInit anonymous 5 .silent
      (heartbeat 24 (text "172150210000937"))).map
        (identified anonymous 5 (heartbeat 24 (text "172150210000937"))) =
      some (some (text "172150210000937")) := by decide +kernel
  have hheard := hopen.next (Network.Step.of_identified (by decide) hfirst hkey)
  -- the descriptor is closed and accepted again, and the node keeps it
  have hclosed : network.Reachable ⟨first.1, _⟩ :=
    hheard.next (a := .close 5) (Network.Step.close (by simp))
  have hagain : network.Reachable ⟨first.1, _⟩ :=
    hclosed.next (a := .accept 5) (Network.Step.accept rfl (by decide))
  have hsecond : ((handleMessage connectToMysqlInit anonymous 5 .silent
      (heartbeat 24 (text "172150210000937"))).bind fun first =>
        handleMessage first.1 anonymous 5 .silent
          (heartbeat 24 (text "172150210000938"))).isSome = true := by decide +kernel
  have hkey₂ : ((handleMessage connectToMysqlInit anonymous 5 .silent
      (heartbeat 24 (text "172150210000937"))).bind fun first =>
        (codingWithRecvData first.1 anonymous 5 .silent
          (heartbeat 24 (text "172150210000938"))).map
            (identified anonymous 5 (heartbeat 24 (text "172150210000938")))) =
      some (some (text "172150210000938")) := by decide +kernel
  have hweb : ((handleMessage connectToMysqlInit anonymous 5 .silent
      (heartbeat 24 (text "172150210000937"))).bind fun first =>
        (handleMessage first.1 anonymous 5 .silent
          (heartbeat 24 (text "172150210000938"))).map fun second =>
            (clientWebManage second.1 (swapRequest (text "172150210000937")) 8,
              second.1.nodes.map heldFd)) =
      some (some [⟨8, text "ok\n"⟩, ⟨5, [0x89, 0, 0, 0]⟩], [5, 5]) := by decide +kernel
  rw [hfirst, Option.bind_some] at hsecond hkey₂ hweb
  obtain ⟨second, hsecond⟩ := Option.isSome_iff_exists.mp hsecond
  rw [hsecond] at hweb
  obtain ⟨hok, hheld⟩ := Prod.mk.inj (Option.some.inj hweb)
  exact ⟨_, hagain.next (.of_identified (by simp) hsecond hkey₂), hok, rfl, hheld⟩

end Tdm.Device
