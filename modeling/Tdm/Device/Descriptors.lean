import Tdm.Device.HandlerStores
import Mathlib.Data.Finset.Basic
import Mathlib.Data.Finset.Lattice.Lemmas

/-!
# Outgoing descriptors

`socket_spm` of a node is the descriptor of its connection to a SIM pool server, if it is
positive. The operations that open and close outgoing descriptors run one after the other;
what the system calls answer is a parameter of each. The books balance if the open
descriptors are just the positive `socket_spm`, each held by one node, and no descriptor was
closed that was not open. They do exactly as long as no operation gets a descriptor from
`socket` that it then drops (`balanced_iff_clean`).
-/

namespace Tdm.Device

open Tdm.Lib Tdm.Common

/-! ## Open descriptors -/

structure Descriptors where
  isOpen : Finset ℤ
  /-- what was closed and was not open -/
  wrong : List ℤ
deriving DecidableEq

namespace Descriptors

def apply (d : Descriptors) : FdEvent → Descriptors
  | .opened fd => { d with isOpen := insert fd d.isOpen }
  | .closed fd =>
    if fd ∈ d.isOpen then { d with isOpen := d.isOpen.erase fd }
    else { d with wrong := d.wrong ++ [fd] }

def run (d : Descriptors) (events : List FdEvent) : Descriptors := events.foldl apply d

/-- `socket` may return any `int` that is not negative and not open. -/
def May (d : Descriptors) : FdEvent → Prop
  | .opened fd => 0 ≤ fd ∧ fd < 2 ^ 31 ∧ fd ∉ d.isOpen
  | .closed _ => True

instance (d : Descriptors) : (e : FdEvent) → Decidable (d.May e)
  | .opened _ => inferInstanceAs (Decidable (_ ∧ _))
  | .closed _ => inferInstanceAs (Decidable True)

/-- Each descriptor that is opened is one the system may hand out then. -/
def Admits : Descriptors → List FdEvent → Prop
  | _, [] => True
  | d, e :: events => d.May e ∧ (d.apply e).Admits events

instance decidableAdmits : (d : Descriptors) → (events : List FdEvent) →
    Decidable (d.Admits events)
  | _, [] => inferInstanceAs (Decidable True)
  | d, e :: events =>
    have := decidableAdmits (d.apply e) events
    inferInstanceAs (Decidable (d.May e ∧ (d.apply e).Admits events))

theorem run_append (d : Descriptors) (events events' : List FdEvent) :
    d.run (events ++ events') = (d.run events).run events' := List.foldl_append

theorem admits_append {d : Descriptors} {events events' : List FdEvent} :
    d.Admits (events ++ events') ↔ d.Admits events ∧ (d.run events).Admits events' := by
  induction events generalizing d with
  | nil => exact (and_iff_right trivial).symm
  | cons e events ih =>
    show d.May e ∧ (d.apply e).Admits (events ++ events') ↔
      (d.May e ∧ (d.apply e).Admits events) ∧ ((d.apply e).run events).Admits events'
    rw [ih, and_assoc]

/-- A descriptor that is opened and closed again leaves no trace. -/
theorem run_opened_closed {d : Descriptors} {fd : ℤ} (h : d.Admits [.opened fd]) :
    d.run [.opened fd, .closed fd] = d := by
  have hfresh : fd ∉ d.isOpen := h.1.2.2
  show apply { d with isOpen := insert fd d.isOpen } (.closed fd) = d
  rw [apply, if_pos (Finset.mem_insert_self fd d.isOpen)]
  show Descriptors.mk ((insert fd d.isOpen).erase fd) d.wrong = d
  rw [Finset.erase_insert hfresh]

theorem run_closed {d : Descriptors} {fd : ℤ} (h : fd ∈ d.isOpen) :
    d.run [.closed fd] = { d with isOpen := d.isOpen.erase fd } := if_pos h

end Descriptors

/-! ## Operations -/

/-- `PickUp_Data_Spm` and then `Data_Coding_Spm`: the descriptors they open and close. -/
def spmExchangeEvents (node : DataSpm) (w : World) : Option (List FdEvent) := do
  let picked ← pickUpDataSpm node w
  let node := picked.node.setInt Member.socketSpm picked.socketSpm
  match picked.record with
  | none => return picked.events
  | some _ => return picked.events ++ dataCodingSpmEvents node w.spm

/-- The descriptor `Coding_With_LogOut` closes. -/
def codingWithLogOutEvents (node : DataSpm) (w : World) : Option (List FdEvent) := do
  let node ← setSIMSI node (node.mem.read InBuff.logoutImsi)
  if w.now - node.mem.getInt Member.outtime ≤ 25 then return []
  else return closeSocketFdEvents node Member.socketSpm

/-- What is done, and what the system calls answer meanwhile. -/
inductive Operation
  | sendSimData (calls : SimPoolCalls)
  /-- an exchange for node `i` with a destination of `n` bytes -/
  | spmExchange (i n : ℕ) (w : World)
  | closeSocketFd (i : ℕ)
  | logOut (i : ℕ) (w : World)
  /-- any other code makes `node` of node `i`, without a change of `socket_spm` -/
  | store (i : ℕ) (node : DataSpm)
  /-- a new node, without a connection -/
  | add (node : DataSpm)

def DataSpm.socket (node : DataSpm) : ℤ := node.mem.getInt Member.socketSpm

/-- The nodes afterwards, and the descriptors opened and closed. -/
def Operation.effect (nodes : List DataSpm) : Operation → Option (List DataSpm × List FdEvent)
  | .sendSimData calls => some (nodes, calls.events)
  | .spmExchange i n w => do
    let node ← nodes[i]?
    let (_, _, node') ← Device.spmExchange node n w
    return (nodes.set i node', ← spmExchangeEvents node w)
  | .closeSocketFd i => do
    let node ← nodes[i]?
    return (nodes.set i (Common.closeSocketFd node Member.socketSpm),
      closeSocketFdEvents node Member.socketSpm)
  | .logOut i w => do
    let node ← nodes[i]?
    let (node', _) ← codingWithLogOut node w
    return (nodes.set i node', ← codingWithLogOutEvents node w)
  | .store i node' => do
    let node ← nodes[i]?
    if DataSpm.socket node' = DataSpm.socket node then return (nodes.set i node', []) else none
  | .add node =>
    if DataSpm.socket node ≤ 0 then some (nodes ++ [node], []) else none

structure Outgoing where
  nodes : List DataSpm
  fds : Descriptors

/-- One operation. -/
def Outgoing.Step (s : Outgoing) (op : Operation) (s' : Outgoing) : Prop :=
  ∃ events, op.effect s.nodes = some (s'.nodes, events) ∧ s.fds.Admits events ∧
    s'.fds = s.fds.run events

/-- Operations one after the other, each with the state after it. -/
def Outgoing.Trace : Outgoing → List (Operation × Outgoing) → Prop
  | _, [] => True
  | s, (op, s') :: rest => s.Step op s' ∧ s'.Trace rest

/-! ## Balance -/

/-- The descriptors the nodes hold. -/
def held (nodes : List DataSpm) : List ℤ := (nodes.map DataSpm.socket).filter (0 < ·)

structure Outgoing.Balanced (s : Outgoing) : Prop where
  nodup : (held s.nodes).Nodup
  isOpen : s.fds.isOpen = (held s.nodes).toFinset
  wrong : s.fds.wrong = []

/-- No descriptor is dropped by the calls of `Send_Sim_Data`: a socket that was made is
positive, is connected, and the text can be written to it. -/
def SimPoolCalls.Clean (calls : SimPoolCalls) : Prop :=
  match calls.connect with
  | .socketFailed => True
  | .refused _ => False
  | .connected fd => 0 < fd ∧ 0 < calls.write

/-- No descriptor is dropped when `PickUp_Data_Spm` connects for the card `sIMSI`: it gets a
positive descriptor that is connected, or none at all and the report of the card is clean. -/
def World.ConnectsClean (w : World) (sIMSI : List UInt8) : Prop :=
  match w.connect with
  | .socketFailed => sIMSI = List.replicate 18 48 ∨ SimPoolCalls.Clean w.status
  | .refused _ => False
  | .connected fd => 0 < fd

/-- `PickUp_Data_Spm` makes a connection for this node. -/
def connects (node : DataSpm) : Prop := DataSpm.socket node ≤ 0 ∧ 0 < spmPort node

/-- No descriptor is dropped by the operation. -/
def Operation.Clean (nodes : List DataSpm) : Operation → Prop
  | .sendSimData calls => SimPoolCalls.Clean calls
  | .spmExchange i _ w => ∀ node, nodes[i]? = some node → connects node →
    w.ConnectsClean (node.mem.read Member.sIMSI)
  | _ => True

def Outgoing.Clean : Outgoing → List (Operation × Outgoing) → Prop
  | _, [] => True
  | s, (op, s') :: rest => op.Clean s.nodes ∧ s'.Clean rest

/-! ## One node -/

/-- What one node holds. -/
def heldBy (v : ℤ) : List ℤ := [v].filter (0 < ·)

theorem heldBy_of_pos {v : ℤ} (h : 0 < v) : heldBy v = [v] := by
  simp [heldBy, h]

theorem heldBy_of_nonpos {v : ℤ} (h : v ≤ 0) : heldBy v = [] := by
  simp [heldBy, h]

theorem nodup_heldBy (v : ℤ) : (heldBy v).Nodup := (List.nodup_singleton v).filter _

/-- What the nodes hold, with node `i` first, before and after a change of it. -/
theorem held_set {nodes : List DataSpm} {i : ℕ} {node : DataSpm} (hi : nodes[i]? = some node)
    (node' : DataSpm) :
    ∃ rest, (held nodes).Perm (heldBy (DataSpm.socket node) ++ rest) ∧
      (held (nodes.set i node')).Perm (heldBy (DataSpm.socket node') ++ rest) := by
  obtain ⟨hlt, hget⟩ := List.getElem?_eq_some_iff.mp hi
  obtain ⟨l₁, l₂, hnodes, -, hset⟩ :
      ∃ l₁ l₂, nodes = l₁ ++ nodes[i] :: l₂ ∧ l₁.length = i ∧ nodes.set i node' = l₁ ++ node' :: l₂ :=
    List.exists_of_set hlt
  have hsplit : ∀ x, held (l₁ ++ x :: l₂) = held l₁ ++ (heldBy (DataSpm.socket x) ++ held l₂) := by
    intro x
    simp only [held, heldBy, List.map_append, List.map_cons, ← List.filter_append,
      List.singleton_append]
  have hperm : ∀ x, (held (l₁ ++ x :: l₂)).Perm
      (heldBy (DataSpm.socket x) ++ (held l₁ ++ held l₂)) := by
    intro x
    rw [hsplit x, ← List.append_assoc, ← List.append_assoc]
    exact List.perm_append_comm.append_right _
  refine ⟨held l₁ ++ held l₂, ?_, ?_⟩
  · rw [hget] at hnodes
    rw [hnodes]
    exact hperm node
  · rw [hset]
    exact hperm node'

/-- When a change of one node and of the open descriptors keeps the balance. -/
theorem Outgoing.Balanced.set_iff {s : Outgoing} (h : s.Balanced) {i : ℕ} {node : DataSpm}
    (hi : s.nodes[i]? = some node) (node' : DataSpm) (d : Descriptors) :
    (Outgoing.mk (s.nodes.set i node') d).Balanced ↔
      d.isOpen = s.fds.isOpen \ (heldBy (DataSpm.socket node)).toFinset ∪
        (heldBy (DataSpm.socket node')).toFinset ∧ d.wrong = [] ∧
      ∀ fd ∈ heldBy (DataSpm.socket node'),
        fd ∉ s.fds.isOpen \ (heldBy (DataSpm.socket node)).toFinset := by
  obtain ⟨rest, hbefore, hafter⟩ := held_set hi node'
  have hnodup := hbefore.nodup_iff.mp h.nodup
  obtain ⟨-, hrest, hdisjoint⟩ := List.nodup_append.mp hnodup
  -- what the other nodes hold
  have hothers : s.fds.isOpen \ (heldBy (DataSpm.socket node)).toFinset = rest.toFinset := by
    rw [h.isOpen, List.toFinset_eq_of_perm _ _ hbefore, List.toFinset_append,
      Finset.union_sdiff_left, Finset.sdiff_eq_self_iff_disjoint, Finset.disjoint_left]
    intro fd hfd hin
    exact hdisjoint fd (List.mem_toFinset.mp hin) fd (List.mem_toFinset.mp hfd) rfl
  have hopen : (held (s.nodes.set i node')).toFinset =
      rest.toFinset ∪ (heldBy (DataSpm.socket node')).toFinset := by
    rw [List.toFinset_eq_of_perm _ _ hafter, List.toFinset_append, Finset.union_comm]
  have hnew : (held (s.nodes.set i node')).Nodup ↔
      ∀ fd ∈ heldBy (DataSpm.socket node'), fd ∉ rest.toFinset := by
    rw [hafter.nodup_iff, List.nodup_append]
    constructor
    · rintro ⟨-, -, hd⟩ fd hfd hin
      exact hd fd hfd fd (List.mem_toFinset.mp hin) rfl
    · intro hd
      refine ⟨nodup_heldBy _, hrest, ?_⟩
      rintro fd hfd fd' hfd' rfl
      exact hd fd hfd (List.mem_toFinset.mpr hfd')
  rw [hothers]
  constructor
  · rintro ⟨hnd, ho, hw⟩
    exact ⟨ho.trans hopen, hw, hnew.mp hnd⟩
  · rintro ⟨ho, hw, hnd⟩
    exact ⟨hnew.mpr hnd, ho.trans hopen.symm, hw⟩

/-- A node that held nothing holds nothing. -/
theorem Outgoing.Balanced.set_nonpos_iff {s : Outgoing} (h : s.Balanced) {i : ℕ}
    {node node' : DataSpm} (hi : s.nodes[i]? = some node) (hnode : DataSpm.socket node ≤ 0)
    (hnode' : DataSpm.socket node' ≤ 0) (d : Descriptors) :
    (Outgoing.mk (s.nodes.set i node') d).Balanced ↔
      d.isOpen = s.fds.isOpen ∧ d.wrong = [] := by
  rw [h.set_iff hi, heldBy_of_nonpos hnode, heldBy_of_nonpos hnode']
  simp

/-- What a node holds is open. -/
theorem Outgoing.Balanced.heldBy_subset {s : Outgoing} (h : s.Balanced) {i : ℕ}
    {node : DataSpm} (hi : s.nodes[i]? = some node) :
    (heldBy (DataSpm.socket node)).toFinset ⊆ s.fds.isOpen := by
  obtain ⟨rest, hperm, -⟩ := held_set hi node
  rw [h.isOpen, List.toFinset_eq_of_perm _ _ hperm, List.toFinset_append]
  exact Finset.subset_union_left

theorem Outgoing.Balanced.mem_isOpen {s : Outgoing} (h : s.Balanced) {i : ℕ}
    {node : DataSpm} (hi : s.nodes[i]? = some node) (hpos : 0 < DataSpm.socket node) :
    DataSpm.socket node ∈ s.fds.isOpen := by
  apply h.heldBy_subset hi
  rw [heldBy_of_pos hpos]
  exact List.mem_toFinset.mpr (List.mem_singleton_self _)

/-- A node keeps what it holds. -/
theorem Outgoing.Balanced.set_same {s : Outgoing} (h : s.Balanced) {i : ℕ}
    {node node' : DataSpm} (hi : s.nodes[i]? = some node)
    (hsame : heldBy (DataSpm.socket node') = heldBy (DataSpm.socket node)) :
    (Outgoing.mk (s.nodes.set i node') s.fds).Balanced := by
  rw [h.set_iff hi, hsame]
  refine ⟨(Finset.sdiff_union_of_subset (h.heldBy_subset hi)).symm, h.wrong, ?_⟩
  intro fd hfd hin
  exact (Finset.mem_sdiff.mp hin).2 (List.mem_toFinset.mpr hfd)

/-- A node closes what it holds, and holds nothing then. -/
theorem Outgoing.Balanced.set_closed {s : Outgoing} (h : s.Balanced) {i : ℕ}
    {node node' : DataSpm} (hi : s.nodes[i]? = some node) (hpos : 0 < DataSpm.socket node)
    (hnode' : DataSpm.socket node' ≤ 0) :
    (Outgoing.mk (s.nodes.set i node') (s.fds.run [.closed (DataSpm.socket node)])).Balanced := by
  rw [h.set_iff hi, heldBy_of_pos hpos, heldBy_of_nonpos hnode',
    Descriptors.run_closed (h.mem_isOpen hi hpos)]
  refine ⟨?_, h.wrong, nofun⟩
  show s.fds.isOpen.erase (DataSpm.socket node) = _
  rw [← Finset.sdiff_singleton_eq_erase]
  simp

/-- A node that held nothing gets a new descriptor. -/
theorem Outgoing.Balanced.set_opened {s : Outgoing} (h : s.Balanced) {i : ℕ}
    {node node' : DataSpm} (hi : s.nodes[i]? = some node) (hnode : DataSpm.socket node ≤ 0)
    (hpos : 0 < DataSpm.socket node') (hfresh : DataSpm.socket node' ∉ s.fds.isOpen) :
    (Outgoing.mk (s.nodes.set i node')
      (s.fds.run [.opened (DataSpm.socket node')])).Balanced := by
  rw [h.set_iff hi, heldBy_of_pos hpos, heldBy_of_nonpos hnode]
  refine ⟨?_, h.wrong, ?_⟩
  · show insert (DataSpm.socket node') s.fds.isOpen = _
    rw [Finset.insert_eq, Finset.union_comm]
    simp
  · intro fd hfd
    rw [List.mem_singleton.mp hfd]
    simpa using hfresh

/-! ## What the operations do to one node -/

theorem events_connected (fd write : ℤ) :
    (SimPoolCalls.mk (.connected fd) write).events =
      if 0 < fd ∧ 0 < write then [.opened fd, .closed fd] else [.opened fd] := by
  show (if fd ≤ 0 then [FdEvent.opened fd] else if write ≤ 0 then [FdEvent.opened fd]
    else [FdEvent.opened fd] ++ [FdEvent.closed fd]) = _
  by_cases hfd : fd ≤ 0
  · rw [if_pos hfd, if_neg (by omega)]
  · by_cases hwrite : write ≤ 0
    · rw [if_neg hfd, if_pos hwrite, if_neg (by omega)]
    · rw [if_neg hfd, if_neg hwrite, if_pos (by omega)]
      rfl

/-- `Send_Sim_Data` loses no descriptor exactly if its calls are clean, and never closes one
of somebody else. -/
theorem run_simPool {d : Descriptors} {calls : SimPoolCalls} (h : d.Admits calls.events) :
    ((d.run calls.events).isOpen = d.isOpen ↔ SimPoolCalls.Clean calls) ∧
      (d.run calls.events).wrong = d.wrong ∧ d.isOpen ⊆ (d.run calls.events).isOpen := by
  obtain ⟨connect, write⟩ := calls
  -- a descriptor that is opened and not closed is one more than before
  have hleak : ∀ fd, d.Admits [.opened fd] →
      ((d.run [.opened fd]).isOpen = d.isOpen ↔ False) ∧
        (d.run [.opened fd]).wrong = d.wrong ∧ d.isOpen ⊆ (d.run [.opened fd]).isOpen := by
    intro fd hadmits
    refine ⟨iff_false_intro fun hsame => ?_, rfl, Finset.subset_insert fd d.isOpen⟩
    exact hadmits.1.2.2 (Finset.insert_eq_self.mp hsame)
  cases connect with
  | socketFailed => exact ⟨iff_of_true rfl trivial, rfl, subset_rfl⟩
  | refused fd => exact hleak fd h
  | connected fd =>
    show (_ ↔ 0 < fd ∧ 0 < write) ∧ _
    rw [events_connected] at h ⊢
    by_cases hclean : 0 < fd ∧ 0 < write
    · rw [if_pos hclean] at h ⊢
      rw [Descriptors.run_opened_closed ⟨h.1, trivial⟩]
      exact ⟨iff_of_true rfl hclean, rfl, subset_rfl⟩
    · rw [if_neg hclean] at h ⊢
      rw [iff_false_intro hclean]
      exact hleak fd h

/-- `Set_SimCards_Status`: nothing is sent for a card without number. -/
theorem run_status {d : Descriptors} {sIMSI : List UInt8} {calls : SimPoolCalls}
    (h : d.Admits (setSimCardsStatusEvents sIMSI calls)) :
    ((d.run (setSimCardsStatusEvents sIMSI calls)).isOpen = d.isOpen ↔
        sIMSI = List.replicate 18 48 ∨ SimPoolCalls.Clean calls) ∧
      (d.run (setSimCardsStatusEvents sIMSI calls)).wrong = d.wrong ∧
      d.isOpen ⊆ (d.run (setSimCardsStatusEvents sIMSI calls)).isOpen := by
  unfold setSimCardsStatusEvents at h ⊢
  by_cases hcard : sIMSI = List.replicate 18 48
  · rw [if_pos hcard]
    exact ⟨iff_of_true rfl (.inl hcard), rfl, subset_rfl⟩
  · rw [if_neg hcard] at h ⊢
    rw [or_iff_right hcard]
    exact run_simPool h

theorem socket_eq {node node' : DataSpm}
    (h : node'.mem.read Member.socketSpm = node.mem.read Member.socketSpm) :
    DataSpm.socket node' = DataSpm.socket node := by
  rw [DataSpm.socket, CArray.getInt, CArray.getNat, h]
  rfl

theorem socket_setInt (node : DataSpm) {v : ℤ} (hlower : -(2 : ℤ) ^ 31 ≤ v)
    (hupper : v < (2 : ℤ) ^ 31) : DataSpm.socket (node.setInt Member.socketSpm v) = v :=
  node.mem.getInt_setInt_self (by decide) hlower hupper

theorem socket_bounds (node : DataSpm) :
    -(2 : ℤ) ^ 31 ≤ DataSpm.socket node ∧ DataSpm.socket node < (2 : ℤ) ^ 31 :=
  toSigned_bounds (by decide) (node.mem.getNat_lt Member.socketSpm)

/-- What comes back from `ConnectToServerTimeOut` is an `int`. -/
def Connect.Fits : Connect → Prop
  | .connected fd => 0 ≤ fd ∧ fd < 2 ^ 31
  | _ => True

theorem connect_bounds {c : Connect} (h : Connect.Fits c) :
    -(2 : ℤ) ^ 31 ≤ connectToServerTimeOut c ∧ connectToServerTimeOut c < (2 : ℤ) ^ 31 := by
  cases c with
  | connected fd =>
    obtain ⟨hlower, hupper⟩ := h
    exact ⟨Int.le_trans (by decide) hlower, hupper⟩
  | socketFailed => decide
  | refused fd =>
    show -(2 : ℤ) ^ 31 ≤ -16 ∧ (-16 : ℤ) < 2 ^ 31
    decide

/-- A connection that is made is the first thing the exchange opens. -/
theorem fits_of_admits {d : Descriptors} {node : DataSpm} {w : World} {events : List FdEvent}
    (h : d.Admits events) (he : spmExchangeEvents node w = some events)
    (hconnects : connects node) : Connect.Fits w.connect := by
  obtain ⟨picked, hpicked, he⟩ := Option.bind_eq_some_iff.mp he
  have hpick : w.connect.events <+: picked.events := by
    obtain ⟨node', htake, htouches, hport⟩ := takeTrailer_spec node
    have hsocket : node'.mem.getInt Member.socketSpm = DataSpm.socket node :=
      socket_eq (htouches.read_eq (by decide))
    rw [connects] at hconnects
    simp only [pickUpDataSpm] at hpicked
    rw [htake, Option.bind_eq_bind, Option.bind_some, hsocket, hport, if_pos hconnects] at hpicked
    split at hpicked
    · cases hpicked
      exact List.prefix_append ..
    · obtain ⟨record, -, hpicked⟩ := Option.bind_eq_some_iff.mp hpicked
      cases hpicked
      exact List.prefix_refl _
  have hprefix : picked.events <+: events := by
    dsimp only at he
    cases hrecord : picked.record with
    | none =>
      rw [hrecord] at he
      rw [Option.some.inj he]
    | some record =>
      rw [hrecord] at he
      exact ⟨_, Option.some.inj he⟩
  obtain ⟨rest, hrest⟩ := hpick.trans hprefix
  rw [← hrest, Descriptors.admits_append] at h
  cases hc : w.connect with
  | connected fd =>
    rw [hc] at h
    exact ⟨h.1.1.1, h.1.1.2.1⟩
  | _ => trivial

/-- `Data_Coding_Spm` keeps the descriptor, or closes it. -/
theorem dataCodingSpm_socket {node node' : DataSpm} {n : ℕ} {x : SpmExchange} {k : ℤ}
    {buf : CArray n} (h : dataCodingSpm node n x = some (k, buf, node')) :
    (node' = node ∧ dataCodingSpmEvents node x = []) ∨
      (DataSpm.socket node' = -1 ∧
        dataCodingSpmEvents node x = closeSocketFdEvents node Member.socketSpm) := by
  have hclosed := socket_setInt node (v := -1) (by decide) (by decide)
  cases x with
  | sendFailed =>
    cases h
    exact .inr ⟨hclosed, rfl⟩
  | recvFailed stored =>
    obtain ⟨_, -, h⟩ := Option.bind_eq_some_iff.mp h
    cases h
    exact .inr ⟨hclosed, rfl⟩
  | reply bytes _ =>
    obtain ⟨_, -, h⟩ := Option.bind_eq_some_iff.mp h
    cases h
    exact .inl ⟨rfl, rfl⟩

/-- `PickUp_Data_Spm`: without a connection to make; with one that is not made; with one that
is made. -/
theorem pickUpDataSpm_socket {node : DataSpm} {w : World} {picked : PickedUp}
    (hfits : connects node → Connect.Fits w.connect) (h : pickUpDataSpm node w = some picked) :
    (¬ connects node ∧ picked.socketSpm = DataSpm.socket node ∧ picked.record ≠ none ∧
        picked.events = []) ∨
      (connects node ∧ connectToServerTimeOut w.connect ≤ 0 ∧ picked.socketSpm = 0 ∧
        picked.record = none ∧ picked.events = w.connect.events ++
          setSimCardsStatusEvents (node.mem.read Member.sIMSI) w.status) ∨
      (connects node ∧ 0 < connectToServerTimeOut w.connect ∧
        picked.socketSpm = connectToServerTimeOut w.connect ∧ picked.record ≠ none ∧
        picked.events = w.connect.events) := by
  obtain ⟨node', htake, htouches, hport⟩ := takeTrailer_spec node
  have hsocket : node'.mem.getInt Member.socketSpm = DataSpm.socket node :=
    socket_eq (htouches.read_eq (by decide))
  have hsIMSI : (node'.setInt Member.socketSpm (connectToServerTimeOut w.connect)).mem.read
      Member.sIMSI = node.mem.read Member.sIMSI := by
    rw [node'.read_setInt _ (by decide)]
    exact htouches.read_eq (by decide)
  simp only [pickUpDataSpm] at h
  rw [htake, Option.bind_eq_bind, Option.bind_some, hsocket, hport] at h
  by_cases hconnects : DataSpm.socket node ≤ 0 ∧ 0 < spmPort node
  · obtain ⟨hlower, hupper⟩ := connect_bounds (hfits hconnects)
    have hstored := socket_setInt node' hlower hupper
    rw [DataSpm.socket] at hstored
    rw [if_pos hconnects, hstored, hsIMSI] at h
    by_cases hfailed : connectToServerTimeOut w.connect ≤ 0
    · rw [if_pos hfailed] at h
      cases h
      exact .inr (.inl ⟨hconnects, hfailed, rfl, rfl, rfl⟩)
    · rw [if_neg hfailed] at h
      obtain ⟨record, -, h⟩ := Option.bind_eq_some_iff.mp h
      cases h
      exact .inr (.inr ⟨hconnects, Int.not_le.mp hfailed, rfl, Option.some_ne_none _, rfl⟩)
  · rw [if_neg hconnects] at h
    obtain ⟨record, -, h⟩ := Option.bind_eq_some_iff.mp h
    cases h
    exact .inl ⟨hconnects, rfl, Option.some_ne_none _, rfl⟩

/-- An exchange with the SIM pool server: where `socket_spm` and the descriptors end. -/
theorem spmExchange_socket {node node' : DataSpm} {n : ℕ} {w : World} {k : ℤ} {buf : CArray n}
    {events : List FdEvent} (hfits : connects node → Connect.Fits w.connect)
    (h : spmExchange node n w = some (k, buf, node'))
    (he : spmExchangeEvents node w = some events) :
    (¬ connects node ∧
        (DataSpm.socket node' = DataSpm.socket node ∧ events = [] ∨
          DataSpm.socket node' = -1 ∧ events = closeSocketFdEvents node Member.socketSpm)) ∨
      (connects node ∧ connectToServerTimeOut w.connect ≤ 0 ∧ DataSpm.socket node' = 0 ∧
        events = w.connect.events ++
          setSimCardsStatusEvents (node.mem.read Member.sIMSI) w.status) ∨
      (connects node ∧ ∃ fd, w.connect = .connected fd ∧ 0 < fd ∧
        (DataSpm.socket node' = fd ∧ events = [.opened fd] ∨
          DataSpm.socket node' = -1 ∧ events = [.opened fd, .closed fd])) := by
  obtain ⟨picked, hpicked, h⟩ := Option.bind_eq_some_iff.mp h
  obtain ⟨picked', hpicked', he⟩ := Option.bind_eq_some_iff.mp he
  obtain rfl : picked = picked' := Option.some.inj (hpicked.symm.trans hpicked')
  dsimp only at h he
  have hspm : ∀ {v : ℤ}, picked.record ≠ none → picked.socketSpm = v → -(2 : ℤ) ^ 31 ≤ v →
      v < (2 : ℤ) ^ 31 → ∃ closing, events = picked.events ++ closing ∧
        (DataSpm.socket node' = v ∧ closing = [] ∨
          DataSpm.socket node' = -1 ∧ closing = if 0 < v then [.closed v] else []) := by
    rintro v hrecord rfl hlower hupper
    obtain ⟨record, hrecord⟩ := Option.ne_none_iff_exists'.mp hrecord
    rw [hrecord] at h he
    have hsocket := socket_setInt picked.node hlower hupper
    refine ⟨_, (Option.some.inj he).symm, ?_⟩
    rcases dataCodingSpm_socket h with ⟨rfl, hnone⟩ | ⟨hclosed, hclose⟩
    · exact .inl ⟨hsocket, hnone⟩
    · refine .inr ⟨hclosed, hclose.trans ?_⟩
      rw [DataSpm.socket] at hsocket
      rw [closeSocketFdEvents, hsocket]
  rcases pickUpDataSpm_socket hfits hpicked with ⟨hnot, hsocket, hrecord, hevents⟩ |
    ⟨hconnects, hfailed, hsocket, hrecord, hevents⟩ |
    ⟨hconnects, hpos, hsocket, hrecord, hevents⟩
  · obtain ⟨closing, rfl, hcases⟩ :=
      hspm hrecord hsocket (socket_bounds node).1 (socket_bounds node).2
    rw [hevents, List.nil_append]
    exact .inl ⟨hnot, hcases⟩
  · rw [hrecord] at h he
    cases h
    cases he
    refine .inr (.inl ⟨hconnects, hfailed, ?_, hevents⟩)
    rw [hsocket]
    exact socket_setInt picked.node (by decide) (by decide)
  · obtain ⟨fd, hfd⟩ : ∃ fd, w.connect = .connected fd := by
      cases hconnect : w.connect with
      | connected fd => exact ⟨fd, rfl⟩
      | socketFailed =>
        rw [hconnect] at hpos
        exact absurd hpos (by decide)
      | refused fd =>
        rw [hconnect] at hpos
        exact absurd hpos (by simp [connectToServerTimeOut])
    obtain ⟨closing, rfl, hcases⟩ :=
      hspm hrecord hsocket (connect_bounds (hfits hconnects)).1
        (connect_bounds (hfits hconnects)).2
    rw [hfd] at hpos hcases hevents
    have hpos : 0 < fd := hpos
    refine .inr (.inr ⟨hconnects, fd, hfd, hpos, ?_⟩)
    rw [hevents]
    rcases hcases with ⟨hsocket', rfl⟩ | ⟨hclosed, rfl⟩
    · exact .inl ⟨hsocket', rfl⟩
    · refine .inr ⟨hclosed, ?_⟩
      show [FdEvent.opened fd] ++ (if 0 < fd then [.closed fd] else []) = _
      rw [if_pos hpos]
      rfl

/-- `Close_Socket_Fd` on a node. -/
theorem closeSocketFd_socket (node : DataSpm) :
    (0 < DataSpm.socket node ∧ DataSpm.socket (closeSocketFd node Member.socketSpm) = 0 ∧
        closeSocketFdEvents node Member.socketSpm = [.closed (DataSpm.socket node)]) ∨
      (DataSpm.socket node ≤ 0 ∧ closeSocketFd node Member.socketSpm = node ∧
        closeSocketFdEvents node Member.socketSpm = []) := by
  unfold closeSocketFd closeSocketFdEvents
  by_cases hpos : 0 < node.mem.getInt Member.socketSpm
  · rw [if_pos hpos, if_pos hpos]
    exact .inl ⟨hpos, socket_setInt node (by decide) (by decide), rfl⟩
  · rw [if_neg hpos, if_neg hpos]
    exact .inr ⟨Int.not_lt.mp hpos, rfl, rfl⟩

/-- `Coding_With_LogOut` keeps the descriptor, or closes it. -/
theorem codingWithLogOut_socket {node node' : DataSpm} {w : World}
    {frames : List (List UInt8)} {events : List FdEvent}
    (h : codingWithLogOut node w = some (node', frames))
    (he : codingWithLogOutEvents node w = some events) :
    (DataSpm.socket node' = DataSpm.socket node ∧ events = []) ∨
      (0 < DataSpm.socket node ∧ DataSpm.socket node' = 0 ∧
        events = [.closed (DataSpm.socket node)]) := by
  obtain ⟨node₁, hset, h⟩ := Option.bind_eq_some_iff.mp h
  obtain ⟨node₁', hset', he⟩ := Option.bind_eq_some_iff.mp he
  obtain rfl : node₁ = node₁' := Option.some.inj (hset.symm.trans hset')
  obtain ⟨node₁', hset', htouches⟩ :=
    setSIMSI_touches node (node.mem.length_read InBuff.logoutImsi)
  obtain rfl : node₁ = node₁' := Option.some.inj (hset.symm.trans hset')
  have hsocket : DataSpm.socket node₁ = DataSpm.socket node :=
    socket_eq (htouches.read_eq (by decide))
  dsimp only at h he
  generalize hnode₂ : (if 0 < node₁.mem.getInt Member.fd1 then node₁.setNat Member.fd1 0
    else node₁) = node₂ at h
  have hkept : ∀ f, Member.fd1.Disjoint f → node₂.mem.read f = node₁.mem.read f := by
    intro f hf
    rw [← hnode₂]
    split
    · exact node₁.read_setNat 0 hf
    · rfl
  have houttime : node₂.mem.getInt Member.outtime = node₁.mem.getInt Member.outtime := by
    rw [CArray.getInt, CArray.getNat, hkept _ (by decide)]
    rfl
  have hsocket₂ : DataSpm.socket node₂ = DataSpm.socket node :=
    (socket_eq (hkept _ (by decide))).trans hsocket
  rw [houttime] at h
  by_cases hearly : w.now - node₁.mem.getInt Member.outtime ≤ 25
  · rw [if_pos hearly] at h he
    cases h
    cases he
    exact .inl ⟨hsocket₂, rfl⟩
  · rw [if_neg hearly] at h he
    cases h
    cases he
    have hsocket₃ : DataSpm.socket (node₂.setInt Member.outtime w.now) = DataSpm.socket node :=
      (socket_eq (node₂.read_setInt _ (by decide))).trans hsocket₂
    have hevents : closeSocketFdEvents node₁ Member.socketSpm =
        closeSocketFdEvents (node₂.setInt Member.outtime w.now) Member.socketSpm := by
      have hsame := hsocket.trans hsocket₃.symm
      rw [DataSpm.socket, DataSpm.socket] at hsame
      rw [closeSocketFdEvents, closeSocketFdEvents, hsame]
    rw [hevents]
    rcases closeSocketFd_socket (node₂.setInt Member.outtime w.now) with
      ⟨hpos, hzero, hclose⟩ | ⟨-, hsame, hclose⟩
    · rw [hsocket₃] at hpos hclose
      exact .inr ⟨hpos, hzero, hclose⟩
    · rw [hsame, hclose]
      exact .inl ⟨hsocket₃, rfl⟩

/-! ## Every operation, every run -/

/-- Keeping the descriptor of a node, or closing it. -/
theorem Outgoing.Balanced.keep_or_close {s : Outgoing} (h : s.Balanced) {i : ℕ}
    {node node' : DataSpm} (hi : s.nodes[i]? = some node) {events : List FdEvent}
    (hcases : (DataSpm.socket node' = DataSpm.socket node ∧ events = []) ∨
      (0 < DataSpm.socket node ∧ DataSpm.socket node' ≤ 0 ∧
        events = [.closed (DataSpm.socket node)])) :
    (Outgoing.mk (s.nodes.set i node') (s.fds.run events)).Balanced := by
  rcases hcases with ⟨hsame, rfl⟩ | ⟨hpos, hnone, rfl⟩
  · exact h.set_same hi (by rw [hsame])
  · exact h.set_closed hi hpos hnone

/-- An exchange that has to connect and does not get a connection. -/
theorem Outgoing.Balanced.unconnected_iff {s : Outgoing} (h : s.Balanced) {i : ℕ}
    {node node' : DataSpm} (hi : s.nodes[i]? = some node) (hnode : DataSpm.socket node ≤ 0)
    (hnode' : DataSpm.socket node' = 0) {w : World}
    (hfailed : connectToServerTimeOut w.connect ≤ 0) {sIMSI : List UInt8}
    (hadmits : s.fds.Admits (w.connect.events ++ setSimCardsStatusEvents sIMSI w.status)) :
    (Outgoing.mk (s.nodes.set i node') (s.fds.run (w.connect.events ++
        setSimCardsStatusEvents sIMSI w.status))).Balanced ↔ w.ConnectsClean sIMSI := by
  rw [h.set_nonpos_iff hi hnode (by omega), Descriptors.run_append]
  obtain ⟨hconnect, hstatus⟩ := Descriptors.admits_append.mp hadmits
  obtain ⟨hsame, hwrong, hsubset⟩ := run_status hstatus
  -- a descriptor of a connection that was not made stays open
  have hleak : ∀ fd, w.connect.events = [.opened fd] →
      ¬ ((s.fds.run w.connect.events).run (setSimCardsStatusEvents sIMSI w.status)).isOpen =
        s.fds.isOpen := by
    intro fd hevents hsame
    rw [hevents] at hconnect hsubset hsame
    have hin := hsubset (Finset.mem_insert_self fd s.fds.isOpen)
    rw [hsame] at hin
    exact hconnect.1.2.2 hin
  rw [hwrong]
  unfold World.ConnectsClean
  cases hc : w.connect with
  | socketFailed =>
    rw [hc] at hsame
    exact (and_iff_left h.wrong).trans hsame
  | refused fd =>
    have hopen := hleak fd (by rw [hc]; rfl)
    rw [hc] at hopen
    exact iff_false_intro fun hb => hopen hb.1
  | connected fd =>
    have hopen := hleak fd (by rw [hc]; rfl)
    rw [hc] at hopen hfailed
    have hfailed : fd ≤ 0 := hfailed
    exact iff_of_false (fun hb => hopen hb.1) (Int.not_lt.mpr hfailed)

theorem Outgoing.Balanced.spmExchange_iff {s : Outgoing} (h : s.Balanced) {i n : ℕ}
    {w : World} {node node' : DataSpm} (hi : s.nodes[i]? = some node) {k : ℤ} {buf : CArray n}
    {events : List FdEvent} (hrun : spmExchange node n w = some (k, buf, node'))
    (hevents : spmExchangeEvents node w = some events) (hadmits : s.fds.Admits events) :
    (Outgoing.mk (s.nodes.set i node') (s.fds.run events)).Balanced ↔
      (Operation.spmExchange i n w).Clean s.nodes := by
  have hclean : (Operation.spmExchange i n w).Clean s.nodes ↔
      (connects node → w.ConnectsClean (node.mem.read Member.sIMSI)) := by
    constructor
    · exact fun hall => hall node hi
    · intro hone other hother
      rw [hi] at hother
      cases hother
      exact hone
  rw [hclean]
  rcases spmExchange_socket (fits_of_admits hadmits hevents) hrun hevents with ⟨hnot, hcases⟩ |
    ⟨hconnects, hfailed, hnode', rfl⟩ | ⟨hconnects, fd, hfd, hpos, hcases⟩
  · refine iff_of_true ?_ fun hconnects => absurd hconnects hnot
    rcases hcases with hkeep | ⟨hclosed, rfl⟩
    · exact h.keep_or_close hi (.inl hkeep)
    · rcases closeSocketFd_socket node with ⟨hpos, -, hclose⟩ | ⟨hnone, -, hclose⟩
      · rw [hclose]
        exact h.keep_or_close hi (.inr ⟨hpos, by omega, rfl⟩)
      · rw [hclose]
        exact h.set_same hi (by rw [heldBy_of_nonpos hnone, heldBy_of_nonpos (by omega)])
  · rw [h.unconnected_iff hi hconnects.1 hnode' hfailed hadmits]
    exact ⟨fun hclean _ => hclean, fun himp => himp hconnects⟩
  · refine iff_of_true ?_ fun _ => by rw [World.ConnectsClean, hfd]; exact hpos
    rcases hcases with ⟨hopened, rfl⟩ | ⟨hclosed, rfl⟩
    · subst hopened
      exact h.set_opened hi hconnects.1 hpos hadmits.1.2.2
    · rw [Descriptors.run_opened_closed ⟨hadmits.1, trivial⟩]
      exact h.set_same hi
        (by rw [heldBy_of_nonpos hconnects.1, heldBy_of_nonpos (by omega)])

/-- An operation keeps the balance exactly if it drops no descriptor. -/
theorem Outgoing.Balanced.step_iff {s s' : Outgoing} {op : Operation} (h : s.Balanced)
    (hstep : s.Step op s') : s'.Balanced ↔ op.Clean s.nodes := by
  obtain ⟨events, heffect, hadmits, hfds⟩ := hstep
  obtain ⟨nodes', fds'⟩ := s'
  dsimp only at heffect hfds
  subst hfds
  cases op with
  | sendSimData calls =>
    cases heffect
    obtain ⟨hsame, hwrong, -⟩ := run_simPool hadmits
    refine Iff.trans ⟨fun hb => ?_, fun hopen => ?_⟩ hsame
    · exact hb.isOpen.trans h.isOpen.symm
    · exact ⟨h.nodup, hopen.trans h.isOpen, hwrong.trans h.wrong⟩
  | spmExchange i n w =>
    obtain ⟨node, hi, heffect⟩ := Option.bind_eq_some_iff.mp heffect
    obtain ⟨⟨k, buf, node'⟩, hrun, heffect⟩ := Option.bind_eq_some_iff.mp heffect
    obtain ⟨events', hevents, heffect⟩ := Option.bind_eq_some_iff.mp heffect
    cases heffect
    exact h.spmExchange_iff hi hrun hevents hadmits
  | closeSocketFd i =>
    obtain ⟨node, hi, heffect⟩ := Option.bind_eq_some_iff.mp heffect
    cases heffect
    refine iff_of_true (h.keep_or_close hi ?_) trivial
    rcases closeSocketFd_socket node with ⟨hpos, hzero, hclose⟩ | ⟨-, hsame, hclose⟩
    · exact .inr ⟨hpos, Int.le_of_eq hzero, hclose⟩
    · rw [hsame, hclose]
      exact .inl ⟨rfl, rfl⟩
  | logOut i w =>
    obtain ⟨node, hi, heffect⟩ := Option.bind_eq_some_iff.mp heffect
    obtain ⟨⟨node', frames⟩, hrun, heffect⟩ := Option.bind_eq_some_iff.mp heffect
    obtain ⟨events', hevents, heffect⟩ := Option.bind_eq_some_iff.mp heffect
    cases heffect
    refine iff_of_true (h.keep_or_close hi ?_) trivial
    rcases codingWithLogOut_socket hrun hevents with hkeep | ⟨hpos, hzero, hclose⟩
    · exact .inl hkeep
    · exact .inr ⟨hpos, Int.le_of_eq hzero, hclose⟩
  | store i node' =>
    obtain ⟨node, hi, heffect⟩ := Option.bind_eq_some_iff.mp heffect
    split at heffect
    · rename_i hsame
      cases heffect
      exact iff_of_true (h.keep_or_close hi (.inl ⟨hsame, rfl⟩)) trivial
    · cases heffect
  | add node =>
    simp only [Operation.effect] at heffect
    split at heffect
    · rename_i hnone
      cases heffect
      refine iff_of_true ?_ trivial
      have hheld : held (s.nodes ++ [node]) = held s.nodes := by
        rw [held, List.map_append, List.filter_append]
        show held s.nodes ++ heldBy (DataSpm.socket node) = held s.nodes
        rw [heldBy_of_nonpos hnone, List.append_nil]
      refine ⟨?_, ?_, h.wrong⟩
      · rw [hheld]
        exact h.nodup
      · rw [hheld]
        exact h.isOpen
    · cases heffect

/-- After every operation of a run the open descriptors are just the positive `socket_spm`,
each held by one node, and nothing was closed that was not open, exactly if no operation of
the run drops a descriptor it got from `socket`. -/
theorem balanced_iff_clean (s : Outgoing) (run : List (Operation × Outgoing))
    (hs : s.Balanced) (hrun : s.Trace run) :
    (∀ p ∈ run, p.2.Balanced) ↔ s.Clean run := by
  induction run generalizing s with
  | nil => exact iff_of_true (fun _ hp => absurd hp List.not_mem_nil) trivial
  | cons p rest ih =>
    obtain ⟨op, s'⟩ := p
    obtain ⟨hstep, hrest⟩ := hrun
    rw [List.forall_mem_cons]
    show s'.Balanced ∧ _ ↔ op.Clean s.nodes ∧ s'.Clean rest
    rw [← hs.step_iff hstep]
    exact and_congr_right fun hs' => ih s' hs' hrest

/-- A node that knows the port of its SIM pool server. -/
def withPort : DataSpm := initDataSpm.setNat Member.port 8000

/-- No node and no descriptor. -/
def Outgoing.empty : Outgoing := ⟨[], ⟨∅, []⟩⟩

theorem Outgoing.balanced_empty : Outgoing.empty.Balanced := ⟨List.nodup_nil, rfl, rfl⟩

/-- A node is added, connects, and its connection is closed. -/
theorem balanced_iff_clean_connection :
    ∃ s₁ s₂ s₃ : Outgoing, ∃ w : World,
      Outgoing.empty.Trace [(.add withPort, s₁), (.spmExchange 0 520 w, s₂),
        (.closeSocketFd 0, s₃)] ∧
      s₂.fds.isOpen = {7} ∧ s₁.Balanced ∧ s₂.Balanced ∧ s₃.Balanced := by
  let w : World := { World.silent with connect := .connected 7, spm := .reply [1] (by simp) }
  let s₁ : Outgoing := ⟨[withPort], ⟨∅, []⟩⟩
  let s₂ : Outgoing := ⟨[withPort.setInt Member.socketSpm 7], ⟨{7}, []⟩⟩
  let s₃ : Outgoing := ⟨[withPort.setInt Member.socketSpm 0], ⟨∅, []⟩⟩
  have htrace : Outgoing.empty.Trace [(.add withPort, s₁), (.spmExchange 0 520 w, s₂),
      (.closeSocketFd 0, s₃)] := by
    refine ⟨⟨[], ?_, ?_, ?_⟩, ⟨[.opened 7], ?_, ?_, ?_⟩, ⟨[.closed 7], ?_, ?_, ?_⟩, trivial⟩ <;>
      decide +kernel
  have hclean : Outgoing.empty.Clean [(.add withPort, s₁), (.spmExchange 0 520 w, s₂),
      (.closeSocketFd 0, s₃)] := by
    refine ⟨trivial, fun _ _ _ => ?_, trivial, trivial⟩
    show (0 : ℤ) < 7
    decide
  have hbalanced := (balanced_iff_clean _ _ Outgoing.balanced_empty htrace).mpr hclean
  obtain ⟨h₁, hrest⟩ := List.forall_mem_cons.mp hbalanced
  obtain ⟨h₂, hrest⟩ := List.forall_mem_cons.mp hrest
  exact ⟨s₁, s₂, s₃, w, htrace, rfl, h₁, h₂, (List.forall_mem_cons.mp hrest).1⟩

/-- The backend refuses a connection: the descriptor stays open and no node holds it. -/
theorem refused_connection_leaks :
    ∃ s : Outgoing, Outgoing.empty.Balanced ∧
      Outgoing.empty.Step (.sendSimData ⟨.refused 5, 0⟩) s ∧ s.fds.isOpen = {5} ∧
      held s.nodes = [] ∧ ¬ s.Balanced := by
  refine ⟨⟨[], ⟨{5}, []⟩⟩, Outgoing.balanced_empty, ⟨[.opened 5], ?_, ?_, ?_⟩, rfl, rfl, ?_⟩
  · decide +kernel
  · decide +kernel
  · decide +kernel
  · intro hbalanced
    exact absurd hbalanced.isOpen (by decide)

end Tdm.Device
