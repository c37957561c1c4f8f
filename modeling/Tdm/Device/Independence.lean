import Tdm.Device.Rekey
import Tdm.Lib.Keyed

/-!
# Devices do not disturb each other

All devices share one registry and the search through it, and `Coding_With_CMD_Data_Pool` handles
their messages in the order in which they come. For each device the registry is nevertheless a store
with one entry, which only the messages with its serial number change: `serveDevice` says what such a
message does, without the registry. The order of messages of different devices makes no difference.

This needs messages that leave the key of their node alone (`Message.Keeps`); the others are those
of `keys_kept_iff`.
-/

namespace Tdm.Device

open Tdm.Lib Tdm.Common

/-- A call of `Coding_With_CMD_Data_Pool`, and what the calls it makes answer. -/
structure Message where
  cmd : Cmd
  para : NodeData
  world : World

/-- The key the message is looked up by. -/
def Message.key (m : Message) : List UInt8 := m.para.snArg.key

/-- The handler leaves the key of the node as it is. -/
def Message.Keeps (m : Message) : Prop := keyAfter m.cmd m.para m.world m.key = m.key

/-! ## One device -/

/-- The node of the device with the key given. -/
def device (r : Registry) (key : List UInt8) : Option DataSpm :=
  r.nodes.find? fun node => node.key = key

/-- The message is handled for a node. -/
def serveNode (node : DataSpm) (m : Message) : Option (Option DataSpm × List Write) :=
  (codingWithDate (receive (closeSocketFd node Member.socketSpm) m.para) m.cmd m.world).map
    fun x => (some x.1, x.2.map fun frame => ⟨m.para.fd, frame⟩)

/-- What a message does to the node of its device, if there is one, and what is written to the
device. -/
def serveDevice (entry : Option DataSpm) (m : Message) :
    Option (Option DataSpm × List Write) :=
  if isValidSN m.para.snArg.bytes then
    match entry with
    | some node => serveNode node m
    | none =>
      if m.world.malloc then serveNode (initDataSpm.copySN m.para.snArg) m else some (none, [])
  else some (entry, [])

/-- The registry as a store of devices. -/
def devices : KeyedStore Registry Message (List UInt8) (Option DataSpm) Write where
  step r m := codingWithCMDDataPool r m.cmd m.para m.world
  key := Message.key
  view := device
  serve := serveDevice

/-! ## The node of a key -/

section Nodes

variable {r r' : Registry} {node : DataSpm} {key : List UInt8} {i : ℕ}

theorem device_eq_some_iff (h : r.Sound) :
    device r key = some node ↔ ∃ i : ℕ, r.nodes[i]? = some node ∧ node.key = key := by
  constructor
  · intro hfind
    obtain ⟨i, hi⟩ := List.mem_iff_getElem?.mp (List.mem_of_find?_eq_some hfind)
    exact ⟨i, hi, by simpa using List.find?_some hfind⟩
  · rintro ⟨i, hi, rfl⟩
    have hsome : (device r node.key).isSome :=
      List.find?_isSome.mpr ⟨node, List.mem_of_getElem? hi, by simp⟩
    obtain ⟨node', hfind⟩ := Option.isSome_iff_exists.mp hsome
    obtain ⟨j, hj⟩ := List.mem_iff_getElem?.mp (List.mem_of_find?_eq_some hfind)
    have hkey : node'.key = node.key := by simpa using List.find?_some hfind
    have heq : i = j := h.index_unique (by rw [r.getElem?_keys, hi]; rfl)
      (by rw [r.getElem?_keys, hj, ← hkey]; rfl)
    rw [hfind, ← hi, heq, hj]

theorem device_eq_none_iff : device r key = none ↔ key ∉ r.keys := by
  unfold device Registry.keys
  rw [List.find?_eq_none, List.mem_map]
  simp only [decide_eq_true_eq, not_exists, not_and]

/-- The node at `i` is replaced by one with its key. -/
theorem device_modify (h : r.Sound) {f : DataSpm → DataSpm} (h' : (r.modify i f).Sound)
    (hi : r.nodes[i]? = some node) (hkey : (f node).key = node.key) :
    device (r.modify i f) key = if key = node.key then some (f node) else device r key := by
  have hself : (r.modify i f).nodes[i]? = some (f node) := by
    show (r.nodes.modify i f)[i]? = _
    rw [List.getElem?_modify_eq, hi]
    rfl
  by_cases hk : key = node.key
  · rw [if_pos hk, device_eq_some_iff h']
    exact ⟨i, hself, by rw [hkey, hk]⟩
  · rw [if_neg hk]
    ext other
    rw [device_eq_some_iff h', device_eq_some_iff h]
    refine exists_congr fun j => ?_
    by_cases hj : i = j
    · subst hj
      rw [hself, hi]
      refine iff_of_false ?_ ?_
      · rintro ⟨heq, rfl⟩
        injection heq with heq
        exact hk (heq ▸ hkey)
      · rintro ⟨heq, rfl⟩
        injection heq with heq
        exact hk (heq ▸ rfl)
    · have hsame : (r.modify i f).nodes[j]? = r.nodes[j]? := by
        simp [Registry.modify, hj]
      rw [hsame]

/-- A sound registry stays sound when a node is replaced by one with its key. -/
theorem sound_replace (h : r.Sound) {node' : DataSpm} (hi : r.nodes[i]? = some node)
    (hkey : node'.key = node.key) : (r.modify i fun _ => node').Sound where
  ring := by
    have hlen : (r.modify i fun _ => node').nodes.length = r.nodes.length := List.length_modify ..
    rw [hlen]
    exact h.ring
  distinct := by
    have hget : r.keys[i]? = some node'.key := by rw [r.getElem?_keys, hi, hkey]; rfl
    obtain ⟨hlt, hget⟩ := List.getElem?_eq_some_iff.mp hget
    rw [keys_replace, ← hget, List.set_getElem_self]
    exact h.distinct

/-- A node is added. -/
theorem device_append (hnew : node.key ∉ r.keys) :
    device (r.append node) key = if key = node.key then some node else device r key := by
  show (r.nodes ++ [node]).find? _ = _
  rw [List.find?_append]
  by_cases hk : key = node.key
  · rw [if_pos hk, show r.nodes.find? _ = none from device_eq_none_iff.mpr (hk ▸ hnew)]
    simp [hk]
  · rw [if_neg hk]
    have hlast : [node].find? (fun node => node.key = key) = none := by simp [Ne.symm hk]
    rw [hlast, Option.or_none]
    rfl

end Nodes

/-! ## One message -/

section Step

variable {r : Registry} {m : Message}

/-- The message is looked up, and the node it gets is the one its device had or a new one. -/
theorem getNode_device (h : r.Sound) (hvalid : isValidSN m.para.snArg.bytes = true) :
    (∃ i r₁ node, getNodeBySN r m.para.snArg m.world.malloc = some (some i, r₁) ∧ r₁.Sound ∧
        r₁.nodes[i]? = some (closeSocketFd node Member.socketSpm) ∧ node.key = m.key ∧
        (device r m.key = some node ∨ device r m.key = none ∧ m.world.malloc = true ∧
          node = initDataSpm.copySN m.para.snArg) ∧
        ∀ key, key ≠ m.key → device r₁ key = device r key) ∨
      (getNodeBySN r m.para.snArg m.world.malloc = some (none, r) ∧ device r m.key = none ∧
        m.world.malloc = false) := by
  -- closing the socket of the node that was obtained
  have hclose : ∀ {r₀ : Registry} {i : ℕ} {node : DataSpm}, r₀.Sound → r₀.nodes[i]? = some node →
      node.key = m.key →
      (getNodeUnlocked r₀ (some i)).Sound ∧
        (getNodeUnlocked r₀ (some i)).nodes[i]? = some (closeSocketFd node Member.socketSpm) ∧
        ∀ key, key ≠ m.key → device (getNodeUnlocked r₀ (some i)) key = device r₀ key := by
    intro r₀ i node h₀ hi hkey
    have hsound : (getNodeUnlocked r₀ (some i)).Sound := h₀.modify i key_closeSocketSpm
    refine ⟨hsound, ?_, fun key hk => ?_⟩
    · show (r₀.nodes.modify i _)[i]? = _
      rw [List.getElem?_modify_eq, hi]
      rfl
    · refine (device_modify h₀ hsound hi (key_closeSocketSpm node)).trans (if_neg ?_)
      rw [hkey]
      exact hk
  have hget : ∀ {found : Option ℕ} {r₀ : Registry},
      findOrAdd r m.para.snArg initDataSpm m.world.malloc = some (found, r₀) →
      getNodeBySN r m.para.snArg m.world.malloc = some (found, getNodeUnlocked r₀ found) := by
    intro found r₀ hfound
    simp [getNodeBySN, hvalid, getNodeLocked, hfound]
  rcases findOrAdd_cases h m.para.snArg initDataSpm m.world.malloc with ⟨i, hi, hfound⟩ |
    ⟨hnew, hfound⟩
  · obtain ⟨node, hnode, hkey⟩ := Option.map_eq_some_iff.mp ((r.getElem?_keys i).symm.trans hi)
    obtain ⟨hsound, hself, hothers⟩ := hclose h hnode hkey
    exact .inl ⟨i, _, node, hget hfound, hsound, hself, hkey,
      .inl ((device_eq_some_iff h).mpr ⟨i, hnode, hkey⟩), hothers⟩
  · have hnone : device r m.key = none := device_eq_none_iff.mpr hnew
    by_cases hmalloc : m.world.malloc = true
    · rw [if_pos hmalloc] at hfound
      have hkey : (initDataSpm.copySN m.para.snArg).key = m.key := initDataSpm.key_copySN _
      have hadded : (r.append (initDataSpm.copySN m.para.snArg)).Sound := h.append (hkey ▸ hnew)
      have hlast : (r.append (initDataSpm.copySN m.para.snArg)).nodes[r.nodes.length]? =
          some (initDataSpm.copySN m.para.snArg) := List.getElem?_concat_length ..
      obtain ⟨hsound, hself, hothers⟩ := hclose hadded hlast hkey
      refine .inl ⟨_, _, _, hget hfound, hsound, hself, hkey, .inr ⟨hnone, hmalloc, rfl⟩, ?_⟩
      intro key hk
      rw [hothers key hk, device_append (hkey ▸ hnew), if_neg (hkey ▸ hk)]
    · rw [if_neg hmalloc] at hfound
      exact .inr ⟨hget hfound, hnone, Bool.eq_false_iff.mpr hmalloc⟩

end Step

/-! ## Any handler -/

section Pool

variable {ω : Type} (handle : DataSpm → Message → Option (DataSpm × List ω))

/-- `Coding_With_CMD_Data_Pool` with a handler that puts out `ω`. -/
def poolStep (r : Registry) (m : Message) : Option (Registry × List ω) := do
  let (found, r) ← getNodeBySN r m.para.snArg m.world.malloc
  match found with
  | none => return (r, [])
  | some i =>
    let (node, out) ← handle (receive (← r.nodes[i]?) m.para) m
    return (r.modify i fun _ => node, out)

/-- The message is handled for a node. -/
def poolNode (node : DataSpm) (m : Message) : Option (Option DataSpm × List ω) :=
  (handle (receive (closeSocketFd node Member.socketSpm) m.para) m).map fun x => (some x.1, x.2)

/-- What a message does to the node of its device, if there is one. -/
def poolServe (entry : Option DataSpm) (m : Message) : Option (Option DataSpm × List ω) :=
  if isValidSN m.para.snArg.bytes then
    match entry with
    | some node => poolNode handle node m
    | none =>
      if m.world.malloc then poolNode handle (initDataSpm.copySN m.para.snArg) m
      else some (none, [])
  else some (entry, [])

/-- The registry as a store of devices. -/
def poolStore : KeyedStore Registry Message (List UInt8) (Option DataSpm) ω where
  step := poolStep handle
  key := Message.key
  view := device
  serve := poolServe handle

variable {handle} {r r' : Registry} {m : Message} {out : List ω}

/-- A message that gets no node changes nothing. -/
theorem step_of_nothing (h : poolStep handle r m = some (r, []))
    (hserve : poolServe handle (device r m.key) m = some (device r m.key, [])) (hr : r.Sound) :
    poolServe handle (device r m.key) m =
        (poolStep handle r m).map (fun x => (device x.1 m.key, x.2)) ∧
      ∀ r' out, poolStep handle r m = some (r', out) →
        r'.Sound ∧ ∀ key, key ≠ m.key → device r' key = device r key := by
  rw [h, hserve]
  refine ⟨rfl, fun r' out heq => ?_⟩
  cases heq
  exact ⟨hr, fun _ _ => rfl⟩

/-- A message whose handler keeps the key changes the node of its device as `poolServe` says, and no
other node. -/
theorem step_device (hr : r.Sound) (hkeeps : ∀ node x, node.key = m.key →
      handle (receive node m.para) m = some x → x.1.key = m.key) :
    poolServe handle (device r m.key) m =
        (poolStep handle r m).map (fun x => (device x.1 m.key, x.2)) ∧
      ∀ r' out, poolStep handle r m = some (r', out) →
        r'.Sound ∧ ∀ key, key ≠ m.key → device r' key = device r key := by
  by_cases hvalid : isValidSN m.para.snArg.bytes = true
  · rcases getNode_device hr hvalid with
      ⟨i, r₁, node, hget, hr₁, hi, hkey, hentry, hothers⟩ | ⟨hget, hnone, hmalloc⟩
    · have hserve : poolServe handle (device r m.key) m = poolNode handle node m := by
        unfold poolServe
        rw [if_pos hvalid]
        rcases hentry with hsome | ⟨hnone, hmalloc, rfl⟩
        · rw [hsome]
        · rw [hnone]
          exact if_pos hmalloc
      rw [hserve, poolNode, poolStep, hget]
      simp only [Option.bind_eq_bind, Option.bind_some, hi]
      -- what the handler leaves has the key of the message
      cases hrun : handle (receive (closeSocketFd node Member.socketSpm) m.para) m with
      | none => exact ⟨rfl, fun _ _ h => by cases h⟩
      | some x =>
        have hnew : (closeSocketFd node Member.socketSpm).key = m.key :=
          (key_closeSocketSpm node).trans hkey
        have hafter : x.1.key = (closeSocketFd node Member.socketSpm).key :=
          (hkeeps _ x hnew hrun).trans hnew.symm
        have hsound := sound_replace hr₁ hi hafter
        simp only [Option.bind_some, Option.map_some, Option.pure_def, Option.some.injEq,
          Prod.mk.injEq, and_true]
        refine ⟨?_, ?_⟩
        · rw [device_modify hr₁ hsound hi hafter, if_pos hnew.symm]
        · rintro r' out ⟨rfl, rfl⟩
          refine ⟨hsound, fun key hk => ?_⟩
          rw [device_modify hr₁ hsound hi hafter, if_neg (hnew ▸ hk), hothers key hk]
    · refine step_of_nothing ?_ ?_ hr
      · rw [poolStep, hget]
        rfl
      · unfold poolServe
        rw [if_pos hvalid, hnone]
        exact if_neg (by rw [hmalloc]; decide)
  · refine step_of_nothing ?_ ?_ hr
    · rw [poolStep, getNodeBySN, if_neg hvalid]
      rfl
    · unfold poolServe
      exact if_neg hvalid

/-- With a handler that keeps the key, the registry is a store that keeps its devices apart. -/
theorem poolStore_apart (hkeeps : ∀ node m x, m.Keeps → node.key = m.key →
      handle (receive node m.para) m = some x → x.1.key = m.key) :
    (poolStore handle).Apart Registry.Sound Message.Keeps where
  serve _ m hr hm := (step_device hr fun node x => hkeeps node m x hm).1
  good _ m r' out hr hm h := ((step_device hr fun node x => hkeeps node m x hm).2 r' out h).1
  others _ m r' out hr hm h := ((step_device hr fun node x => hkeeps node m x hm).2 r' out h).2

end Pool

/-- The handler that writes to the device. -/
def handleWrites (node : DataSpm) (m : Message) : Option (DataSpm × List Write) :=
  (codingWithDate node m.cmd m.world).map
    fun x => (x.1, x.2.map fun frame => ⟨m.para.fd, frame⟩)

theorem devices_eq : devices = poolStore handleWrites := by
  have hstep : devices.step = poolStep handleWrites := by
    funext r m
    show codingWithCMDDataPool r m.cmd m.para m.world = _
    unfold codingWithCMDDataPool poolStep handleWrites
    apply Option.bind_congr
    rintro ⟨found, r₁⟩ _
    cases found with
    | none => rfl
    | some i =>
      apply Option.bind_congr
      intro node _
      simp only [Option.bind_eq_bind, Option.bind_map]
      rfl
  have hserve : devices.serve = poolServe handleWrites := by
    funext entry m
    have hnode (node : DataSpm) : serveNode node m = poolNode handleWrites node m := by
      unfold serveNode poolNode handleWrites
      rw [Option.map_map]
      rfl
    show serveDevice entry m = _
    unfold serveDevice poolServe
    cases entry <;> simp only [hnode]
  show KeyedStore.mk devices.step _ _ devices.serve = _
  rw [hstep, hserve]
  rfl

/-- The registry is a store that keeps its devices apart. -/
theorem devices_apart : devices.Apart Registry.Sound Message.Keeps := by
  rw [devices_eq]
  refine poolStore_apart fun node m x hm hkey hrun => ?_
  obtain ⟨⟨node', frames⟩, hdate, rfl⟩ := Option.map_eq_some_iff.mp hrun
  show node'.key = m.key
  rw [(codingWithDate_identity hdate).1, hkey]
  exact hm

/-- For messages that keep their key, in any number and order: what becomes of the node of a device
and what is written to it is what the messages of this device alone would have done, and any other
interleaving that keeps the messages of each device in their order has the same result. -/
theorem devices_independent (r : Registry) (hr : r.Sound) (ms : List Message)
    (hms : ∀ m ∈ ms, m.Keeps) (r' : Registry) (out : List (List UInt8 × Write))
    (hrun : devices.run r ms = some (r', out)) :
    (∀ key, devices.serveAll (device r key) (devices.messages key ms) =
      some (device r' key, own key out)) ∧
    ∀ ms', (∀ key, devices.messages key ms' = devices.messages key ms) →
      ∃ r'' out', devices.run r ms' = some (r'', out') ∧
        ∀ key, device r'' key = device r' key ∧ own key out' = own key out :=
  ⟨fun key => devices_apart.project hr hms hrun key,
    fun _ hsame => devices_apart.interleave hr hms hsame hrun⟩

/-- A request for a VPN profile with the serial number given. -/
def vpnRequest (sn : List UInt8) (hsn : sn.length ≤ 16) (fd : ℤ) : Message where
  cmd := .vpnProfileRqst
  para := ⟨0xA9, fd, 15, (CArray.zero 16).overlay sn hsn, .zero 12, .zero 256⟩
  world := .silent

/-- Requests of two devices in both orders. -/
theorem devices_independent_two :
    let a := vpnRequest (text "172150210000937") (by decide) 9
    let b := vpnRequest (text "860172008100123") (by decide) 11
    ∃ r out r' out', devices.run connectToMysqlInit [a, b] = some (r, out) ∧
      devices.run connectToMysqlInit [b, a] = some (r', out') ∧
      device r' a.key = device r a.key ∧ (device r a.key).isSome = true ∧
      own a.key out' = own a.key out ∧ (own a.key out).length = 1 := by
  intro a b
  have heval : (devices.run connectToMysqlInit [a, b]).map (fun x =>
      ((device x.1 a.key).isSome, (own a.key x.2).length)) = some (true, 1) := by decide +kernel
  obtain ⟨⟨r, out⟩, hrun, heq⟩ := Option.map_eq_some_iff.mp heval
  obtain ⟨hdevice, hout⟩ := Prod.mk.inj heq
  have hkeeps : ∀ m ∈ [a, b], m.Keeps := by
    intro m hm
    simp only [List.mem_cons, List.not_mem_nil, or_false] at hm
    rcases hm with rfl | rfl <;> rfl
  have hsame := fun key => devices.messages_swap (a := a) (b := b) (by decide) key
  obtain ⟨r', out', hrun', hall⟩ := (devices_independent connectToMysqlInit
    sound_connectToMysqlInit [a, b] hkeeps r out hrun).2 [b, a] hsame
  exact ⟨r, out, r', out', hrun, hrun', (hall a.key).1, hdevice, (hall a.key).2, hout⟩

end Tdm.Device
