import Tdm.Common.Registry

/-!
# The registry is a unique-key store

`Registry.Sound` is the invariant: the circular list visits all nodes in the order of
allocation and their keys are distinct. `Obtained` says once what looking a serial number
up or adding it can do; both callers and the machine are reduced to it.
-/

namespace Tdm.Common

open Tdm.Lib

/-- The list holds every node once and no two nodes have the same key. -/
structure Registry.Sound (r : Registry) : Prop where
  ring : CircularList r.next r.prev (List.range r.nodes.length)
  distinct : r.keys.Nodup

/-- The registry with one node more. -/
def Registry.append (r : Registry) (node : DataSpm) : Registry where
  next := addTailNext r.next r.prev r.nodes.length
  prev := addTailPrev r.prev r.nodes.length
  nodes := r.nodes ++ [node]

/-! ## Single operations -/

theorem sound_connectToMysqlInit : connectToMysqlInit.Sound where
  ring := CircularList.nil rfl rfl
  distinct := List.nodup_nil

namespace Registry

theorem getElem?_keys (r : Registry) (i : ℕ) : r.keys[i]? = r.nodes[i]?.map DataSpm.key :=
  List.getElem?_map ..

theorem length_keys (r : Registry) : r.keys.length = r.nodes.length := List.length_map ..

/-- A change that keeps the key of the node it is made to keeps all keys. -/
theorem keys_modify (r : Registry) (i : ℕ) {f : DataSpm → DataSpm}
    (hf : ∀ node, (f node).key = node.key) : (r.modify i f).keys = r.keys := by
  apply List.ext_getElem?
  intro j
  rw [getElem?_keys, getElem?_keys]
  simp only [modify, List.getElem?_modify, Option.map_eq_map, Option.map_map]
  congr 1
  funext node
  show (if i = j then f node else node).key = node.key
  split
  · exact hf node
  · rfl

theorem Sound.modify {r : Registry} (h : r.Sound) (i : ℕ) {f : DataSpm → DataSpm}
    (hf : ∀ node, (f node).key = node.key) : (r.modify i f).Sound where
  ring := by
    have hlen : (r.modify i f).nodes.length = r.nodes.length := List.length_modify ..
    rw [hlen]
    exact h.ring
  distinct := by
    rw [keys_modify r i hf]
    exact h.distinct

theorem keys_onNode (r : Registry) (node : Option ℕ) {f : DataSpm → DataSpm}
    (hf : ∀ node, (f node).key = node.key) : (r.onNode node f).keys = r.keys := by
  cases node with
  | none => rfl
  | some i => exact r.keys_modify i hf

theorem Sound.onNode {r : Registry} (h : r.Sound) (node : Option ℕ) {f : DataSpm → DataSpm}
    (hf : ∀ node, (f node).key = node.key) : (r.onNode node f).Sound := by
  cases node with
  | none => exact h
  | some i => exact h.modify i hf

theorem keys_append (r : Registry) (node : DataSpm) :
    (r.append node).keys = r.keys ++ [node.key] := List.map_append ..

theorem Sound.append {r : Registry} (h : r.Sound) {node : DataSpm} (hnew : node.key ∉ r.keys) :
    (r.append node).Sound where
  ring := by
    have hlen : (r.append node).nodes.length = r.nodes.length + 1 := List.length_append ..
    rw [hlen, List.range_succ]
    apply h.ring.addTail
    simp
  distinct := by
    rw [keys_append, List.nodup_append]
    refine ⟨h.distinct, List.nodup_singleton _, ?_⟩
    intro k hk k' hk' heq
    rw [List.mem_singleton] at hk'
    rw [heq, hk'] at hk
    exact hnew hk

/-- The anchor's predecessor is the anchor or a node. -/
theorem Sound.live_prev {r : Registry} (h : r.Sound) : r.live (r.prev .anchor) = true := by
  rw [h.ring.prev_anchor]
  cases hn : r.nodes.length with
  | zero => rfl
  | succ n =>
    rw [List.range_succ, endOf_append_singleton]
    simp [live, hn]

end Registry

/-- Two places of a sound registry with one key are the same place. -/
theorem Registry.Sound.index_unique {r : Registry} (h : r.Sound) {i j : ℕ} {key : List UInt8}
    (hi : r.keys[i]? = some key) (hj : r.keys[j]? = some key) : i = j := by
  obtain ⟨hlt, hi'⟩ := List.getElem?_eq_some_iff.mp hi
  obtain ⟨hlt', hj'⟩ := List.getElem?_eq_some_iff.mp hj
  exact (h.distinct.getElem_inj_iff).mp (hi'.trans hj'.symm)

/-! ## Looking up and adding -/

/-- In a sound registry the walk of `get_data_list_by_SN` ends, at the node with the key or,
when there is none, at the anchor. -/
theorem getDataListBySN_spec {r : Registry} (h : r.Sound) (key : List UInt8) :
    (∃ i, getDataListBySN r key = some (some i) ∧ r.keys[i]? = some key) ∨
      (getDataListBySN r key = some none ∧ key ∉ r.keys) := by
  have hwalk : getDataListBySN r key =
      some ((List.range r.nodes.length).find? fun i => r.keys[i]? == some key) := by
    apply h.ring.forward.search_eq
    · intro i hi
      have hlt : i < r.nodes.length := List.mem_range.mp hi
      rw [r.getElem?_keys, List.getElem?_eq_getElem hlt]
      simp
    · rw [List.length_range]
      omega
  rw [hwalk]
  cases hfind : (List.range r.nodes.length).find? fun i => r.keys[i]? == some key with
  | some i =>
    have hkey := List.find?_some hfind
    exact .inl ⟨i, rfl, by simpa using hkey⟩
  | none =>
    refine .inr ⟨rfl, ?_⟩
    intro hmem
    obtain ⟨i, hlt, hi⟩ := List.getElem_of_mem hmem
    have hno := List.find?_eq_none.mp hfind i (by rw [← r.length_keys]; simpa using hlt)
    rw [List.getElem?_eq_getElem hlt, hi] at hno
    simp at hno

/-- What looking `sn` up, or adding it, can do to a registry. -/
inductive Obtained (r : Registry) (sn : SnArg) (malloc : Bool) : Option ℕ → Registry → Prop
  | found {i : ℕ} (hi : r.keys[i]? = some sn.key) : Obtained r sn malloc (some i) r
  | added {node : DataSpm} (hnew : sn.key ∉ r.keys) (hmalloc : malloc = true)
      (hkey : node.key = sn.key) :
      Obtained r sn malloc (some r.nodes.length) (r.append node)
  | failed (hnew : sn.key ∉ r.keys) (hmalloc : malloc = false) : Obtained r sn malloc none r

/-- What looking up or adding comes to. -/
theorem findOrAdd_cases {r : Registry} (h : r.Sound) (sn : SnArg) (fresh : DataSpm)
    (malloc : Bool) :
    (∃ i, r.keys[i]? = some sn.key ∧ findOrAdd r sn fresh malloc = some (some i, r)) ∨
      (sn.key ∉ r.keys ∧ findOrAdd r sn fresh malloc =
        if malloc then some (some r.nodes.length, r.append (fresh.copySN sn))
        else some (none, r)) := by
  rcases getDataListBySN_spec h sn.key with ⟨i, hget, hi⟩ | ⟨hget, hnew⟩
  · exact .inl ⟨i, hi, by simp [findOrAdd, hget]⟩
  · refine .inr ⟨hnew, ?_⟩
    -- the new node is allocated before it is linked, so the test is on the longer heap
    have hlive : ({ r with nodes := r.nodes ++ [fresh.copySN sn] } : Registry).live
        (r.prev .anchor) = true := by
      have := h.live_prev
      cases hp : r.prev .anchor with
      | null => rw [hp] at this; exact this
      | anchor => rfl
      | elem i =>
        rw [hp] at this
        simp only [Registry.live, decide_eq_true_eq, List.length_append] at this ⊢
        omega
    cases malloc with
    | false => simp [findOrAdd, hget]
    | true => simp [findOrAdd, hget, Registry.listAddTail, hlive, Registry.append]

theorem findOrAdd_obtains {r : Registry} (h : r.Sound) (sn : SnArg) (fresh : DataSpm)
    (malloc : Bool) :
    ∃ node r', findOrAdd r sn fresh malloc = some (node, r') ∧ Obtained r sn malloc node r' := by
  rcases findOrAdd_cases h sn fresh malloc with ⟨i, hi, hget⟩ | ⟨hnew, hget⟩
  · exact ⟨some i, r, hget, .found hi⟩
  · cases malloc with
    | false => exact ⟨none, r, hget, .failed hnew rfl⟩
    | true => exact ⟨_, _, hget, .added hnew rfl (fresh.key_copySN sn)⟩

namespace Obtained

variable {r r' : Registry} {sn : SnArg} {malloc : Bool} {node : Option ℕ}

theorem sound (ho : Obtained r sn malloc node r') (h : r.Sound) : r'.Sound := by
  cases ho with
  | found hi => exact h
  | added hnew hmalloc hkey =>
    apply h.append
    rw [hkey]
    exact hnew
  | failed hnew hmalloc => exact h

/-- Nodes are neither dropped nor reordered, and at most one is added. -/
theorem keys_eq (ho : Obtained r sn malloc node r') :
    r'.keys = r.keys ∨ r'.keys = r.keys ++ [sn.key] := by
  cases ho with
  | found hi => exact .inl rfl
  | added hnew hmalloc hkey =>
    rw [Registry.keys_append, hkey]
    exact .inr rfl
  | failed hnew hmalloc => exact .inl rfl

theorem keys_prefix (ho : Obtained r sn malloc node r') : r.keys <+: r'.keys := by
  rcases ho.keys_eq with heq | heq
  · exact ⟨[], by rw [heq, List.append_nil]⟩
  · exact ⟨[sn.key], heq.symm⟩

/-- The node obtained carries the key. -/
theorem key_at {i : ℕ} (ho : Obtained r sn malloc (some i) r') : r'.keys[i]? = some sn.key := by
  cases ho with
  | found hi => exact hi
  | added hnew hmalloc hkey =>
    rw [Registry.keys_append, ← r.length_keys, List.getElem?_append_right (Nat.le_refl _)]
    simp [hkey]

/-- It was there before, or there was memory for it. -/
theorem mem_or_malloc {i : ℕ} (ho : Obtained r sn malloc (some i) r') :
    sn.key ∈ r.keys ∨ malloc = true := by
  cases ho with
  | found hi => exact .inl (List.mem_of_getElem? hi)
  | added hnew hmalloc hkey => exact .inr hmalloc

/-- A failed allocation changes nothing. -/
theorem eq_of_failed (ho : Obtained r sn false node r') : r' = r := by
  cases ho with
  | found hi => rfl
  | added hnew hmalloc hkey => exact absurd hmalloc (by simp)
  | failed hnew hmalloc => rfl

end Obtained

theorem key_closeSocketSpm (node : DataSpm) :
    (closeSocketFd node Member.socketSpm).key = node.key :=
  key_closeSocketFd node (by decide)

/-- The node obtained has the key when its socket is closed, too. -/
theorem Obtained.key_unlocked {r r' : Registry} {sn : SnArg} {malloc : Bool} {i : ℕ}
    (ho : Obtained r sn malloc (some i) r') {node : DataSpm}
    (hnode : (getNodeUnlocked r' (some i)).nodes[i]? = some node) : node.key = sn.key := by
  have hkeys : (getNodeUnlocked r' (some i)).keys = r'.keys :=
    r'.keys_onNode (some i) key_closeSocketSpm
  have hat := ho.key_at
  rw [← hkeys, Registry.getElem?_keys, hnode] at hat
  exact Option.some.inj hat

theorem DataSpm.key_setVpn (node : DataSpm) (vpn : VpnText) (flag : ℤ) :
    (node.setVpn vpn flag).key = node.key := by
  have hfit : 548 + vpn.bytes.length ≤ dataSpmSize := by
    have := vpn.fits
    show 548 + vpn.bytes.length ≤ 912
    omega
  unfold DataSpm.setVpn
  rw [DataSpm.key_setInt _ _ (by decide)]
  exact CArray.read_put_of_disjoint node.mem Member.key hfit (.inl (by decide))

/-- `Set_Device_SN_VPN` obtains a node and then changes nothing but that node's VPN. -/
theorem setDeviceSNVPN_obtains {r : Registry} (h : r.Sound) (sn : SnArg) (vpn : VpnText)
    (flag : ℤ) (malloc : Bool) :
    ∃ node r₁, Obtained r sn malloc node r₁ ∧ setDeviceSNVPN r sn vpn flag malloc =
      some (node, r₁.onNode node (·.setVpn vpn flag)) := by
  obtain ⟨node, r₁, hr, ho⟩ := findOrAdd_obtains h sn DataSpm.zero malloc
  exact ⟨node, r₁, ho, by simp [setDeviceSNVPN, hr]⟩

end Tdm.Common
