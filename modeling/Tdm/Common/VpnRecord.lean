import Tdm.Common.RegistryTheorems
import Tdm.Lib.Stores

/-!
# The VPN of a device

`Set_Device_SN_VPN` copies a text to the member `vpnc` of the node of a serial number, without
a terminator, and stores a flag; `Get_VPN_From_SN_List` gives the text back if it is long
enough and the flag is 1. Whatever calls are made, a node remembers its own calls only
(`setVPNs_represents`): each place of `vpnc` holds what the last of its texts that is long
enough has there, and the flag is the low byte of the last one. So the last text is given
back exactly if no longer one was stored before it.
-/

namespace Tdm.Common

open Tdm.Lib

/-- `Get_VPN_From_SN_List` with `vpn` an array of `n` bytes: its result and the array. -/
def getVPNFromSNList {n : ℕ} (r : Registry) (sn : SnArg) (vpn : CArray n) :
    Option (ℤ × CArray n) := do
  match ← getDataListBySN r sn.key with
  | none => return (0, vpn)
  | some i =>
    let node ← r.nodes[i]?
    let vpnc ← node.mem.cstrAt Member.vpnc
    if 10 < vpnc.length ∧ node.mem.getNat Member.vpnFlag = 1 then return (1, ← vpn.memcpy vpnc)
    else return (0, vpn)

/-- The arguments of `Set_Device_SN_VPN`. -/
structure VpnCall where
  sn : SnArg
  vpn : VpnText
  flag : ℤ

/-- The registry after the calls were made one after the other, with memory for every node. -/
def setVPNs (calls : List VpnCall) : Option Registry :=
  calls.foldlM
    (fun r c => (setDeviceSNVPN r c.sn c.vpn c.flag true).map Prod.snd) connectToMysqlInit

/-- The calls for one serial number. -/
def callsFor (key : List UInt8) (calls : List VpnCall) : List VpnCall :=
  calls.filter (·.sn.key == key)

theorem callsFor_concat_self (calls : List VpnCall) (c : VpnCall) :
    callsFor c.sn.key (calls ++ [c]) = callsFor c.sn.key calls ++ [c] := by
  simp [callsFor]

theorem callsFor_concat_of_ne {key : List UInt8} (calls : List VpnCall) {c : VpnCall}
    (h : key ≠ c.sn.key) : callsFor key (calls ++ [c]) = callsFor key calls := by
  simp [callsFor, h.symm]

theorem callsFor_callsFor (key : List UInt8) (calls : List VpnCall) :
    callsFor key (callsFor key calls) = callsFor key calls := by
  simp [callsFor]

/-- The string in `vpnc` after the calls for its node. -/
def storedText (own : List VpnCall) : List UInt8 := overlaid (own.map (·.vpn.bytes))

theorem storedText_concat (own : List VpnCall) (c : VpnCall) :
    storedText (own ++ [c]) = c.vpn.bytes ++ (storedText own).drop c.vpn.bytes.length := by
  unfold storedText
  rw [List.map_append, List.map_singleton, overlaid_concat]

/-! ## One node -/

/-- The node is what the calls for it have made of a new one. -/
structure Records (node : DataSpm) (own : List VpnCall) : Prop where
  text : node.mem.Holds Member.vpnc (storedText own)
  flag : ∀ c, own.getLast? = some c →
    node.mem.getNat Member.vpnFlag = (c.flag % 2 ^ 8).toNat

theorem holds_setVpn {node : DataSpm} {s : List UInt8} (h : node.mem.Holds Member.vpnc s)
    (vpn : VpnText) (flag : ℤ) : (node.setVpn vpn flag).mem.Holds Member.vpnc
      (vpn.bytes ++ s.drop vpn.bytes.length) := by
  have hlen : vpn.bytes.length < Member.vpnc.size := Nat.lt_succ_of_le vpn.fits
  have hfit : Member.vpnc.off + vpn.bytes.length ≤ dataSpmSize := by
    have hmember := Member.vpnc.fits
    omega
  have hput := CArray.read_put_over node.mem Member.vpnc hfit (Nat.le_refl _)
  rw [Nat.sub_self, List.drop_zero, Nat.sub_zero, List.take_of_length_le (Nat.le_of_lt hlen)]
    at hput
  apply h.overlay vpn.text hlen
  unfold DataSpm.setVpn
  rw [DataSpm.read_setInt _ _ (by decide)]
  exact hput

theorem Records.setVpn {node : DataSpm} {own : List VpnCall}
    (h : node.mem.Holds Member.vpnc (storedText own)) (c : VpnCall) :
    Records (node.setVpn c.vpn c.flag) (own ++ [c]) where
  text := by
    rw [storedText_concat]
    exact holds_setVpn h c.vpn c.flag
  flag := by
    intro last hlast
    rw [List.getLast?_concat] at hlast
    obtain rfl := Option.some.inj hlast
    exact DataSpm.getNat_setInt _ Member.vpnFlag c.flag

/-- A new node holds no text. -/
theorem holds_vpnc_new (sn : SnArg) :
    (DataSpm.zero.copySN sn).mem.Holds Member.vpnc (storedText []) := by
  apply CArray.Holds.of_zeros (by decide)
  rw [DataSpm.read_copySN _ _ (by decide)]
  exact CArray.read_zero Member.vpnc

/-! ## All nodes -/

/-- The registry is what the calls have made of an empty one. -/
structure Represents (r : Registry) (calls : List VpnCall) : Prop where
  sound : r.Sound
  keys (key : List UInt8) : key ∈ r.keys ↔ callsFor key calls ≠ []
  nodes {i : ℕ} {node : DataSpm} : r.nodes[i]? = some node → Records node (callsFor node.key calls)

theorem represents_nil : Represents connectToMysqlInit [] where
  sound := sound_connectToMysqlInit
  keys key := by simp [callsFor, Registry.keys, connectToMysqlInit, Registry.zeroed,
    Registry.initListHead]
  nodes h := by simp [connectToMysqlInit, Registry.zeroed, Registry.initListHead] at h

section Step
variable {r : Registry} {calls : List VpnCall} (h : Represents r calls) (c : VpnCall)
include h

/-- The step on the node of the call: `r₁` is the registry in which it stands at place `i`. -/
theorem Represents.onNode {r₁ : Registry} {i : ℕ} (hsound : r₁.Sound)
    (hkeys : ∀ key, key ∈ r₁.keys ↔ key ∈ r.keys ∨ key = c.sn.key)
    (hi : r₁.keys[i]? = some c.sn.key)
    (hown : ∀ node, r₁.nodes[i]? = some node →
      node.mem.Holds Member.vpnc (storedText (callsFor c.sn.key calls)))
    (hother : ∀ j, j ≠ i → ∀ node, r₁.nodes[j]? = some node → r.nodes[j]? = some node) :
    Represents (r₁.onNode (some i) (·.setVpn c.vpn c.flag)) (calls ++ [c]) where
  sound := hsound.onNode (some i) (DataSpm.key_setVpn · c.vpn c.flag)
  keys key := by
    rw [r₁.keys_onNode (some i) (DataSpm.key_setVpn · c.vpn c.flag), hkeys, h.keys]
    rcases eq_or_ne key c.sn.key with rfl | hne
    · simp [callsFor_concat_self]
    · simp [callsFor_concat_of_ne calls hne, hne]
  nodes := by
    intro j node hnode
    have hmodify : (r₁.nodes.modify i (·.setVpn c.vpn c.flag))[j]? = some node := hnode
    rw [List.getElem?_modify] at hmodify
    obtain ⟨old, hold, rfl⟩ := Option.map_eq_some_iff.mp hmodify
    have hkey : r₁.keys[j]? = some old.key := by rw [r₁.getElem?_keys, hold, Option.map_some]
    by_cases hij : i = j
    · subst hij
      have hown' : old.key = c.sn.key := Option.some.inj (hkey.symm.trans hi)
      rw [if_pos rfl, DataSpm.key_setVpn, hown', callsFor_concat_self]
      exact Records.setVpn (hown old hold) c
    · -- another place has another key
      have hne : old.key ≠ c.sn.key := by
        intro heq
        rw [heq] at hkey
        exact hij (hsound.index_unique hi hkey)
      rw [if_neg hij, callsFor_concat_of_ne calls hne]
      exact h.nodes (hother j (Ne.symm hij) old hold)

theorem Represents.call : ∃ r', (setDeviceSNVPN r c.sn c.vpn c.flag true).map Prod.snd = some r' ∧
    Represents r' (calls ++ [c]) := by
  rcases findOrAdd_cases h.sound c.sn DataSpm.zero true with ⟨i, hi, hget⟩ | ⟨hnew, hget⟩
  · -- the number has a node already
    refine ⟨r.onNode (some i) (·.setVpn c.vpn c.flag), by simp [setDeviceSNVPN, hget], ?_⟩
    apply h.onNode c h.sound _ hi
    · intro node hnode
      have hkey := hi
      rw [r.getElem?_keys, hnode] at hkey
      have hnode' := h.nodes hnode
      rw [Option.some.inj hkey] at hnode'
      exact hnode'.text
    · exact fun j _ node hnode => hnode
    · intro key
      have hmem := List.mem_of_getElem? hi
      constructor
      · exact .inl
      · rintro (hkey | rfl)
        · exact hkey
        · exact hmem
  · -- a new node goes to the end of the list
    have hnone : callsFor c.sn.key calls = [] := by
      by_contra hne
      exact hnew ((h.keys c.sn.key).mpr hne)
    have hfresh := DataSpm.zero.key_copySN c.sn
    have hlast : (r.append (DataSpm.zero.copySN c.sn)).nodes[r.nodes.length]? =
        some (DataSpm.zero.copySN c.sn) := List.getElem?_concat_length
    refine ⟨(r.append (DataSpm.zero.copySN c.sn)).onNode (some r.nodes.length)
      (·.setVpn c.vpn c.flag), by simp [setDeviceSNVPN, hget], ?_⟩
    apply h.onNode c (h.sound.append (by rw [hfresh]; exact hnew))
    · intro key
      rw [Registry.keys_append, hfresh, List.mem_append, List.mem_singleton]
    · rw [Registry.getElem?_keys, hlast, Option.map_some, hfresh]
    · intro node hnode
      rw [hlast] at hnode
      rw [← Option.some.inj hnode, hnone]
      exact holds_vpnc_new c.sn
    · intro j hj node hnode
      have happend : (r.nodes ++ [DataSpm.zero.copySN c.sn])[j]? = some node := hnode
      rw [List.getElem?_append] at happend
      split at happend
      · exact happend
      · rename_i hlen
        have hout : 0 < j - r.nodes.length := by omega
        rw [List.getElem?_eq_none (by rw [List.length_singleton]; omega)] at happend
        cases happend

end Step

/-- Every run of calls has a result, and every node of it remembers its own calls. -/
theorem setVPNs_represents (calls : List VpnCall) :
    ∃ r, setVPNs calls = some r ∧ Represents r calls := by
  induction calls using List.reverseRecOn with
  | nil => exact ⟨connectToMysqlInit, rfl, represents_nil⟩
  | append_singleton calls c ih =>
    obtain ⟨r, hrun, hr⟩ := ih
    obtain ⟨r', hcall, hr'⟩ := hr.call c
    refine ⟨r', ?_, hr'⟩
    unfold setVPNs at hrun ⊢
    rw [List.foldlM_append, hrun]
    simp [hcall]

/-! ## Reading -/

/-- What `Get_VPN_From_SN_List` makes of the calls for a serial number: its result and the text
it copies. -/
def vpnAnswer (own : List VpnCall) : ℤ × List UInt8 :=
  match own.getLast? with
  | none => (0, [])
  | some c =>
    if 10 < (storedText own).length ∧ c.flag % 256 = 1 then (1, storedText own) else (0, [])

theorem Represents.read {r : Registry} {calls : List VpnCall} (h : Represents r calls)
    (sn : SnArg) {n : ℕ} (hn : 127 ≤ n) :
    ∃ out : CArray n, getVPNFromSNList r sn (.zero n) =
        some ((vpnAnswer (callsFor sn.key calls)).1, out) ∧
      out.cstr = some (vpnAnswer (callsFor sn.key calls)).2 := by
  have hnothing : (CArray.zero n).cstr = some [] := CArray.cstr_zero n (by omega)
  unfold getVPNFromSNList
  rcases getDataListBySN_spec h.sound sn.key with ⟨i, hget, hi⟩ | ⟨hget, hnew⟩
  · rw [hget]
    obtain ⟨node, hnode, hkey⟩ : ∃ node, r.nodes[i]? = some node ∧ node.key = sn.key := by
      rw [r.getElem?_keys] at hi
      exact Option.map_eq_some_iff.mp hi
    have hrecords := h.nodes hnode
    rw [hkey] at hrecords
    have hmem : callsFor sn.key calls ≠ [] := (h.keys sn.key).mp (List.mem_of_getElem? hi)
    obtain ⟨c, hc⟩ : ∃ c, (callsFor sn.key calls).getLast? = some c :=
      ⟨_, List.getLast?_eq_some_getLast hmem⟩
    have hflag : node.mem.getNat Member.vpnFlag = 1 ↔ c.flag % 256 = 1 := by
      rw [hrecords.flag c hc]
      omega
    simp only [Option.bind_eq_bind, Option.bind_some, hnode, hrecords.text.cstrAt, hflag, vpnAnswer,
      hc]
    split
    · have hshort := hrecords.text.short
      have hfits : (storedText (callsFor sn.key calls)).length < n := Nat.lt_of_lt_of_le hshort hn
      refine ⟨(CArray.zero n).overlay _ (Nat.le_of_lt hfits), ?_, ?_⟩
      · rw [CArray.memcpy_of_le _ (Nat.le_of_lt hfits)]
        rfl
      · rw [CArray.cstr_zero_overlay, if_pos (.inl hfits),
          CArray.takeWhile_of_notMem hrecords.text.clean]
    · exact ⟨.zero n, rfl, hnothing⟩
  · rw [hget]
    have hnone : callsFor sn.key calls = [] := by
      by_contra hne
      exact hnew ((h.keys sn.key).mpr hne)
    rw [hnone]
    exact ⟨.zero n, rfl, hnothing⟩

/-! ## The last call -/

/-- The result is 1 exactly if the last call gave flag 1 and a text of more than 10 characters,
and this text is then what stands in the array. -/
def LastWriteWins {n : ℕ} (last : Option VpnCall) (ret : ℤ) (out : CArray n) : Prop :=
  (ret = 1 ↔ ∃ c, last = some c ∧ c.flag = 1 ∧ 10 < c.vpn.bytes.length) ∧
    ∀ c, last = some c → ret = 1 → out.cstr = some c.vpn.bytes

/-- If the low byte of the last flag is 1, the flag is 1 or the text is short, and no earlier
text for the serial number is longer than the last one and than 10 characters. -/
def Undisturbed (own : List VpnCall) : Prop :=
  ∀ earlier c, own = earlier ++ [c] → c.flag % 256 = 1 →
    (c.flag = 1 ∨ c.vpn.bytes.length ≤ 10) ∧
      ∀ e ∈ earlier, e.vpn.bytes.length ≤ max c.vpn.bytes.length 10

theorem lastWriteWins_iff {n : ℕ} (own : List VpnCall) {out : CArray n}
    (hout : out.cstr = some (vpnAnswer own).2) :
    LastWriteWins own.getLast? (vpnAnswer own).1 out ↔ Undisturbed own := by
  rcases List.eq_nil_or_concat own with rfl | ⟨earlier, c, rfl⟩
  · simp [LastWriteWins, Undisturbed, vpnAnswer]
  rw [List.concat_eq_append] at hout ⊢
  have hlength (k : ℕ) : (storedText (earlier ++ [c])).length ≤ k ↔
      (∀ e ∈ earlier, e.vpn.bytes.length ≤ k) ∧ c.vpn.bytes.length ≤ k := by
    unfold storedText
    rw [length_overlaid_le_iff, List.map_append, List.forall_mem_append]
    simp
  have hlast : storedText (earlier ++ [c]) = c.vpn.bytes ↔
      ∀ e ∈ earlier, e.vpn.bytes.length ≤ c.vpn.bytes.length := by
    unfold storedText
    rw [List.map_append, List.map_singleton, overlaid_concat_eq_iff, List.forall_mem_map]
  have hundisturbed : Undisturbed (earlier ++ [c]) ↔ (c.flag % 256 = 1 →
      (c.flag = 1 ∨ c.vpn.bytes.length ≤ 10) ∧
        ∀ e ∈ earlier, e.vpn.bytes.length ≤ max c.vpn.bytes.length 10) := by
    constructor
    · intro h
      exact h earlier c rfl
    · intro h earlier' c' heq
      obtain ⟨rfl, hc⟩ := List.append_inj' heq rfl
      obtain rfl := List.singleton_inj.mp hc
      exact h
  have hten := hlength 10
  rw [hundisturbed]
  unfold LastWriteWins
  simp only [vpnAnswer, List.getLast?_concat, Option.some.injEq, exists_eq_left', forall_eq'] at hout ⊢
  by_cases hflag : c.flag % 256 = 1
  · by_cases hlong : 10 < c.vpn.bytes.length
    · -- a long text is given back, with the end of a longer one
      have hmax : max c.vpn.bytes.length 10 = c.vpn.bytes.length := by omega
      have hstored : 10 < (storedText (earlier ++ [c])).length := by omega
      rw [if_pos ⟨hstored, hflag⟩] at hout ⊢
      rw [hmax, ← hlast]
      simp only [hout, Option.some.injEq, hflag, hlong, true_iff, and_true, forall_const,
        Nat.not_le.mpr hlong, or_false]
    · -- a short text must not be given back
      have hmax : max c.vpn.bytes.length 10 = 10 := by omega
      rw [hmax]
      have hshort : c.vpn.bytes.length ≤ 10 := by omega
      by_cases hearlier : ∀ e ∈ earlier, e.vpn.bytes.length ≤ 10
      · have hstored : ¬ 10 < (storedText (earlier ++ [c])).length :=
          Nat.not_lt.mpr (hten.mpr ⟨hearlier, hshort⟩)
        rw [if_neg (fun h => hstored h.1)]
        simp only [hlong, hshort, and_false, or_true, true_and]
        exact iff_of_true (by simp) fun _ => hearlier
      · have hstored : 10 < (storedText (earlier ++ [c])).length := by
          by_contra h
          exact hearlier (hten.mp (Nat.le_of_not_lt h)).1
        rw [if_pos ⟨hstored, hflag⟩]
        simp [hlong, hearlier, hflag]
  · have hne : c.flag ≠ 1 := by
      rintro h
      rw [h] at hflag
      exact hflag rfl
    rw [if_neg (fun h => hflag h.2)]
    simp [hflag, hne]

/-- After any calls of `Set_Device_SN_VPN`, what `Get_VPN_From_SN_List` gives for a serial number
is what it gives after the calls for this serial number alone, and it is what the last of
them has stored if and only if no earlier one of them disturbs it. -/
theorem vpn_last_write_wins_iff (calls : List VpnCall) (sn : SnArg) {n : ℕ} (hn : 127 ≤ n) :
    ∃ r ret, ∃ out : CArray n, setVPNs calls = some r ∧
      getVPNFromSNList r sn (.zero n) = some (ret, out) ∧
      (∃ r' out', setVPNs (callsFor sn.key calls) = some r' ∧
        getVPNFromSNList r' sn (.zero n) = some (ret, out') ∧ out'.cstr = out.cstr) ∧
      (LastWriteWins (callsFor sn.key calls).getLast? ret out ↔
        Undisturbed (callsFor sn.key calls)) := by
  obtain ⟨r, hrun, hr⟩ := setVPNs_represents calls
  obtain ⟨r', hrun', hr'⟩ := setVPNs_represents (callsFor sn.key calls)
  obtain ⟨out, hread, hout⟩ := hr.read sn hn
  obtain ⟨out', hread', hout'⟩ := hr'.read sn hn
  rw [callsFor_callsFor] at hread' hout'
  exact ⟨r, _, out, hrun, hread, ⟨r', out', hrun', hread', hout'.trans hout.symm⟩,
    lastWriteWins_iff _ hout⟩

/-! ## Two calls -/

def vpnSN : SnArg := ⟨text "172150210000937", fifteen_le_serial⟩

def vpnText : VpnText := ⟨text "10.0.0.1|vpnuser", by decide, by decide⟩

def longerVpnText : VpnText := ⟨text "120.24.221.252|vpnuser7", by decide, by decide⟩

theorem vpn_last_write_wins_iff_longer :
    ∃ r ret, ∃ out : CArray 127,
      setVPNs [⟨vpnSN, vpnText, 1⟩, ⟨vpnSN, longerVpnText, 1⟩] = some r ∧
      getVPNFromSNList r vpnSN (.zero 127) = some (ret, out) ∧
      LastWriteWins (some ⟨vpnSN, longerVpnText, 1⟩) ret out := by
  obtain ⟨r, ret, out, hrun, hread, -, hwins⟩ := vpn_last_write_wins_iff
    [⟨vpnSN, vpnText, 1⟩, ⟨vpnSN, longerVpnText, 1⟩] vpnSN (Nat.le_refl 127)
  refine ⟨r, ret, out, hrun, hread, hwins.mpr ?_⟩
  intro earlier c heq _
  have hown : callsFor vpnSN.key [⟨vpnSN, vpnText, 1⟩, ⟨vpnSN, longerVpnText, 1⟩] =
      [⟨vpnSN, vpnText, 1⟩] ++ [⟨vpnSN, longerVpnText, 1⟩] := by simp [callsFor]
  rw [hown] at heq
  obtain ⟨rfl, hc⟩ := List.append_inj' heq rfl
  obtain rfl := List.singleton_inj.mp hc
  refine ⟨.inl rfl, ?_⟩
  rw [List.forall_mem_singleton]
  decide

/-- A shorter text over a longer one is given back with the end of the longer one. -/
theorem vpn_text_mixed_with_earlier_one :
    ∃ r ret, ∃ out : CArray 127,
      setVPNs [⟨vpnSN, longerVpnText, 1⟩, ⟨vpnSN, vpnText, 1⟩] = some r ∧
      getVPNFromSNList r vpnSN (.zero 127) = some (ret, out) ∧ ret = 1 ∧
      out.cstr = some (text "10.0.0.1|vpnuserpnuser7") ∧
      ¬ LastWriteWins (some ⟨vpnSN, vpnText, 1⟩) ret out := by
  have hrun : ((setVPNs [⟨vpnSN, longerVpnText, 1⟩, ⟨vpnSN, vpnText, 1⟩]).bind fun r =>
      (getVPNFromSNList r vpnSN (CArray.zero 127)).bind fun p => p.2.cstr.map (p.1, ·)) =
        some (1, text "10.0.0.1|vpnuserpnuser7") := by
    decide +kernel
  obtain ⟨r, hset, hrun⟩ := Option.bind_eq_some_iff.mp hrun
  obtain ⟨⟨ret, out⟩, hget, hrun⟩ := Option.bind_eq_some_iff.mp hrun
  obtain ⟨s, hcstr, hpair⟩ := Option.map_eq_some_iff.mp hrun
  obtain ⟨hret, rfl⟩ := Prod.mk.inj hpair
  refine ⟨r, ret, out, hset, hget, hret, hcstr, ?_⟩
  rintro ⟨-, htext⟩
  have hsame := hcstr.symm.trans (htext _ rfl hret)
  exact absurd hsame (by decide)

end Tdm.Common
