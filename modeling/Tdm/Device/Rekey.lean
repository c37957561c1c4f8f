import Tdm.Device.Identity
import Tdm.Device.RecvTheorems
import Tdm.Common.DeviceNumber

/-!
# Messages and the keys of the registry

A message is looked up by the serial number that was decoded from it. Two handlers store a
serial number again, from a copy of the payload that is cut off or filled up differently,
and a granted login stores the text of an IMSI in front of it. `keys_kept_iff` says for
which messages the keys of the registry are what they were, with at most the key of the
message added.
-/

namespace Tdm.Device

open Tdm.Lib Tdm.Common

/-! ## The bytes of a message -/

/-- Byte `i` of the buffer a message was read into. -/
def byteAt (msg : List UInt8) (i : ℕ) : UInt8 := msg.getD i 0

/-- `FrameSize` of a message. -/
def sizeByte (msg : List UInt8) : ℕ := (byteAt msg 1).toNat

/-- Byte `i` of `TempBuf`: of the payload, or behind it of the message as it was received. -/
def payloadAt (msg : List UInt8) (i : ℕ) : UInt8 :=
  if i < sizeByte msg then byteAt msg (i + 2) else byteAt msg i

/-- A message in a zeroed buffer. -/
theorem getElem?_zero_overlay {msg : List UInt8} {n : ℕ} (hfit : msg.length ≤ n) {i : ℕ} (hi : i < n) :
    ((CArray.zero n).overlay msg hfit).bytes[i]? = some (byteAt msg i) := by
  rw [CArray.getElem?_overlay, byteAt, List.getD_eq_getElem?_getD]
  by_cases hlt : i < msg.length
  · rw [if_pos hlt, List.getElem?_eq_getElem hlt]
    rfl
  · rw [if_neg hlt, List.getElem?_eq_none (Nat.le_of_not_lt hlt)]
    exact List.getElem?_replicate_of_lt hi

section Bytes
variable {msg : List UInt8} (h : msg.length ≤ 256)
include h

theorem frameSize_recvBuf : frameSize (recvBuf msg h) = sizeByte msg := by
  have hone : (recvBuf msg h).bytes[1]? = some (byteAt msg 1) :=
    getElem?_zero_overlay (h.trans (by decide)) (by decide)
  rw [frameSize, CArray.get, List.getD_eq_getElem?_getD, hone]
  rfl

theorem frameData_recvBuf {off len : ℕ} (hfit : 2 + off + len ≤ 512) :
    frameData (recvBuf msg h) off len =
      (List.range len).map fun i => byteAt msg (off + i + 2) := by
  apply List.ext_getElem?
  intro i
  rw [frameData, List.getElem?_take, List.getElem?_drop, List.getElem?_map]
  by_cases hi : i < len
  · have hbyte : (recvBuf msg h).bytes[2 + off + i]? = some (byteAt msg (2 + off + i)) :=
      getElem?_zero_overlay (h.trans (by decide)) (by omega)
    rw [if_pos hi, hbyte, List.getElem?_range hi]
    show some _ = some _
    rw [show 2 + off + i = off + i + 2 by omega]
  · rw [if_neg hi, List.getElem?_eq_none (by rw [List.length_range]; omega)]
    rfl

/-- `TempBuf` when the payload has been copied to it. -/
theorem getElem?_tempPayload {i : ℕ} (hi : i < 256) :
    (tempPayload (recvBuf msg h) ((CArray.zero 256).overlay msg h)).bytes[i]? =
      some (payloadAt msg i) := by
  have hsize := frameSize_lt (recvBuf msg h)
  rw [frameSize_recvBuf h] at hsize
  rw [tempPayload, CArray.getElem?_overlay]
  have hdata : frameData (recvBuf msg h) 0 (sizeByte msg) = _ := frameData_recvBuf h (by omega)
  simp only [frameSize_recvBuf h, hdata, List.length_map, List.length_range, payloadAt]
  by_cases hlt : i < sizeByte msg
  · rw [if_pos hlt, if_pos hlt, List.getElem?_map, List.getElem?_range hlt]
    show some (byteAt msg (0 + i + 2)) = _
    rw [Nat.zero_add]
  · rw [if_neg hlt, if_neg hlt]
    exact getElem?_zero_overlay h hi

end Bytes

/-! ## The keys -/

/-- The message is handled for a node: its serial number is valid, and there is a node of that
key or memory for one. -/
def Served (r : Registry) (para : NodeData) (w : World) : Prop :=
  isValidSN para.snArg.bytes = true ∧ (para.snArg.key ∈ r.keys ∨ w.malloc = true)

/-- The registry has the keys it had, and at most `key` behind them. -/
def KeysKept (r r' : Registry) (key : List UInt8) : Prop :=
  (r'.keys = r.keys ∨ r'.keys = r.keys ++ [key]) ∧ r'.keys.Nodup

/-- The keys when the node at `i` is replaced. -/
theorem keys_replace (r : Registry) (i : ℕ) (node : DataSpm) :
    (r.modify i fun _ => node).keys = r.keys.set i node.key := by
  apply List.ext_getElem?
  intro j
  rw [Registry.getElem?_keys, List.getElem?_set, Registry.length_keys, Registry.getElem?_keys]
  simp only [Registry.modify, List.getElem?_modify]
  by_cases hj : i = j
  · subst hj
    by_cases hlt : i < r.nodes.length
    · simp [hlt]
    · simp [hlt]
  · simp [hj]

/-- A node that was obtained for `sn` may be replaced by another of the same key, and by no
other. -/
theorem keysKept_set_iff {r r₁ : Registry} {sn : SnArg} {malloc : Bool} {i : ℕ}
    (hr : r.Sound) (ho : Obtained r sn malloc (some i) r₁) {r' : Registry} {key : List UInt8}
    (hkeys : r'.keys = r₁.keys.set i key) : KeysKept r r' sn.key ↔ key = sn.key := by
  have hat := ho.key_at
  have hlt : i < r₁.keys.length := (List.getElem?_eq_some_iff.mp hat).1
  constructor
  · rintro ⟨hkept, -⟩
    -- one of the two alternatives has the wrong length, the other gives the key at `i`
    have hsame : r'.keys = r₁.keys := by
      have hlen : r'.keys.length = r₁.keys.length := by
        rw [hkeys, List.length_set]
      rcases ho.keys_eq with hold | hadded <;> rcases hkept with hkept | hkept
      · rw [hkept, hold]
      · rw [hkept, hold, List.length_append, List.length_singleton] at hlen
        omega
      · rw [hkept, hadded, List.length_append, List.length_singleton] at hlen
        omega
      · rw [hkept, hadded]
    have hget : (r₁.keys.set i key)[i]? = r₁.keys[i]? := by
      rw [← hkeys, hsame]
    rw [List.getElem?_set_self hlt, hat] at hget
    exact Option.some.inj hget
  · rintro rfl
    have hsame : r'.keys = r₁.keys := by
      rw [hkeys, ← (List.getElem?_eq_some_iff.mp hat).2]
      exact List.set_getElem_self hlt
    refine ⟨?_, ?_⟩
    · rw [hsame]
      exact ho.keys_eq
    · rw [hsame]
      exact (ho.sound hr).distinct

/-- `Coding_With_CMD_Data_Pool` does nothing, or it has a handler change the node of the
message. -/
theorem codingWithCMDDataPool_cases {r r' : Registry} (hr : r.Sound) {cmd : Cmd}
    {para : NodeData} {w : World} {writes : List Write}
    (h : codingWithCMDDataPool r cmd para w = some (r', writes)) :
    (¬ Served r para w ∧ r' = r) ∨
      (Served r para w ∧ ∃ i r₁ node node' frames,
        Obtained r para.snArg w.malloc (some i) r₁ ∧
        getNodeBySN r para.snArg w.malloc = some (some i, getNodeUnlocked r₁ (some i)) ∧
        node.key = para.snArg.key ∧
        codingWithDate (receive node para) cmd w = some (node', frames) ∧
        r' = (getNodeUnlocked r₁ (some i)).modify i fun _ => node') := by
  obtain ⟨⟨found, r₂⟩, hget, h⟩ := Option.bind_eq_some_iff.mp h
  by_cases hvalid : isValidSN para.snArg.bytes = true
  · obtain ⟨found', r₁, ho, hget'⟩ := getNodeBySN_obtains hr hvalid w.malloc
    obtain ⟨rfl, rfl⟩ := Prod.mk.inj (Option.some.inj (hget.symm.trans hget'))
    cases found with
    | none =>
      left
      cases h
      cases ho with
      | failed hnew hmalloc =>
        refine ⟨fun hserved => ?_, rfl⟩
        rcases hserved.2 with hin | htrue
        · exact hnew hin
        · rw [hmalloc] at htrue
          cases htrue
    | some i =>
      right
      obtain ⟨node, hnode, h⟩ := Option.bind_eq_some_iff.mp h
      obtain ⟨⟨node', frames⟩, hrun, h⟩ := Option.bind_eq_some_iff.mp h
      cases h
      exact ⟨⟨hvalid, ho.mem_or_malloc⟩, i, r₁, node, node', frames, ho, hget',
        ho.key_unlocked hnode, hrun, rfl⟩
  · rw [getNodeBySN, if_neg hvalid] at hget
    cases hget
    cases h
    exact .inl ⟨fun hserved => hvalid hserved.1, rfl⟩

/-- It keeps the keys exactly if the handler leaves the key of the message in the node it was
looked up for. -/
theorem keysKept_iff_keyAfter {r r' : Registry} (hr : r.Sound) {cmd : Cmd} {para : NodeData}
    {w : World} {writes : List Write}
    (h : codingWithCMDDataPool r cmd para w = some (r', writes)) :
    KeysKept r r' para.snArg.key ↔
      (Served r para w → keyAfter cmd para w para.snArg.key = para.snArg.key) := by
  rcases codingWithCMDDataPool_cases hr h with ⟨hnot, rfl⟩ |
    ⟨hserved, i, r₁, node, node', frames, ho, -, hkey, hrun, rfl⟩
  · exact iff_of_true ⟨.inl rfl, hr.distinct⟩ fun hserved => absurd hserved hnot
  · obtain ⟨hafter, -⟩ := codingWithDate_identity hrun
    rw [hkey] at hafter
    have hkeys : (getNodeUnlocked r₁ (some i)).keys = r₁.keys :=
      r₁.keys_onNode (some i) key_closeSocketSpm
    rw [keysKept_set_iff hr ho (by rw [keys_replace, hkeys]), hafter]
    exact ⟨fun he _ => he, fun himp => himp hserved⟩

/-- A registry whose keys were kept is sound. -/
theorem sound_of_keysKept {r r' : Registry} (hr : r.Sound) {cmd : Cmd} {para : NodeData}
    {w : World} {writes : List Write}
    (h : codingWithCMDDataPool r cmd para w = some (r', writes))
    (hkept : KeysKept r r' para.snArg.key) : r'.Sound := by
  refine ⟨?_, hkept.2⟩
  rcases codingWithCMDDataPool_cases hr h with ⟨-, rfl⟩ |
    ⟨-, i, r₁, node, node', frames, ho, -, -, -, rfl⟩
  · exact hr.ring
  · have hlen : ((getNodeUnlocked r₁ (some i)).modify i fun _ => node').nodes.length =
        (getNodeUnlocked r₁ (some i)).nodes.length := List.length_modify ..
    rw [hlen]
    exact ((ho.sound hr).onNode (some i) key_closeSocketSpm).ring

/-! ## From the message to the handler -/

/-- A message that is dispatched is a device frame of that command, and decoding it leaves the
registry alone. -/
theorem decoded_of_dispatch {r : Registry} {cmd : Cmd} {para : Session} {fd : ℤ} {w : World}
    {msg : List UInt8} {received : Received}
    (h : codingWithRecvData r para fd w msg = some received)
    (hout : received.outcome = .dispatch cmd) :
    received.registry = r ∧ ∃ hfit : msg.length ≤ 256,
      deviceBranch r (recvBuf msg hfit) ((CArray.zero 256).overlay msg hfit) cmd para fd w =
        some received := by
  rcases codingWithRecvData_cases h with ⟨-, hdropped⟩ | ⟨hfit, cmd', -, hbranch⟩
  · rw [hout] at hdropped
    cases hdropped
  · rcases deviceBranch_cases hbranch with ⟨hsame, hcmd | hdropped⟩ | ⟨-, hlocal⟩ | ⟨hserved, -⟩
    · rw [hout] at hcmd
      obtain rfl := Outcome.dispatch.inj hcmd
      exact ⟨hsame, hfit, hbranch⟩
    · rw [hout] at hdropped
      cases hdropped
    · -- commands that are answered at once are not dispatched
      have hserved := (codingWithLocalSocket_cases hlocal).1
      rw [hout] at hserved
      cases hserved
    · rw [hout] at hserved
      cases hserved

/-- The key a message is looked up by. -/
theorem key_nodeData (cmd : Cmd) (fd : ℤ) (para : Session) (tempBuf : CArray 256) :
    (nodeData cmd fd para tempBuf).snArg.key = para.sn.bytes.take 15 := by
  show ((para.sn.bytes ++ _) ++ _).take 15 = _
  rw [List.append_assoc, List.take_append_of_le_length]
  rw [para.sn.size]
  decide

/-- A serial number that was copied from the payload. -/
theorem take_overlay_frameData {sn : CArray 16} {msg : List UInt8} (h : msg.length ≤ 256)
    {off len : ℕ} (hlen : 15 ≤ len) (hfit : 2 + off + len ≤ 512)
    (hsn : (frameData (recvBuf msg h) off len).length ≤ 16) :
    (sn.overlay (frameData (recvBuf msg h) off len) hsn).bytes.take 15 =
      (List.range 15).map fun i => byteAt msg (off + i + 2) := by
  rw [CArray.bytes_overlay, frameData_recvBuf h hfit, List.take_append_of_le_length,
    ← List.map_take, List.take_range, Nat.min_eq_left hlen]
  rw [List.length_map, List.length_range]
  exact hlen

/-- `MCC` of the login in a message, 460 if there is none. -/
def loginMCC (msg : List UInt8) : ℕ :=
  let mcc := toSigned 32 (leNat ((List.range 4).map (payloadAt msg)))
  if mcc = 0 then 460 else (mcc % 2 ^ 16).toNat

/-- What the handler stores over the key of its node is that key. -/
def Resends (cmd : Cmd) (msg : List UInt8) (w : World) (key : List UInt8) : Prop :=
  match cmd with
  -- a heartbeat whose serial number is cut off by its own `FrameSize`
  | .hb => sizeByte msg ≤ 9 ∨ ∀ i < 24, 9 ≤ i → sizeByte msg ≤ i → byteAt msg (i + 2) = byteAt msg i
  | .cfmd => ∀ i < 15, sizeByte msg ≤ i → byteAt msg (i + 2) = 0
  -- an IMSI of more than 20 characters
  | .accessAuth => ∀ value, grantedIMSI (loginMCC msg) w.deal = some value →
      (value.drop 20).take 15 <+: key
  | _ => True

theorem overKey_eq_iff {value key : List UInt8} (hkey : key.length = 15) :
    overKey value key = key ↔ (value.drop 20).take 15 <+: key := by
  unfold overKey
  constructor
  · intro h
    exact ⟨_, h⟩
  · rintro ⟨rest, hrest⟩
    have hlen : ((value.drop 20).take 15).length = min 15 (value.length - 20) := by
      rw [List.length_take, List.length_drop]
    have hdrop : key.drop (value.length - 20) = rest := by
      rw [← hrest]
      rw [← hrest, List.length_append, hlen] at hkey
      by_cases hshort : value.length - 20 ≤ 15
      · exact List.drop_left' (by omega)
      · have hnil : rest = [] := List.length_eq_zero_iff.mp (by omega)
        rw [hnil, List.append_nil]
        exact List.drop_eq_nil_of_le (by omega)
    rw [hdrop, hrest]

/-- What is dispatched: `key` and `num` have been decoded, and the payload is in `TempBuf`. -/
structure Decoded (msg : List UInt8) (off num : ℕ) (data : NodeData) : Prop where
  key : data.snArg.key = (List.range 15).map fun i => byteAt msg (off + i + 2)
  len : data.len = num
  buff : ∀ i < 256, data.buff.bytes[i]? = some (payloadAt msg i)

section Commands
variable {r : Registry} {para : Session} {fd : ℤ} {w : World} {msg : List UInt8}
  {received : Received} {data : NodeData}

theorem sizeByte_lt (msg : List UInt8) : sizeByte msg < 256 := (byteAt msg 1).toNat_lt

/-- The serial number of a heartbeat is at offset 9. -/
theorem decoded_hb (hfit : msg.length ≤ 256)
    (h : deviceBranch r (recvBuf msg hfit) ((CArray.zero 256).overlay msg hfit) .hb para fd w =
      some received) :
    Decoded msg 9 (sizeByte msg - 9) (nodeData .hb fd received.session received.tempBuf) := by
  cases h
  refine ⟨?_, ?_, fun i hi => getElem?_tempPayload hfit hi⟩
  · rw [key_nodeData]
    exact take_overlay_frameData hfit (by decide) (by decide)
      ((length_frameData_le ..).trans (by decide))
  · show (frameNum (recvBuf msg hfit) : ℤ) = _
    rw [frameNum, frameSize_recvBuf]

/-- That of a confirmation is at offset 0. -/
theorem decoded_cfmd (hfit : msg.length ≤ 256)
    (h : deviceBranch r (recvBuf msg hfit) ((CArray.zero 256).overlay msg hfit) .cfmd para fd w =
      some received) :
    Decoded msg 0 (sizeByte msg) (nodeData .cfmd fd received.session received.tempBuf) := by
  cases h
  refine ⟨?_, ?_, fun i hi => getElem?_tempPayload hfit hi⟩
  · rw [key_nodeData]
    exact take_overlay_frameData hfit (by decide) (by decide)
      ((length_frameData_le ..).trans (by decide))
  · show (frameSize (recvBuf msg hfit) : ℤ) = _
    rw [frameSize_recvBuf]

/-- That of a login is at offset 24. -/
theorem decoded_accessAuth (hfit : msg.length ≤ 256)
    (h : deviceBranch r (recvBuf msg hfit) ((CArray.zero 256).overlay msg hfit) .accessAuth para
      fd w = some received) :
    Decoded msg 24 (sizeByte msg)
      (nodeData .accessAuth fd received.session received.tempBuf) := by
  cases h
  refine ⟨?_, ?_, fun i hi => getElem?_tempPayload hfit hi⟩
  · rw [key_nodeData]
    exact take_overlay_frameData hfit (by decide) (by decide)
      ((length_frameData_le ..).trans (by decide))
  · show (frameSize (recvBuf msg hfit) : ℤ) = _
    rw [frameSize_recvBuf]

theorem keyAfter_hb_iff (h : Decoded msg 9 (sizeByte msg - 9) data) :
    keyAfter .hb data w data.snArg.key = data.snArg.key ↔
      Resends .hb msg w data.snArg.key := by
  have hlt := sizeByte_lt msg
  show (if data.len % 256 = 0 then _ else data.buff.read NodeData.hbSN) = _ ↔ _ ∨ _
  rw [h.len]
  by_cases hshort : sizeByte msg ≤ 9
  · rw [if_pos (by omega)]
    exact iff_of_true rfl (.inl hshort)
  · rw [if_neg (by omega), or_iff_right hshort, h.key, CArray.read_eq_map h.buff]
    show (List.range 15).map (fun i => payloadAt msg (9 + i)) = _ ↔ _
    rw [List.map_inj_left]
    simp only [List.mem_range]
    constructor
    · intro hall i hi hlo hcut
      have hbyte := hall (i - 9) (by omega)
      rw [Nat.add_sub_cancel' hlo, payloadAt, if_neg (Nat.not_lt.mpr hcut)] at hbyte
      exact hbyte.symm
    · intro hall i hi
      rw [payloadAt]
      split
      · rfl
      · rename_i hcut
        exact (hall (9 + i) (by omega) (by omega) (Nat.not_lt.mp hcut)).symm

theorem keyAfter_cfmd_iff (h : Decoded msg 0 (sizeByte msg) data) :
    keyAfter .cfmd data w data.snArg.key = data.snArg.key ↔
      Resends .cfmd msg w data.snArg.key := by
  have hlt := sizeByte_lt msg
  have hstored : (data.buff.bytes.take (data.len % 256).toNat ++ List.replicate 15 0).take 15 =
      (List.range 15).map fun i => if i < sizeByte msg then byteAt msg (i + 2) else 0 := by
    have hlen : (data.len % 256).toNat = sizeByte msg := by
      rw [h.len]
      omega
    have htake : (data.buff.bytes.take (sizeByte msg)).length = sizeByte msg := by
      rw [List.length_take, data.buff.size]
      omega
    apply List.ext_getElem?
    intro i
    rw [hlen, List.getElem?_take, List.getElem?_map]
    by_cases hi : i < 15
    · rw [if_pos hi, List.getElem?_range hi, Option.map_some]
      by_cases hcut : i < sizeByte msg
      · rw [if_pos hcut, List.getElem?_append_left (by omega), List.getElem?_take_of_lt hcut,
          h.buff i (by omega), payloadAt, if_pos hcut]
      · rw [if_neg hcut, List.getElem?_append_right (by omega),
          List.getElem?_replicate_of_lt (by omega)]
    · rw [if_neg hi, List.getElem?_eq_none (by rw [List.length_range]; omega)]
      rfl
  show (data.buff.bytes.take (data.len % 256).toNat ++ List.replicate 15 0).take 15 = _ ↔ _
  rw [hstored, h.key, List.map_inj_left]
  simp only [List.mem_range, Nat.zero_add]
  constructor
  · intro hall i hi hcut
    have hbyte := hall i hi
    rw [if_neg (Nat.not_lt.mpr hcut)] at hbyte
    exact hbyte.symm
  · intro hall i hi
    split
    · rfl
    · rename_i hcut
      exact (hall i hi (Nat.not_lt.mp hcut)).symm

theorem keyAfter_accessAuth_iff (h : Decoded msg 24 (sizeByte msg) data) :
    keyAfter .accessAuth data w data.snArg.key = data.snArg.key ↔
      Resends .accessAuth msg w data.snArg.key := by
  have hmcc : requestMCC data = loginMCC msg := by
    have hread : data.buff.read NodeData.mcc = (List.range 4).map (payloadAt msg) := by
      rw [CArray.read_eq_map h.buff]
      show List.map (fun i => payloadAt msg (0 + i)) (List.range 4) = _
      simp only [Nat.zero_add]
    simp only [requestMCC, loginMCC, CArray.getInt, CArray.getNat, hread]
    rfl
  show (grantedIMSI (requestMCC data) w.deal).elim _ _ = _ ↔
    ∀ value, grantedIMSI (loginMCC msg) w.deal = some value → _
  rw [hmcc]
  cases grantedIMSI (loginMCC msg) w.deal with
  | none => exact iff_of_true rfl fun _ h => absurd h (Option.some_ne_none _).symm
  | some value =>
    show overKey value data.snArg.key = _ ↔ _
    rw [overKey_eq_iff data.snArg.length_key]
    constructor
    · intro hprefix value' hvalue
      obtain rfl := Option.some.inj hvalue
      exact hprefix
    · exact fun hall => hall value rfl

/-- The handler leaves the key of the message exactly if it resends it. -/
theorem keyAfter_eq_iff {cmd : Cmd} (hfit : msg.length ≤ 256)
    (h : deviceBranch r (recvBuf msg hfit) ((CArray.zero 256).overlay msg hfit) cmd para fd w =
      some received)
    (hdata : data = nodeData cmd fd received.session received.tempBuf) :
    keyAfter cmd data w data.snArg.key = data.snArg.key ↔
      Resends cmd msg w data.snArg.key := by
  cases cmd with
  | hb =>
    apply keyAfter_hb_iff
    rw [hdata]
    exact decoded_hb hfit h
  | cfmd =>
    apply keyAfter_cfmd_iff
    rw [hdata]
    exact decoded_cfmd hfit h
  | accessAuth =>
    apply keyAfter_accessAuth_iff
    rw [hdata]
    exact decoded_accessAuth hfit h
  | _ => exact iff_of_true rfl trivial

end Commands

/-- A heartbeat of the device `sn` whose `FrameSize` is `size`. -/
def heartbeat (size : UInt8) (sn : List UInt8) : List UInt8 :=
  [0x84, size] ++ List.replicate 9 0x11 ++ sn

end Tdm.Device
