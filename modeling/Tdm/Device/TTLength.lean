import Tdm.Device.Rekey

/-!
# Lengths of transparent messages

`Coding_With_TT_Data` counts the payload of a `TAG_CMDTT` frame without its IMSI, and
`PickUp_Data_Spm` takes 12 bytes off that count if the length byte of the APDU does not account
for all of it. Nothing checks that there are 12 bytes, nor that the rest fits the record for the
SIM pool server. `ttLength_safe_iff` says for which frames both are so.
-/

namespace Tdm.Device

open Tdm.Lib Tdm.Common

/-- The lengths `PickUp_Data_Spm` works with stay in range: the trailer lies inside the message,
the length without it is not more than the length with it, and, whatever the world does, the
message fits `buff` of the record and leaves its slot alone. -/
structure LengthSafe (node : DataSpm) : Prop where
  inside : spmSeesTrailer node → 12 ≤ node.mem.getNat Member.len
  shorter : ∀ taken, takeTrailer node = some taken →
    taken.mem.getNat Member.len ≤ node.mem.getNat Member.len
  copied : ∀ w, ∃ picked, pickUpDataSpm node w = some picked ∧
    ∀ data, picked.record = some data → picked.node.mem.getNat Member.len ≤ 127 ∧
      data.getInt TdmToSpm.simBankID = picked.node.mem.getInt Member.simBankID ∧
      data.getInt TdmToSpm.channelID = picked.node.mem.getInt Member.channelID

/-! ## The node -/

section Node
variable {node taken : DataSpm}

theorem len_lt (node : DataSpm) : node.mem.getNat Member.len < 256 :=
  node.mem.getNat_lt Member.len

/-- The length without the trailer, in one byte. -/
theorem len_takeTrailer (h : takeTrailer node = some taken) :
    taken.mem.getNat Member.len =
      if spmSeesTrailer node then (((node.mem.getNat Member.len : ℤ) - 12) % 256).toNat
      else node.mem.getNat Member.len := by
  by_cases hsees : spmSeesTrailer node
  · obtain ⟨hip, hfit, htake⟩ := takeTrailer_of_sees hsees
    obtain rfl := Option.some.inj (htake.symm.trans h)
    rw [if_pos hsees]
    exact (storeAddress_spec node (trailer node) hip hfit _).2.1
  · obtain rfl := Option.some.inj ((takeTrailer_of_not hsees).symm.trans h)
    rw [if_neg hsees]

/-- The copy is in range for every world exactly if the length is; a world in which the SIM pool
server accepts the connection shows it. -/
theorem copied_iff (h : takeTrailer node = some taken) :
    (∀ w, ∃ picked, pickUpDataSpm node w = some picked ∧
      ∀ data, picked.record = some data → picked.node.mem.getNat Member.len ≤ 127 ∧
        data.getInt TdmToSpm.simBankID = picked.node.mem.getInt Member.simBankID ∧
        data.getInt TdmToSpm.channelID = picked.node.mem.getInt Member.channelID) ↔
      taken.mem.getNat Member.len ≤ 127 := by
  constructor
  · intro hall
    -- a server that can be reached makes `PickUp_Data_Spm` fill the record
    obtain ⟨picked, hpick, hrecord⟩ := hall { World.silent with connect := .connected 1 }
    obtain ⟨asked, htouches, ⟨hfailed, -⟩ | ⟨socketSpm, events, hcases⟩⟩ :=
      pickUpDataSpm_cases h { World.silent with connect := .connected 1 }
    · exact absurd rfl hfailed
    · obtain ⟨data, -, rfl⟩ := Option.map_eq_some_iff.mp (hcases.symm.trans hpick)
      rw [← htouches.getNat_eq (by decide)]
      exact (hrecord data rfl).1
  · intro hshort w
    obtain ⟨asked, htouches, ⟨-, picked, hpick, hnone, -⟩ | ⟨socketSpm, events, hcases⟩⟩ :=
      pickUpDataSpm_cases h w
    · refine ⟨picked, hpick, fun data hdata => ?_⟩
      rw [hnone] at hdata
      cases hdata
    · have hasked : asked.mem.getNat Member.len ≤ 127 := by
        rw [htouches.getNat_eq (by decide)]
        exact hshort
      obtain ⟨data, hdata, hrecord⟩ := tdmToSpm_of_short hasked
      rw [hdata, Option.map_some] at hcases
      refine ⟨_, hcases, fun data' hdata' => ?_⟩
      obtain rfl := Option.some.inj hdata'
      exact ⟨hasked, hrecord.simBankID, hrecord.channelID⟩

theorem lengthSafe_iff (node : DataSpm) :
    LengthSafe node ↔
      if spmSeesTrailer node then
        12 ≤ node.mem.getNat Member.len ∧ node.mem.getNat Member.len ≤ 139
      else node.mem.getNat Member.len ≤ 127 := by
  obtain ⟨taken, htake, -⟩ := takeTrailer_spec node
  have hlt := len_lt node
  have hlen := len_takeTrailer htake
  have hcopied := copied_iff htake
  by_cases hsees : spmSeesTrailer node
  · -- the twelve bytes of the trailer are cut off before the copy
    rw [if_pos hsees] at hlen ⊢
    constructor
    · intro h
      have hinside := h.inside hsees
      have hshort := hcopied.mp h.copied
      omega
    · rintro ⟨hlo, hhi⟩
      refine ⟨fun _ => hlo, ?_, hcopied.mpr (by omega)⟩
      intro taken' htake'
      obtain rfl := Option.some.inj (htake.symm.trans htake')
      omega
  · rw [if_neg hsees] at hlen ⊢
    constructor
    · intro h
      exact hlen ▸ hcopied.mp h.copied
    · intro hshort
      refine ⟨fun h => absurd h hsees, ?_, hcopied.mpr (hlen ▸ hshort)⟩
      intro taken' htake'
      obtain rfl := Option.some.inj (htake.symm.trans htake')
      exact Nat.le_of_eq hlen

end Node

/-! ## The message -/

/-- The bytes of a message behind its IMSI, counted. -/
def ttNum (msg : List UInt8) : ℕ := sizeByte msg - 9

/-- Byte `i` of `TempBuf`: of the payload behind the IMSI, or behind it of the message. -/
def ttAt (msg : List UInt8) (i : ℕ) : UInt8 :=
  if i < ttNum msg then byteAt msg (i + 11) else byteAt msg i

/-- If the length byte accounts for the whole message, it fits the record; otherwise it has a
trailer, and fits without it. -/
def TTLengthFits (msg : List UInt8) : Prop :=
  if ((ttAt msg 5).toNat : ℤ) ≠ (ttNum msg : ℤ) - 6 then 12 ≤ ttNum msg ∧ ttNum msg ≤ 139
  else ttNum msg ≤ 127

instance (msg : List UInt8) : Decidable (TTLengthFits msg) :=
  inferInstanceAs (Decidable (ite _ _ _))

/-- `TempBuf` when the payload behind the IMSI has been copied to it. -/
theorem getElem?_ttPayload {msg : List UInt8} (h : msg.length ≤ 256) {i : ℕ} (hi : i < 256) :
    (ttPayload (recvBuf msg h) ((CArray.zero 256).overlay msg h)).bytes[i]? =
      some (ttAt msg i) := by
  have hnum : frameNum (recvBuf msg h) = ttNum msg := by
    rw [frameNum, frameSize_recvBuf h, ttNum]
  have hlt := frameNum_lt (recvBuf msg h)
  have hdata : frameData (recvBuf msg h) 9 (ttNum msg) = _ :=
    frameData_recvBuf h (by omega)
  rw [ttPayload, CArray.getElem?_overlay]
  simp only [hnum, hdata, List.length_map, List.length_range, ttAt]
  by_cases hlt : i < ttNum msg
  · rw [if_pos hlt, if_pos hlt, List.getElem?_map, List.getElem?_range hlt]
    show some (byteAt msg (9 + i + 2)) = _
    rw [show 9 + i + 2 = i + 11 by omega]
  · rw [if_neg hlt, if_neg hlt]
    exact getElem?_zero_overlay h hi

/-- `Coding_With_TT_Data` stores the IMSI and the rest of the payload; the trailer matters for
`SN` only. -/
theorem codingWithTTData_stores {buf : CArray 512} {tempBuf tempBuf' : CArray 256}
    {para para' : Session} (h : codingWithTTData buf tempBuf para = some (para', tempBuf')) :
    para'.num = para.num ∧ tempBuf' = ttPayload buf tempBuf := by
  simp only [codingWithTTData] at h
  split at h
  · obtain ⟨data, -, h⟩ := Option.bind_eq_some_iff.mp h
    obtain ⟨sn, -, h⟩ := Option.bind_eq_some_iff.mp h
    cases h
    exact ⟨rfl, rfl⟩
  · cases h
    exact ⟨rfl, rfl⟩

/-- What is dispatched for a message of transparent data. -/
theorem decoded_cmdTT {r : Registry} {para : Session} {fd : ℤ} {w : World} {msg : List UInt8}
    {received : Received} (h : codingWithRecvData r para fd w msg = some received)
    (hout : received.outcome = .dispatch .cmdTT) :
    received.session.num = ttNum msg ∧
      ∀ i < 256, received.tempBuf.bytes[i]? = some (ttAt msg i) := by
  obtain ⟨-, hfit, hbranch⟩ := decoded_of_dispatch h hout
  obtain ⟨⟨para', tempBuf'⟩, hdata, hbranch⟩ := Option.bind_eq_some_iff.mp hbranch
  obtain ⟨hnum, rfl⟩ := codingWithTTData_stores hdata
  obtain rfl := Option.some.inj hbranch
  refine ⟨?_, fun i hi => getElem?_ttPayload hfit hi⟩
  show para'.num = _
  rw [hnum]
  show ((frameNum (recvBuf msg hfit) : ℕ) : ℤ) = _
  rw [frameNum, frameSize_recvBuf hfit, ttNum]

/-- For every message of transparent data, however long, and every node it is stored in:
`PickUp_Data_Spm` stays in range exactly if the message has a trailer of its own and fits without
it, or has none and fits as it is. -/
theorem ttLength_safe_iff {r : Registry} {para : Session} {fd : ℤ} {w : World} {msg : List UInt8}
    {received : Received} (h : codingWithRecvData r para fd w msg = some received)
    (hout : received.outcome = .dispatch .cmdTT) (node : DataSpm) :
    ∃ started, cmdttStart (receive node
        (nodeData .cmdTT fd received.session received.tempBuf)) = some started ∧
      (LengthSafe started ↔ TTLengthFits msg) := by
  obtain ⟨hnum, hbytes⟩ := decoded_cmdTT h hout
  let data := nodeData .cmdTT fd received.session received.tempBuf
  obtain ⟨started, hstart, htouches⟩ := cmdttStart_touches (receive node data)
  obtain ⟨hbuff, hlen, -⟩ := receive_spec node data
  refine ⟨started, hstart, ?_⟩
  have hlt : ttNum msg < 256 := by
    have := (byteAt msg 1).toNat_lt
    unfold ttNum sizeByte
    omega
  have hlen' : started.mem.getNat Member.len = ttNum msg := by
    rw [htouches.getNat_eq (by decide), hlen]
    show (received.session.num % 256).toNat = _
    rw [hnum]
    omega
  have hfive : started.mem.getNat InBuff.apduLength = (ttAt msg 5).toNat := by
    rw [htouches.getNat_eq (by decide)]
    apply CArray.getNat_of_byte rfl
    have hbyte := (receive node data).mem.getElem?_read Member.buff 5
    rw [hbuff, if_pos (by decide)] at hbyte
    exact hbyte.symm.trans (hbytes 5 (by decide))
  have htag : started.mem.getNat Member.cmdTag = Cmd.cmdTT.tag.toNat := by
    rw [htouches.getNat_eq (by decide), cmdTag_receive]
    rfl
  have hsees : spmSeesTrailer started ↔ ((ttAt msg 5).toNat : ℤ) ≠ (ttNum msg : ℤ) - 6 := by
    rw [spmSeesTrailer, htag, hfive, hlen']
    exact and_iff_right rfl
  rw [lengthSafe_iff, TTLengthFits, hlen']
  simp only [hsees]

/-- A frame of transparent data with this payload behind its IMSI. -/
def ttMessage (size : UInt8) (payload : List UInt8) : List UInt8 :=
  [0x83, size] ++ List.replicate 9 0x11 ++ payload

/-- An APDU with two bytes of data and no trailer. -/
theorem ttLength_safe_iff_apdu :
    ∃ received started, codingWithRecvData connectToMysqlInit anonymous 5 .silent
        (ttMessage 17 [0xA0, 0xD6, 0, 0, 2, 2, 0x10, 0x20]) = some received ∧
      cmdttStart (receive initDataSpm
        (nodeData .cmdTT 5 received.session received.tempBuf)) = some started ∧
      LengthSafe started := by
  let msg := ttMessage 17 [0xA0, 0xD6, 0, 0, 2, 2, 0x10, 0x20]
  have hrun : (codingWithRecvData connectToMysqlInit anonymous 5 .silent msg).map
      Received.outcome = some (.dispatch .cmdTT) := by decide +kernel
  obtain ⟨received, hrecv, hout⟩ := Option.map_eq_some_iff.mp hrun
  obtain ⟨started, hstart, hiff⟩ := ttLength_safe_iff hrecv hout initDataSpm
  exact ⟨received, started, hrecv, hstart, hiff.mpr (by decide)⟩

/-- Three bytes behind the IMSI: the trailer begins before the message, the length becomes 247
and the copy leaves the record. -/
theorem ttLength_wraps :
    ((codingWithRecvData connectToMysqlInit anonymous 5 .silent (ttMessage 12 [1, 2, 3])).bind
      fun received => (cmdttStart (receive initDataSpm
        (nodeData .cmdTT 5 received.session received.tempBuf))).bind fun started =>
      (takeTrailer started).map fun taken =>
        (received.outcome, started.mem.getNat Member.len, taken.mem.getNat Member.len,
          (pickUpDataSpm started { World.silent with connect := .connected 1 }).isSome)) =
      some (.dispatch .cmdTT, 3, 247, false) := by
  decide +kernel

end Tdm.Device
