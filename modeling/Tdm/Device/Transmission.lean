import Tdm.Device.HandlerStores
import Tdm.Device.LoginStores
import Tdm.Device.LoginFrame

/-!
# Transparent transmission

A frame of the command `TAG_CMDTT` holds the IMSI of a card, an APDU for it and, or not, the
address of the server that holds the card. Nothing says whether the address is there:
`Coding_With_TT_Data` and `PickUp_Data_Spm` both compare the length byte inside the APDU
with the length of the message, each with its own lengths and offsets.
-/

namespace Tdm.Device

open Tdm.Lib Tdm.Common

/-! ## Frames -/

structure TTFrame where
  imsi : List UInt8
  header : List UInt8
  data : List UInt8
  address : Option (CArray 12)
  imsi_length : imsi.length = 9
  header_length : header.length = 5
  data_short : 6 + data.length ≤ 127

namespace TTFrame

/-- Five bytes, the number of bytes behind it and these. -/
def apdu (f : TTFrame) : List UInt8 := f.header ++ UInt8.ofNat f.data.length :: f.data

def body (f : TTFrame) : List UInt8 := f.apdu ++ (f.address.map CArray.bytes).getD []

def payload (f : TTFrame) : List UInt8 := f.imsi ++ f.body

/-- The bytes of the frame as they are received. -/
def message (f : TTFrame) : List UInt8 :=
  Cmd.cmdTT.tag :: UInt8.ofNat f.payload.length :: f.payload

variable (f : TTFrame)

theorem length_apdu : f.apdu.length = 6 + f.data.length := by
  rw [apdu, List.length_append, f.header_length, List.length_cons]
  omega

theorem length_body : f.body.length = 6 + f.data.length + (if f.address.isSome then 12 else 0) := by
  rw [body, List.length_append, f.length_apdu]
  cases f.address with
  | none => rfl
  | some d =>
    show 6 + f.data.length + d.bytes.length = _
    rw [d.size]
    rfl

theorem length_body_le : f.body.length ≤ 139 := by
  have := f.data_short
  rw [f.length_body]
  split <;> omega

theorem length_payload : f.payload.length = 9 + f.body.length := by
  rw [payload, List.length_append, f.imsi_length]

/-- The length byte of the APDU. -/
theorem getElem?_body_five : f.body[5]? = some (UInt8.ofNat f.data.length) := by
  rw [body, apdu, List.append_assoc,
    List.getElem?_append_right (Nat.le_of_eq f.header_length), f.header_length]
  rfl

theorem toNat_length_byte : (UInt8.ofNat f.data.length).toNat = f.data.length := by
  have := f.data_short
  rw [UInt8.toNat_ofNat']
  omega

/-- The length byte tells whether there is an address. -/
theorem length_byte_ne_iff :
    ((UInt8.ofNat f.data.length).toNat : ℤ) ≠ (f.body.length : ℤ) - 6 ↔ f.address.isSome = true := by
  rw [f.toNat_length_byte, f.length_body]
  cases f.address with
  | none =>
    simp only [Option.isSome_none, Bool.false_eq_true, if_false, iff_false, ne_eq, not_not]
    omega
  | some d =>
    simp only [Option.isSome_some, if_true, iff_true, ne_eq]
    omega

/-- The address ends where the message ends. -/
theorem drop_body {d : CArray 12} (h : f.address = some d) :
    (f.body.drop (f.body.length - 12)).take 12 = d.bytes := by
  have hlen : f.body.length - 12 = f.apdu.length := by
    rw [f.length_body, f.length_apdu, h]
    rfl
  rw [hlen, body, h]
  show ((f.apdu ++ d.bytes).drop f.apdu.length).take 12 = d.bytes
  rw [List.drop_left, List.take_of_length_le (Nat.le_of_eq d.size)]

end TTFrame

/-! ## `Coding_With_TT_Data` -/

/-- `Coding_With_TT_Data` takes the last 12 bytes for an address. -/
def ttSeesTrailer (buf : CArray 512) (tempBuf : CArray 256) : Prop :=
  (((ttPayload buf tempBuf).get 5).toNat : ℤ) ≠ (frameNum buf : ℤ) - 6

section Ingress
variable {f : TTFrame} {buf : CArray 512} (hframe : f.message <+: buf.bytes)
include hframe

theorem frameSize_of_message : frameSize buf = f.payload.length := by
  obtain ⟨rest, hrest⟩ := hframe
  have hle := f.length_body_le
  have hlen := f.length_payload
  have hbyte : buf.get 1 = UInt8.ofNat f.payload.length := by
    rw [CArray.get, ← hrest]
    rfl
  rw [frameSize, hbyte, UInt8.toNat_ofNat']
  omega

theorem frameNum_of_message : frameNum buf = f.body.length := by
  rw [frameNum, frameSize_of_message hframe, f.length_payload]
  omega

theorem drop_two_of_message : ∃ rest, buf.bytes.drop 2 = f.imsi ++ (f.body ++ rest) := by
  obtain ⟨rest, hrest⟩ := hframe
  refine ⟨rest, ?_⟩
  rw [← hrest, ← List.append_assoc]
  rfl

theorem frameData_imsi : frameData buf 0 9 = f.imsi := by
  obtain ⟨rest, hrest⟩ := drop_two_of_message hframe
  rw [frameData, Nat.add_zero, hrest, ← f.imsi_length, List.take_left]

theorem frameData_body : frameData buf 9 (frameNum buf) = f.body := by
  obtain ⟨rest, hrest⟩ := drop_two_of_message hframe
  rw [frameData, ← List.drop_drop, hrest, ← f.imsi_length, List.drop_left,
    frameNum_of_message hframe, List.take_left]

theorem body_prefix_ttPayload (tempBuf : CArray 256) : f.body <+: (ttPayload buf tempBuf).bytes := by
  rw [ttPayload, CArray.bytes_overlay, frameData_body hframe]
  exact List.prefix_append ..

theorem ttSeesTrailer_iff (tempBuf : CArray 256) :
    ttSeesTrailer buf tempBuf ↔ f.address.isSome = true := by
  obtain ⟨rest, hrest⟩ := body_prefix_ttPayload hframe tempBuf
  have hlt : 5 < f.body.length := by
    rw [f.length_body]
    omega
  have hbyte : (ttPayload buf tempBuf).get 5 = UInt8.ofNat f.data.length := by
    rw [CArray.get, List.getD_eq_getElem?_getD, ← hrest, List.getElem?_append_left hlt,
      f.getElem?_body_five]
    rfl
  rw [ttSeesTrailer, hbyte, frameNum_of_message hframe]
  exact f.length_byte_ne_iff

theorem trailerOf_of_message {d : CArray 12} (hd : f.address = some d) :
    trailerOf buf = some d.bytes := by
  obtain ⟨rest, hrest⟩ := drop_two_of_message hframe
  have hlong : 18 ≤ f.body.length := by
    rw [f.length_body, hd]
    show 18 ≤ 6 + f.data.length + 12
    omega
  -- the 12 bytes are those before the end of the payload, which starts at byte 2
  have hoff : f.payload.length - 10 = 2 + (9 + (f.body.length - 12)) := by
    rw [f.length_payload]
    omega
  have hbytes : (buf.bytes.drop (f.payload.length - 10)).take 12 = d.bytes := by
    rw [hoff, ← List.drop_drop, hrest, ← f.imsi_length, ← List.drop_drop, List.drop_left,
      List.drop_append_of_le_length (Nat.sub_le ..), List.take_append_of_le_length]
    · exact f.drop_body hd
    · rw [List.length_drop]
      omega
  rw [trailerOf, frameSize_of_message hframe, if_neg (by rw [f.length_payload]; omega), hbytes]

end Ingress

/-! ## `PickUp_Data_Spm` -/

/-- The node holds the frame. -/
structure Holds (f : TTFrame) (node : DataSpm) : Prop where
  tag : node.mem.getNat Member.cmdTag = Cmd.cmdTT.tag.toNat
  len : node.mem.getNat Member.len = f.body.length
  buff : f.body <+: node.mem.read Member.buff
  imsi : node.mem.read Member.imsi = f.imsi

section Egress
variable {f : TTFrame} {node : DataSpm}

/-- What is stored elsewhere does not matter. -/
theorem Holds.touches {fs : List Member} {node' : DataSpm} (h : Holds f node)
    (ht : node.mem.Touches fs node'.mem)
    (hfs : ∀ m ∈ [Member.cmdTag, Member.len, Member.buff, Member.imsi], ∀ g ∈ fs,
      g.Disjoint m) : Holds f node' where
  tag := by
    rw [CArray.getNat, ht.read_eq (hfs _ (by simp))]
    exact h.tag
  len := by
    rw [CArray.getNat, ht.read_eq (hfs _ (by simp))]
    exact h.len
  buff := by
    rw [ht.read_eq (hfs _ (by simp))]
    exact h.buff
  imsi := by
    rw [ht.read_eq (hfs _ (by simp))]
    exact h.imsi

/-- The length byte of the APDU stands at byte 5 of `Buff`. -/
theorem Holds.apduLength (h : Holds f node) :
    node.mem.getNat InBuff.apduLength = (UInt8.ofNat f.data.length).toNat := by
  obtain ⟨rest, hrest⟩ := h.buff
  have hlt : 5 < f.body.length := by
    rw [f.length_body]
    omega
  have hread : node.mem.read InBuff.apduLength = [UInt8.ofNat f.data.length] := by
    rw [node.mem.read_within (f := Member.buff) (by decide) (by decide), ← hrest]
    show ((f.body ++ rest).drop 5).take 1 = _
    rw [List.take_one, List.head?_drop, List.getElem?_append_left hlt, f.getElem?_body_five]
    rfl
  rw [CArray.getNat, hread]
  show _ + 256 * 0 = _
  omega

theorem spmSeesTrailer_iff (h : Holds f node) :
    spmSeesTrailer node ↔ f.address.isSome = true := by
  rw [spmSeesTrailer, h.apduLength, h.len, and_iff_right h.tag]
  exact f.length_byte_ne_iff

theorem trailer_of_holds (h : Holds f node) {d : CArray 12} (hd : f.address = some d) :
    trailer node = d := by
  have hlong : f.body.length = 6 + f.data.length + 12 := by
    rw [f.length_body, hd]
    rfl
  have hle := f.length_body_le
  have hlen := h.len
  obtain ⟨rest, hrest⟩ := h.buff
  apply CArray.ext
  let last : Member := ⟨60 + f.body.length, 12, by show _ ≤ 912; omega⟩
  have hlast : (trailer node).bytes = node.mem.read last := by
    show (node.mem.bytes.drop (60 + node.mem.getNat Member.len)).take 12 = _
    rw [hlen]
    rfl
  have hoff : last.off - Member.buff.off = f.body.length - 12 := by
    show 60 + f.body.length - 72 = _
    omega
  rw [hlast, node.mem.read_within (f := Member.buff) (by show 72 ≤ 60 + _; omega)
    (by show 60 + _ + 12 ≤ 72 + 256; omega), hoff, ← hrest,
    List.drop_append_of_le_length (Nat.sub_le ..), List.take_append_of_le_length]
  · exact f.drop_body hd
  · rw [List.length_drop]
    show 12 ≤ _
    omega

/-- The node after the address was taken from the message, or not. -/
structure Addressed (f : TTFrame) (node node' : DataSpm) : Prop where
  len : node'.mem.getNat Member.len = f.apdu.length
  buff : f.apdu <+: node'.mem.read Member.buff
  imsi : node'.mem.read Member.imsi = f.imsi
  absent : f.address = none →
    node'.mem.read Member.ip = node.mem.read Member.ip ∧
      node'.mem.read Member.port = node.mem.read Member.port
  present {d : CArray 12} : f.address = some d →
    dotted (d.read dataIpIp) ++ [0] <+: node'.mem.read Member.ip ∧
      node'.mem.getNat Member.port = d.getNat DataIP.port ∧
      node'.mem.getNat Member.simBankID = d.getNat DataIP.systemId ∧
      node'.mem.getNat Member.channelID = d.getNat DataIP.channelId

theorem apdu_prefix_body (f : TTFrame) : f.apdu <+: f.body := List.prefix_append ..

/-- `PickUp_Data_Spm` takes exactly the address from the message. -/
theorem takeTrailer_addressed (h : Holds f node) :
    ∃ node', takeTrailer node = some node' ∧ Addressed f node node' ∧
      node'.mem.read Member.socketSpm = node.mem.read Member.socketSpm := by
  have hsees := spmSeesTrailer_iff h
  cases hd : f.address with
  | none =>
    have hnot : ¬ spmSeesTrailer node := by
      rw [hsees, hd]
      simp
    refine ⟨node, takeTrailer_of_not hnot, ?_, rfl⟩
    refine ⟨?_, (apdu_prefix_body f).trans h.buff, h.imsi, fun _ => ⟨rfl, rfl⟩, ?_⟩
    · rw [h.len, f.length_body, f.length_apdu, hd]
      rfl
    · intro d hd'
      rw [hd] at hd'
      cases hd'
  | some d =>
    obtain ⟨hip, hfit, htake⟩ := takeTrailer_of_sees (hsees.mpr (by rw [hd]; rfl))
    rw [trailer_of_holds h hd] at hip
    simp only [trailer_of_holds h hd] at hfit htake
    obtain ⟨htouches, hlen, hip', hport, hbank, hchannel⟩ :=
      storeAddress_spec node d hip hfit ((node.mem.getNat Member.len : ℤ) - 12)
    refine ⟨_, htake, ?_, htouches.read_eq (by decide)⟩
    refine ⟨?_, ?_, ?_, fun hnone => absurd (hd.symm.trans hnone) (by simp), ?_⟩
    · have hle := f.length_body_le
      have hbody := f.length_body
      rw [hd] at hbody
      rw [hlen, h.len, f.length_apdu, hbody]
      show ((((6 + f.data.length + 12 : ℕ) : ℤ) - 12) % 256).toNat = _
      have := f.data_short
      omega
    · rw [htouches.read_eq (by decide)]
      exact (apdu_prefix_body f).trans h.buff
    · rw [htouches.read_eq (by decide)]
      exact h.imsi
    · intro d' hd'
      rw [hd] at hd'
      cases hd'
      exact ⟨hip', hport, hbank, hchannel⟩

/-- What stands in the record apart from the ids, which are those of the node. -/
structure RecordOf (f : TTFrame) (node : DataSpm) (data : CArray 152) : Prop where
  len : data.getInt TdmToSpm.len = 6 + f.data.length
  buff : (data.read TdmToSpm.buff).take (6 + f.data.length) = f.apdu
  imsi : data.read TdmToSpm.imsi = f.imsi
  simBankID : data.getInt TdmToSpm.simBankID = node.mem.getInt Member.simBankID
  channelID : data.getInt TdmToSpm.channelID = node.mem.getInt Member.channelID

/-- The record of a node that holds an APDU. -/
theorem tdmToSpm_record (hlen : node.mem.getNat Member.len = f.apdu.length)
    (hbuff : f.apdu <+: node.mem.read Member.buff) (himsi : node.mem.read Member.imsi = f.imsi) :
    ∃ data, tdmToSpm node = some data ∧ RecordOf f node data := by
  have hshort : 6 + f.data.length ≤ 127 := f.data_short
  rw [f.length_apdu] at hlen
  have hsrc : (node.mem.read Member.buff).take (6 + f.data.length) = f.apdu := by
    rw [← f.length_apdu]
    exact (List.prefix_iff_eq_take.mp hbuff).symm
  obtain ⟨data, hdata, hrecord⟩ := tdmToSpm_of_short (hlen.trans_le hshort)
  refine ⟨data, hdata, ?_, ?_, hrecord.imsi.trans himsi, hrecord.simBankID, hrecord.channelID⟩
  · rw [CArray.getInt, hrecord.len, hlen, toSigned, if_pos (hshort.trans_lt (by decide))]
    exact Nat.cast_add 6 _
  · have hcopied := hrecord.buff
    rw [hlen, hsrc] at hcopied
    rw [← f.length_apdu]
    exact (List.prefix_iff_eq_take.mp hcopied).symm

/-- A new socket changes nothing the record is made from. -/
theorem tdmToSpm_socket {node' asked : DataSpm} (h : Addressed f node node')
    (ht : node'.mem.Touches [Member.socketSpm] asked.mem) :
    ∃ data, tdmToSpm asked = some data ∧ RecordOf f node' data := by
  have hlen : asked.mem.getNat Member.len = f.apdu.length := by
    rw [ht.getNat_eq (by decide)]
    exact h.len
  have hbuff : f.apdu <+: asked.mem.read Member.buff := by
    rw [ht.read_eq (by decide)]
    exact h.buff
  have himsi : asked.mem.read Member.imsi = f.imsi := by
    rw [ht.read_eq (by decide)]
    exact h.imsi
  obtain ⟨data, hdata, hrecord⟩ := tdmToSpm_record hlen hbuff himsi
  refine ⟨data, hdata, hrecord.len, hrecord.buff, hrecord.imsi, ?_, ?_⟩
  · rw [hrecord.simBankID, CArray.getInt, ht.getNat_eq (by decide)]
    rfl
  · rw [hrecord.channelID, CArray.getInt, ht.getNat_eq (by decide)]
    rfl

/-- `PickUp_Data_Spm` on a node that holds a frame. The record is there whenever a connection
can be made. -/
theorem pickUpDataSpm_record (h : Holds f node) (w : World) :
    ∃ picked node', pickUpDataSpm node w = some picked ∧ Addressed f node node' ∧
      node'.mem.Touches [Member.socketSpm] picked.node.mem ∧
      (∀ data, picked.record = some data → RecordOf f node' data) ∧
      (w.connect = .connected 1 → picked.record ≠ none) := by
  obtain ⟨node', htake, haddressed, -⟩ := takeTrailer_addressed h
  obtain ⟨asked, htouches, ⟨hfailed, picked, hpick, hnone, rfl⟩ | ⟨socketSpm, events, hpick⟩⟩ :=
    pickUpDataSpm_cases htake w
  · refine ⟨picked, node', hpick, haddressed, htouches, ?_, fun h => absurd h hfailed⟩
    intro data hdata
    rw [hnone] at hdata
    cases hdata
  · obtain ⟨data, hdata, hrecord⟩ := tdmToSpm_socket haddressed htouches
    rw [hdata, Option.map_some] at hpick
    refine ⟨_, node', hpick, haddressed, htouches, ?_, fun _ => Option.some_ne_none _⟩
    intro data' hdata'
    cases hdata'
    exact hrecord

end Egress

/-! ## From one to the other -/

/-- The IMSI of the message is stored unless the node has one already. -/
theorem receive_of_imsi {node : DataSpm} (hnode : node.mem.bytes[55]? ≠ some 0x80)
    (para : NodeData) :
    (receive node para).mem = ((((node.mem.setInt Member.cmdTag para.cmdTag).setInt Member.fd1
      para.fd).setInt Member.len para.len).copyField Member.buff para.buff NodeData.wholeBuff
        (by decide)).copyField Member.imsi para.imsi NodeData.imsi9 (by decide) := by
  have hbyte (a b : CArray dataSpmSize) (h : b.read Member.imsi = a.read Member.imsi) :
      b.bytes[55]? = a.bytes[55]? := by
    have hzero := congrArg (·[0]?) h
    simp only [CArray.getElem?_read] at hzero
    exact hzero
  simp only [receive]
  rw [if_pos]
  · rfl
  rw [hbyte node.mem]
  · exact hnode
  · rw [DataSpm.read_copyField _ _ _ _ (by decide), DataSpm.read_setInt _ _ (by decide),
      DataSpm.read_setInt _ _ (by decide), DataSpm.read_setInt _ _ (by decide)]

/-- A frame that was decoded into a `Node_Data` is held by the node afterwards. -/
theorem holds_receive {f : TTFrame} {node : DataSpm} (hnode : node.mem.bytes[55]? ≠ some 0x80)
    {para : NodeData} (htag : para.cmdTag = Cmd.cmdTT.tag.toNat) (hlen : para.len = f.body.length)
    (hbuff : f.body <+: para.buff.bytes) (himsi : para.imsi.read NodeData.imsi9 = f.imsi) :
    Holds f (receive node para) := by
  have hmem := receive_of_imsi hnode para
  constructor
  · rw [hmem]
    simp (disch := decide) only [CArray.setInt, CArray.getNat_copyField_of_disjoint,
      CArray.getNat_setNat_of_disjoint, CArray.getNat_setNat_self]
    rw [htag]
    rfl
  · rw [hmem, CArray.getNat_copyField_of_disjoint _ _ _ _ (by decide),
      CArray.getNat_copyField_of_disjoint _ _ _ _ (by decide), CArray.getNat_setInt_self, hlen]
    have := f.length_body_le
    show ((f.body.length : ℤ) % 256).toNat = _
    omega
  · rw [hmem, CArray.read_copyField_of_disjoint _ _ _ _ (by decide), CArray.read_copyField_self]
    show f.body <+: (para.buff.bytes.drop 0).take 256
    rwa [List.drop_zero, List.take_of_length_le (Nat.le_of_eq para.buff.size)]
  · rw [hmem, CArray.read_copyField_self, himsi]

/-- The number in an address makes a serial number that fits `SN[16]`. -/
def NumberFits (d : CArray 12) : Prop := (trailerSN (d.getNat DataIP.sn)).length < 16

theorem numberFits_iff (d : CArray 12) :
    NumberFits d ↔ (trailerSN (leNat (d.bytes.drop 8)) ++ [0]).length ≤ 16 := by
  have hread : d.read DataIP.sn = d.bytes.drop 8 := by
    apply List.take_of_length_le
    rw [List.length_drop, d.size]
    decide
  rw [NumberFits, CArray.getNat, hread, List.length_append, List.length_singleton]
  exact Iff.rfl

section Decode
variable {f : TTFrame} {buf : CArray 512} (hframe : f.message <+: buf.bytes)
  (tempBuf : CArray 256) (para : Session)
include hframe

/-- `Coding_With_TT_Data` stores the IMSI and the rest of the payload, and nothing but `SN`
depends on the address. -/
theorem codingWithTTData_of_message {para' : Session} {tempBuf' : CArray 256} :
    codingWithTTData buf tempBuf para = some (para', tempBuf') →
      (∃ sn, para' = { para.copyIMSI buf with sn }) ∧ tempBuf' = ttPayload buf tempBuf ∧
        ∀ d, f.address = some d → looksForTrailer (para.copyIMSI buf) = true → NumberFits d := by
  intro h
  simp only [codingWithTTData] at h
  split at h
  · rename_i hsees
    cases hd : f.address with
    | none =>
      have habsent := (ttSeesTrailer_iff hframe tempBuf).mp hsees.2
      rw [hd] at habsent
      cases habsent
    | some d =>
      rw [trailerOf_of_message hframe hd, Option.bind_eq_bind, Option.bind_some] at h
      obtain ⟨sn, hsn, h⟩ := Option.bind_eq_some_iff.mp h
      cases h
      refine ⟨⟨sn, rfl⟩, rfl, ?_⟩
      intro d' hd' _
      cases hd'
      obtain ⟨hlen, -⟩ := CArray.memcpy_eq_some.mp hsn
      exact (numberFits_iff d).mpr hlen
  · rename_i hsees
    cases h
    refine ⟨⟨(para.copyIMSI buf).sn, rfl⟩, rfl, ?_⟩
    intro d hd hlooks
    refine absurd ⟨hlooks, (ttSeesTrailer_iff hframe tempBuf).mpr ?_⟩ hsees
    rw [hd]
    rfl

theorem exists_codingWithTTData
    (hfits : ∀ d, f.address = some d → looksForTrailer (para.copyIMSI buf) = true →
      NumberFits d) :
    ∃ para' tempBuf', codingWithTTData buf tempBuf para = some (para', tempBuf') := by
  simp only [codingWithTTData]
  split
  · rename_i hsees
    obtain ⟨d, hd⟩ := Option.isSome_iff_exists.mp ((ttSeesTrailer_iff hframe tempBuf).mp hsees.2)
    rw [trailerOf_of_message hframe hd, Option.bind_eq_bind, Option.bind_some,
      CArray.memcpy_of_le _ ((numberFits_iff d).mp (hfits d hd hsees.1))]
    exact ⟨_, _, rfl⟩
  · exact ⟨_, _, rfl⟩

/-- The node of a dispatched frame holds the frame. -/
theorem holds_dispatched {node : DataSpm} (hnode : node.mem.bytes[55]? ≠ some 0x80) (fd : ℤ)
    (sn : CArray 16) :
    Holds f (receive node (nodeData .cmdTT fd
      { ({ para with num := frameNum buf }).copyIMSI buf with sn } (ttPayload buf tempBuf))) := by
  apply holds_receive hnode
  · rfl
  · show ((frameNum buf : ℕ) : ℤ) = _
    rw [frameNum_of_message hframe]
  · exact body_prefix_ttPayload hframe tempBuf
  · have htake : (para.copyIMSI buf).imsi.bytes.take 9 = f.imsi := by
      rw [Session.copyIMSI, CArray.bytes_overlay, frameData_imsi hframe, ← f.imsi_length,
        List.take_left]
    rw [imsi_nodeData]
    exact htake

end Decode

/-! ## Agreement -/

/-- The record holds the frame. -/
structure SpmRecord (f : TTFrame) (data : CArray 152) : Prop where
  len : data.getInt TdmToSpm.len = 6 + f.data.length
  buff : (data.read TdmToSpm.buff).take (6 + f.data.length) = f.apdu
  imsi : data.read TdmToSpm.imsi = f.imsi
  ids {d : CArray 12} : f.address = some d →
    data.getInt TdmToSpm.simBankID = d.getNat DataIP.systemId ∧
      data.getInt TdmToSpm.channelID = d.getNat DataIP.channelId

/-- The node has the address of the frame, or the one it had before if there is none. -/
structure NodeAddress (f : TTFrame) (node node' : DataSpm) : Prop where
  absent : f.address = none →
    node'.mem.read Member.ip = node.mem.read Member.ip ∧
      node'.mem.read Member.port = node.mem.read Member.port
  present {d : CArray 12} : f.address = some d →
    node'.mem.cstrAt Member.ip = some (dotted (d.read dataIpIp)) ∧
      node'.mem.getNat Member.port = d.getNat DataIP.port

/-- Both functions understand the frame in the same way, and as it was meant: decoded,
dispatched to `node` and passed to `PickUp_Data_Spm` it gives the record and the address. -/
def FormatAgrees (f : TTFrame) (buf : CArray 512) (tempBuf : CArray 256) (para : Session)
    (node : DataSpm) (fd : ℤ) : Prop :=
  ∃ para' tempBuf' node',
    codingWithTTData buf tempBuf { para with num := frameNum buf } = some (para', tempBuf') ∧
    cmdttStart (receive node (nodeData .cmdTT fd para' tempBuf')) = some node' ∧
    (looksForTrailer (para.copyIMSI buf) = true →
      (ttSeesTrailer buf tempBuf ↔ spmSeesTrailer node') ∧
        (spmSeesTrailer node' → trailerOf buf = some (trailer node').bytes)) ∧
    (spmSeesTrailer node' ↔ f.address.isSome = true) ∧
    ∀ w, ∃ picked, pickUpDataSpm node' w = some picked ∧
      (∀ data, picked.record = some data → SpmRecord f data) ∧
      NodeAddress f node picked.node

section Agreement
variable {f : TTFrame} {node node' : DataSpm}

/-- What the node knows of the server is not part of the message. -/
theorem read_started {m : Member} (para : NodeData)
    (hstart : (receive node para).mem.Touches cmdttFields node'.mem)
    (hm : ∀ g ∈ cmdttFields ++ [Member.cmdTag, Member.fd1, Member.len, Member.buff, Member.imsi],
      g.Disjoint m) : node'.mem.read m = node.mem.read m := by
  rw [hstart.read_eq fun g hg => hm g (List.mem_append_left _ hg)]
  exact read_receive node para fun g hg => hm g (List.mem_append_right _ hg)

theorem notMem_dotted (ip : List UInt8) : 0 ∉ dotted ip := by
  have hdot : text "." = [46] := by decide
  unfold dotted
  rw [hdot]
  apply notMem_intercalate (by decide)
  intro t ht hzero
  obtain ⟨b, -, rfl⟩ := List.mem_map.mp ht
  exact absurd (isDigit_of_mem_decimal hzero) (by decide)

/-- The address the node ends up with. -/
theorem nodeAddress_of_addressed {start picked : DataSpm} (para : NodeData)
    (hstart : (receive node para).mem.Touches cmdttFields start.mem)
    (haddressed : Addressed f start node')
    (hpicked : node'.mem.Touches [Member.socketSpm] picked.mem) :
    NodeAddress f node picked where
  absent hd := by
    obtain ⟨hip, hport⟩ := haddressed.absent hd
    rw [hpicked.read_eq (by decide), hpicked.read_eq (by decide), hip, hport,
      read_started para hstart (by decide), read_started para hstart (by decide)]
    exact ⟨rfl, rfl⟩
  present {d} hd := by
    obtain ⟨hip, hport, -, -⟩ := haddressed.present hd
    constructor
    · apply CArray.cstrAt_of_prefix (notMem_dotted _)
      rw [hpicked.read_eq (by decide)]
      exact hip
    · rw [CArray.getNat, hpicked.read_eq (by decide)]
      exact hport

/-- A signed byte is the id that was stored exactly if the id is less than 128. -/
theorem getInt_eq_iff {m : Member} (hm : m.size = 1) {v : ℕ}
    (h : node.mem.getNat m = v) : node.mem.getInt m = v ↔ v < 128 := by
  rw [CArray.getInt, hm, h]
  show toSigned 8 v = v ↔ v < 128
  unfold toSigned
  split
  · rename_i hlt
    exact iff_of_true rfl hlt
  · rename_i hge
    apply iff_of_false
    · omega
    · exact hge

end Agreement

section Frame
variable {f : TTFrame} {buf : CArray 512} (hframe : f.message <+: buf.bytes)
  {tempBuf : CArray 256} {para : Session} {node : DataSpm}
  (hnode : node.mem.bytes[55]? ≠ some 0x80) {fd : ℤ}
include hframe hnode

/-- What the address has to be like. -/
theorem address_of_formatAgrees : FormatAgrees f buf tempBuf para node fd →
    ∀ d, f.address = some d →
      (looksForTrailer (para.copyIMSI buf) = true → NumberFits d) ∧
        d.getNat DataIP.systemId < 128 ∧ d.getNat DataIP.channelId < 128 := by
  rintro ⟨para', tempBuf', node', hdecode, hstart, -, -, hpick⟩ d hd
  obtain ⟨⟨sn, rfl⟩, rfl, hfits⟩ := codingWithTTData_of_message hframe tempBuf _ hdecode
  refine ⟨hfits d hd, ?_⟩
  -- with a connection there is a record, and its ids are read from the node
  obtain ⟨started, hstarted, htouches⟩ := cmdttStart_touches (receive node (nodeData .cmdTT fd
    { ({ para with num := frameNum buf }).copyIMSI buf with sn } (ttPayload buf tempBuf)))
  cases hstarted.symm.trans hstart
  have hholds := (holds_dispatched hframe tempBuf para hnode fd sn).touches htouches (by decide)
  let w : World := { World.silent with connect := .connected 1 }
  obtain ⟨picked, addressed, hpicked, haddressed, -, hrecord, hbuilt⟩ :=
    pickUpDataSpm_record hholds w
  obtain ⟨picked', hpicked', hspm, -⟩ := hpick w
  cases hpicked.symm.trans hpicked'
  obtain ⟨data, hdata⟩ := Option.ne_none_iff_exists'.mp (hbuilt rfl)
  obtain ⟨-, -, hbank, hchannel⟩ := haddressed.present hd
  obtain ⟨hbankId, hchannelId⟩ := (hspm data hdata).ids hd
  rw [(hrecord data hdata).simBankID] at hbankId
  rw [(hrecord data hdata).channelID] at hchannelId
  exact ⟨(getInt_eq_iff rfl hbank).mp hbankId, (getInt_eq_iff rfl hchannel).mp hchannelId⟩

theorem formatAgrees_of_address : (∀ d, f.address = some d →
      (looksForTrailer (para.copyIMSI buf) = true → NumberFits d) ∧
        d.getNat DataIP.systemId < 128 ∧ d.getNat DataIP.channelId < 128) →
    FormatAgrees f buf tempBuf para node fd := by
  intro hcond
  obtain ⟨para', tempBuf', hdecode⟩ := exists_codingWithTTData hframe tempBuf
    { para with num := frameNum buf } fun d hd => (hcond d hd).1
  obtain ⟨⟨sn, rfl⟩, rfl, -⟩ := codingWithTTData_of_message hframe tempBuf _ hdecode
  obtain ⟨started, hstarted, htouches⟩ := cmdttStart_touches (receive node (nodeData .cmdTT fd
    { ({ para with num := frameNum buf }).copyIMSI buf with sn } (ttPayload buf tempBuf)))
  have hholds := (holds_dispatched hframe tempBuf para hnode fd sn).touches htouches (by decide)
  refine ⟨_, _, started, hdecode, hstarted, ?_, spmSeesTrailer_iff hholds, ?_⟩
  · intro _
    rw [ttSeesTrailer_iff hframe, spmSeesTrailer_iff hholds]
    refine ⟨Iff.rfl, fun hsome => ?_⟩
    obtain ⟨d, hd⟩ := Option.isSome_iff_exists.mp hsome
    rw [trailerOf_of_message hframe hd, trailer_of_holds hholds hd]
  · intro w
    obtain ⟨picked, addressed, hpicked, haddressed, hsocket, hrecord, -⟩ :=
      pickUpDataSpm_record hholds w
    refine ⟨picked, hpicked, ?_, nodeAddress_of_addressed _ htouches haddressed hsocket⟩
    intro data hdata
    obtain ⟨hlen, hbuff, himsi, hbank, hchannel⟩ := hrecord data hdata
    refine ⟨hlen, hbuff, himsi, ?_⟩
    intro d hd
    obtain ⟨-, hbankId, hchannelId⟩ := hcond d hd
    obtain ⟨-, -, hbank', hchannel'⟩ := haddressed.present hd
    rw [hbank, hchannel]
    exact ⟨(getInt_eq_iff rfl hbank').mpr hbankId, (getInt_eq_iff rfl hchannel').mpr hchannelId⟩

end Frame

/-- `Coding_With_TT_Data` and `PickUp_Data_Spm` agree on a frame, and the record is right,
exactly if the number in the address makes a serial number, where one is made, and its ids
are values of a signed `char`. -/
theorem formatAgrees_iff (f : TTFrame) {buf : CArray 512} (hframe : f.message <+: buf.bytes)
    (tempBuf : CArray 256) (para : Session) {node : DataSpm}
    (hnode : node.mem.bytes[55]? ≠ some 0x80) (fd : ℤ) :
    FormatAgrees f buf tempBuf para node fd ↔
      ∀ d, f.address = some d →
        (looksForTrailer (para.copyIMSI buf) = true → NumberFits d) ∧
          d.getNat DataIP.systemId < 128 ∧ d.getNat DataIP.channelId < 128 :=
  ⟨address_of_formatAgrees hframe hnode, formatAgrees_of_address hframe hnode⟩

/-- A frame for a card of the range whose devices are named by the address. -/
def sampleFrame (systemId : UInt8) : TTFrame where
  imsi := [0x80, 0x91, 0, 0, 0, 0, 0, 0, 0]
  header := [0, 0xA4, 0, 0, 2]
  data := [0x3F, 0]
  address := some ⟨[10, 0, 0, 1, 0x88, 0x13, systemId, 2, 0xF0, 0x5B, 0x7C, 0], rfl⟩
  imsi_length := rfl
  header_length := rfl
  data_short := by decide

/-- A record of a session in which nothing has been received. -/
def newSession : Session := ⟨0, .zero 16, [], none, .zero 12, none⟩

/-- `buf` with the sample in it. -/
def sampleBuf (systemId : UInt8) : CArray 512 :=
  recvBuf (sampleFrame systemId).message (by show 31 ≤ 256; decide)

theorem message_sampleBuf (systemId : UInt8) :
    (sampleFrame systemId).message <+: (sampleBuf systemId).bytes := by
  rw [sampleBuf, recvBuf, CArray.bytes_overlay]
  exact List.prefix_append ..

theorem formatAgrees_iff_sample :
    looksForTrailer (newSession.copyIMSI (sampleBuf 3)) = true ∧
      FormatAgrees (sampleFrame 3) (sampleBuf 3) (.zero 256) newSession initDataSpm 5 := by
  refine ⟨by decide +kernel, ?_⟩
  have hnode : initDataSpm.mem.bytes[55]? ≠ some 0x80 := by decide +kernel
  apply (formatAgrees_iff (sampleFrame 3) (message_sampleBuf 3) (.zero 256) newSession
    hnode 5).mpr
  intro d hd
  cases hd
  unfold NumberFits
  decide +kernel

/-- The system with number 200 is number -56 in the record. -/
theorem systemId_signed :
    ((codingWithTTData (sampleBuf 200) (.zero 256)
        { newSession with num := frameNum (sampleBuf 200) }).bind fun (para, tempBuf) =>
      (cmdttStart (receive initDataSpm (nodeData .cmdTT 5 para tempBuf))).bind fun node =>
      (pickUpDataSpm node { World.silent with connect := .connected 1 }).bind fun picked =>
      picked.record.map (·.getInt TdmToSpm.simBankID)) = some (-56) ∧
    ¬ FormatAgrees (sampleFrame 200) (sampleBuf 200) (.zero 256) newSession initDataSpm 5 := by
  refine ⟨by decide +kernel, ?_⟩
  intro h
  obtain ⟨-, hsystem, -⟩ :=
    address_of_formatAgrees (message_sampleBuf 200) (by decide +kernel) h _ rfl
  exact absurd hsystem (by decide)

end Tdm.Device
