import Tdm.Device.Handlers

/-!
# The frame of a granted login

A device reads the 40 bytes that answer its login by the layout of `TD_Result_t`. `decodeLogin`
is that reading; it gives back the members of the node, and the four bytes of an address that
was a dotted text on the way.
-/

namespace Tdm.Device

open Tdm.Lib Tdm.Common

/-! ## Addresses -/

/-- `Set_Dada_IP`. -/
def setDadaIPInto (para : CArray 12) (ip : List UInt8) : Option (CArray 12) :=
  if 20 ≤ ip.length then none
  else para.memcpy ((tokens 46 ip).map fun p => UInt8.ofNat (atoi p % 256).toNat)

/-- The text is four decimal numbers of at most 255 with dots between them, and fits
`IP[16]`; `address` are the numbers. -/
def DottedQuad (s address : List UInt8) : Prop :=
  s.length < 16 ∧ ∃ parts : List (List UInt8), parts.length = 4 ∧
    (∀ t ∈ parts, t ≠ [] ∧ (∀ c ∈ t, isDigit c = true) ∧ numeral 0 t ≤ 255) ∧
    s = [46].intercalate parts ∧ address = parts.map fun t => UInt8.ofNat (numeral 0 t)

theorem length_intercalate_four (a b c d : List UInt8) :
    ([46].intercalate [a, b, c, d]).length = a.length + b.length + c.length + d.length + 3 := by
  simp only [intercalate_cons_cons, List.length_append, List.length_cons]
  simp only [List.intercalate, List.intersperse, List.flatten_cons, List.flatten_nil,
    List.append_nil]
  omega

/-- What `PickUp_Data_Spm` stores for an address. -/
theorem dottedQuad_dotted {address : List UInt8} (h : address.length = 4) :
    DottedQuad (dotted address) address := by
  have hdot : text "." = [46] := by decide
  have hshort (b : UInt8) : (decimal b.toNat).length ≤ 3 :=
    length_decimalDigits_le _ (Nat.lt_trans b.toNat_lt (by decide))
  refine ⟨?_, address.map fun b => decimal b.toNat, by rw [List.length_map, h], ?_, ?_, ?_⟩
  · match address, h with
    | [a, b, c, d], _ =>
      unfold dotted
      rw [hdot]
      show ([46].intercalate [decimal a.toNat, decimal b.toNat, decimal c.toNat,
        decimal d.toNat]).length < 16
      rw [length_intercalate_four]
      have := hshort a
      have := hshort b
      have := hshort c
      have := hshort d
      omega
  · intro t ht
    obtain ⟨b, -, rfl⟩ := List.mem_map.mp ht
    refine ⟨decimal_ne_nil _, fun c hc => isDigit_of_mem_decimal hc, ?_⟩
    rw [numeral_decimal]
    exact Nat.le_of_lt_succ b.toNat_lt
  · unfold dotted
    rw [hdot]
  · rw [List.map_map]
    conv_lhs => rw [← List.map_id address]
    apply List.map_congr_left
    intro b _
    simp [numeral_decimal]

/-- `Set_Dada_IP` finds the numbers of a dotted quad and stores nothing else. -/
theorem setDadaIPInto_quad {s address : List UInt8} (h : DottedQuad s address) (para : CArray 12) :
    ∃ hlen : address.length ≤ 12, setDadaIPInto para s = some (para.overlay address hlen) := by
  obtain ⟨hshort, parts, hfour, hparts, rfl, rfl⟩ := h
  have htokens : tokens 46 ([46].intercalate parts) = parts := by
    apply tokens_intercalate
    intro t ht
    obtain ⟨hne, hdigits, -⟩ := hparts t ht
    refine ⟨hne, fun hdot => ?_⟩
    exact absurd (hdigits 46 hdot) (by decide)
  have hbytes : (parts.map fun p => UInt8.ofNat (atoi p % 256).toNat) =
      parts.map fun t => UInt8.ofNat (numeral 0 t) := by
    apply List.map_congr_left
    intro t ht
    obtain ⟨hne, hdigits, hle⟩ := hparts t ht
    rw [atoi_digits hne hdigits (by omega)]
    congr 1
    omega
  have hlen : (parts.map fun t => UInt8.ofNat (numeral 0 t)).length ≤ 12 := by
    rw [List.length_map, hfour]
    decide
  refine ⟨hlen, ?_⟩
  unfold setDadaIPInto
  rw [if_neg (by omega), htokens, hbytes, CArray.memcpy_of_le _ hlen]

/-! ## Reading the frame -/

/-- What a device reads from the answer to its login. -/
structure LoginAnswer where
  tag : UInt8
  length : ℕ
  status : UInt8
  imsi : List UInt8
  miniteRemain : ℤ
  needFile : ℕ
  ifRoam : ℕ
  vusimActiveFlag : ℕ
  dataClrFlag : ℕ
  threshold : ℕ
  simBankID : ℕ
  channelID : ℕ
  port : ℕ
  address : List UInt8
deriving DecidableEq

/-- A frame header and the members of the `TD_Result_t` behind it. -/
def readLogin (tag sizeL sizeH status : UInt8) (para : CArray 36) : LoginAnswer where
  tag := tag
  length := sizeL.toNat + 256 * sizeH.toNat
  status := status
  imsi := para.read TdResult.imsi
  miniteRemain := para.getInt TdResult.miniteRemain
  needFile := para.getNat TdResult.needFile
  ifRoam := para.getNat TdResult.unused1
  vusimActiveFlag := para.getNat TdResult.vusimActiveFlag
  dataClrFlag := para.getNat TdResult.dataClrFlag
  threshold := para.getNat TdResult.thresholdData
  simBankID := para.getNat TdResult.systemId
  channelID := para.getNat TdResult.channelId
  port := para.getNat TdResult.byteRemain
  address := para.read TdResult.ip

/-- A device reads 40 bytes. -/
def decodeLogin (frame : List UInt8) : Option LoginAnswer :=
  match frame with
  | tag :: sizeL :: sizeH :: status :: rest =>
    if h : rest.length = 36 then some (readLogin tag sizeL sizeH status ⟨rest, h⟩) else none
  | _ => none

/-- What a device is to be told about a node with this address. -/
def answerOf (node : DataSpm) (address : List UInt8) : LoginAnswer where
  tag := 0x91
  length := 36
  status := 0x31
  imsi := node.mem.read Member.imsi
  miniteRemain := node.mem.getNat Member.miniteRemain
  needFile := node.mem.getNat Member.needFile
  ifRoam := node.mem.getNat Member.ifRoam
  vusimActiveFlag := node.mem.getNat Member.vusimActiveFlag
  dataClrFlag :=
    if node.mem.getNat Member.orderType = 2 then 0 else node.mem.getNat Member.lastStart
  threshold := node.mem.getNat Member.threshold
  simBankID := node.mem.getNat Member.simBankID
  channelID := node.mem.getNat Member.channelID
  port := node.mem.getNat Member.port
  address := address

section Members
variable (node : DataSpm) (para1 : CArray 12)

/-- The bytes of the record that are not numbers. -/
theorem read_tdResult :
    (tdResult node para1).read TdResult.imsi = node.mem.read Member.imsi ∧
      (tdResult node para1).read TdResult.ip = para1.read dataIpIp := by
  unfold tdResult
  simp only
  split <;>
    simp (disch := decide) only [CArray.read_setNat_of_disjoint, CArray.read_copyField_of_disjoint,
      CArray.read_copyField_self, and_self]

/-- Every number of the record is that of its member of the node. -/
theorem getNat_tdResult :
    (tdResult node para1).getNat TdResult.miniteRemain = node.mem.getNat Member.miniteRemain ∧
      (tdResult node para1).getNat TdResult.needFile = node.mem.getNat Member.needFile ∧
      (tdResult node para1).getNat TdResult.unused1 = node.mem.getNat Member.ifRoam ∧
      (tdResult node para1).getNat TdResult.vusimActiveFlag =
        node.mem.getNat Member.vusimActiveFlag ∧
      (tdResult node para1).getNat TdResult.thresholdData = node.mem.getNat Member.threshold ∧
      (tdResult node para1).getNat TdResult.systemId = node.mem.getNat Member.simBankID ∧
      (tdResult node para1).getNat TdResult.channelId = node.mem.getNat Member.channelID ∧
      (tdResult node para1).getNat TdResult.byteRemain = node.mem.getNat Member.port := by
  unfold tdResult
  simp only
  split <;>
    simp (disch := decide) only [CArray.getNat_setNat_of_disjoint,
      CArray.getNat_copyField_of_disjoint, CArray.getNat_setNat_getNat, and_self]

/-- The flag is not stored for orders of type 2. -/
theorem getNat_dataClrFlag :
    (tdResult node para1).getNat TdResult.dataClrFlag =
      if node.mem.getNat Member.orderType = 2 then 0 else node.mem.getNat Member.lastStart := by
  have hzero : (CArray.zero 36).getNat TdResult.dataClrFlag = 0 := by decide
  unfold tdResult
  simp only
  by_cases h : node.mem.getNat Member.orderType = 2
  · rw [if_neg (not_not.mpr h), if_pos h]
    simp (disch := decide) only [CArray.getNat_setNat_of_disjoint,
      CArray.getNat_copyField_of_disjoint, hzero]
  · rw [if_pos h, if_neg h]
    simp (disch := decide) only [CArray.getNat_setNat_of_disjoint,
      CArray.getNat_copyField_of_disjoint, CArray.getNat_setNat_getNat]

end Members

/-! ## The round trip -/

/-- The node has no error, and its `IP` is what `PickUp_Data_Spm` makes of the address or any
other dotted text for it. -/
structure Granted (node : DataSpm) (address : List UInt8) : Prop where
  result : node.mem.getInt Member.result = 0
  ip : ∃ s, node.mem.cstrAt Member.ip = some s ∧
    ((address.length = 4 ∧ s = dotted address) ∨ DottedQuad s address)

variable {node : DataSpm} {address : List UInt8}

theorem Granted.quad (h : Granted node address) :
    ∃ s, node.mem.cstrAt Member.ip = some s ∧ DottedQuad s address := by
  obtain ⟨s, hip, ⟨hfour, rfl⟩ | hquad⟩ := h.ip
  · exact ⟨_, hip, dottedQuad_dotted hfour⟩
  · exact ⟨s, hip, hquad⟩

theorem DottedQuad.length_address {s : List UInt8} (h : DottedQuad s address) :
    address.length = 4 := by
  obtain ⟨-, parts, hfour, -, -, rfl⟩ := h
  rw [List.length_map, hfour]

/-- The first member of a `Data_IP` after the address was stored there. -/
theorem read_overlay_address (para : CArray 12) (h : address.length = 4)
    (hlen : address.length ≤ 12) : (para.overlay address hlen).read dataIpIp = address := by
  show ((address ++ para.bytes.drop address.length).drop 0).take 4 = address
  rw [List.drop_zero, List.take_append_of_le_length (by omega), List.take_of_length_le (by omega)]

/-- The frame of a granted login. -/
theorem accessAuthResultPack_granted (h : Granted node address) :
    ∃ para1 : CArray 12, para1.read dataIpIp = address ∧
      accessAuthResultPack node = some ([0x91, 36, 0, 0x31] ++ (tdResult node para1).bytes) := by
  obtain ⟨s, hip, hquad⟩ := h.quad
  obtain ⟨hlen, hset⟩ := setDadaIPInto_quad hquad (.zero 12)
  refine ⟨(CArray.zero 12).overlay address hlen,
    read_overlay_address _ hquad.length_address hlen, ?_⟩
  have hpositive : ¬ 0 < node.mem.getInt Member.result := by
    rw [h.result]
    exact Int.lt_irrefl 0
  unfold accessAuthResultPack
  simp only [if_neg hpositive, hip, Option.bind_eq_bind, Option.bind_some]
  rw [show setDadaIP s = setDadaIPInto (.zero 12) s from rfl, hset]
  rfl

theorem decodeLogin_record (para : CArray 36) :
    decodeLogin ([0x91, 36, 0, 0x31] ++ para.bytes) = some (readLogin 0x91 36 0 0x31 para) :=
  dif_pos para.size

theorem decodeLogin_tdResult (node : DataSpm) (para1 : CArray 12) :
    decodeLogin ([0x91, 36, 0, 0x31] ++ (tdResult node para1).bytes) =
      some (answerOf node (para1.read dataIpIp)) := by
  obtain ⟨himsi, haddress⟩ := read_tdResult node para1
  obtain ⟨hremain, hfile, hroam, hactive, hthreshold, hbank, hchannel, hport⟩ :=
    getNat_tdResult node para1
  have hflag := getNat_dataClrFlag node para1
  -- the two bytes of the node are stored in four, so the sign bit is clear
  have hint : (tdResult node para1).getInt TdResult.miniteRemain =
      node.mem.getNat Member.miniteRemain := by
    have hlt : node.mem.getNat Member.miniteRemain < 65536 :=
      node.mem.getNat_lt Member.miniteRemain
    rw [CArray.getInt, hremain, toSigned]
    exact if_pos (Nat.lt_trans hlt (by decide))
  rw [decodeLogin_record, readLogin, himsi, haddress, hint, hfile, hroam, hactive, hthreshold, hbank, hchannel,
    hport, hflag]
  rfl

/-- The answer to a granted login has 40 bytes and reads as what the node holds; two nodes
with the same answer are told apart by nothing it reads as; and `Set_Dada_IP` changes the
four address bytes only. -/
theorem login_frame_roundTrip (h : Granted node address) :
    ∃ frame, accessAuthResultPack node = some frame ∧ frame.length = 40 ∧
      decodeLogin frame = some (answerOf node address) ∧
      (∀ node' address', Granted node' address' → accessAuthResultPack node' = some frame →
        answerOf node' address' = answerOf node address) ∧
      ∀ (s : List UInt8) (para : CArray 12), node.mem.cstrAt Member.ip = some s →
        ∃ para', setDadaIPInto para s = some para' ∧ para'.read dataIpIp = address ∧
          para'.bytes.drop 4 = para.bytes.drop 4 := by
  obtain ⟨para1, rfl, hframe⟩ := accessAuthResultPack_granted h
  refine ⟨_, hframe, ?_, decodeLogin_tdResult node para1, ?_, ?_⟩
  · rw [List.length_append, (tdResult node para1).size]
    rfl
  · intro node' address' h' hframe'
    obtain ⟨para1', rfl, hpack⟩ := accessAuthResultPack_granted h'
    have hsame := Option.some.inj (hpack.symm.trans hframe')
    have hdecode := decodeLogin_tdResult node' para1'
    rw [hsame, decodeLogin_tdResult node para1] at hdecode
    exact (Option.some.inj hdecode).symm
  · intro s para hs
    obtain ⟨s', hip, hquad⟩ := h.quad
    obtain rfl := Option.some.inj (hip.symm.trans hs)
    obtain ⟨hlen, hset⟩ := setDadaIPInto_quad hquad para
    have hfour := hquad.length_address
    refine ⟨_, hset, read_overlay_address para hfour hlen, ?_⟩
    show (para1.read dataIpIp ++ para.bytes.drop (para1.read dataIpIp).length).drop 4 = _
    rw [hfour, ← hfour, List.drop_left]

/-- A node of zeros that holds an address. -/
def addressed : DataSpm :=
  ⟨(CArray.zero dataSpmSize).put 680 (text "10.0.200.1") (by decide), none⟩

theorem login_frame_roundTrip_addressed :
    ∃ frame, accessAuthResultPack addressed = some frame ∧
      decodeLogin frame = some (answerOf addressed [10, 0, 200, 1]) := by
  have hgranted : Granted addressed [10, 0, 200, 1] :=
    ⟨by decide +kernel, text "10.0.200.1", by decide +kernel, .inl ⟨rfl, by decide +kernel⟩⟩
  obtain ⟨frame, hframe, -, hdecode, -⟩ := login_frame_roundTrip hgranted
  exact ⟨frame, hframe, hdecode⟩

end Tdm.Device
