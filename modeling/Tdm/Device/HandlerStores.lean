import Tdm.Device.Dispatch
import Tdm.Device.LoginFrame
import Tdm.Device.HexCodec
import Tdm.Lib.Footprint

/-!
# What the handlers store

Each handler changes some members of the node and leaves the others alone.
-/

namespace Tdm.Device

open Tdm.Lib Tdm.Common

/-! ## The text of an IMSI -/

/-- `sIMSI` and the byte behind it, where the terminator of 18 digits lands. -/
def sIMSIText : Member := ⟨12, 19, by decide⟩

theorem setSIMSI_touches (node : DataSpm) {imsi : List UInt8} (h : imsi.length = 9) :
    ∃ node', setSIMSI node imsi = some node' ∧ node.mem.Touches [sIMSIText] node'.mem := by
  have hlen : (hex2String imsi ++ [0]).length = 19 := by
    rw [List.length_append, length_hex2String, h]
    rfl
  have hfit : Member.sIMSI.off + (hex2String imsi ++ [0]).length ≤ dataSpmSize := by
    rw [hlen]
    decide
  refine ⟨{ node with mem := node.mem.put _ _ hfit }, ?_, ?_⟩
  · rw [setSIMSI, DataSpm.copyTo, CArray.copyTo_of_le _ _ hfit, Option.map_some]
  · show node.mem.Touches _ (node.mem.put _ _ hfit)
    apply (CArray.Touches.refl _ _).put (List.mem_singleton_self sIMSIText)
    rw [hlen]
    decide

theorem read_setSIMSI {node node' : DataSpm} {imsi : List UInt8} (h : imsi.length = 9)
    (hset : setSIMSI node imsi = some node') :
    node'.mem.read Member.sIMSI = hex2String imsi := by
  obtain ⟨mem, hmem, rfl⟩ := Option.map_eq_some_iff.mp hset
  obtain ⟨hfit, rfl⟩ := CArray.copyTo_eq_some.mp hmem
  have hlen : (hex2String imsi).length = 18 := by rw [length_hex2String, h]
  show (node.mem.put Member.sIMSI.off _ hfit).read Member.sIMSI = _
  rw [CArray.read_put_of_covers _ _ hfit (Nat.le_refl _)
    (by rw [List.length_append, hlen]; decide), Nat.sub_self, List.drop_zero]
  exact List.take_left' hlen

/-! ## The SIM pool server -/

/-- `PickUp_Data_Spm` takes the last 12 bytes for an address. -/
def spmSeesTrailer (node : DataSpm) : Prop :=
  node.mem.getNat Member.cmdTag = Cmd.cmdTT.tag.toNat ∧
    (node.mem.getNat InBuff.apduLength : ℤ) ≠ (node.mem.getNat Member.len : ℤ) - 6

instance (node : DataSpm) : Decidable (spmSeesTrailer node) :=
  inferInstanceAs (Decidable (_ ∧ _))

/-- Storing an address and cutting it off the message. -/
def storeAddress (node : DataSpm) (d : CArray 12) (ip : List UInt8)
    (hfit : Member.ip.off + ip.length ≤ dataSpmSize) (len : ℤ) : DataSpm :=
  let node := { node with mem := node.mem.put Member.ip.off ip hfit }
  let node := node.setNat Member.port (d.getNat DataIP.port)
  let node := node.setNat Member.simBankID (d.getNat DataIP.systemId)
  let node := node.setNat Member.channelID (d.getNat DataIP.channelId)
  node.setInt Member.len len

def addressFields : List Member :=
  [Member.ip, Member.port, Member.simBankID, Member.channelID, Member.len]

/-- Every member of the address is there afterwards, and nothing else has changed. -/
theorem storeAddress_spec (node : DataSpm) (d : CArray 12) {ip : List UInt8}
    (hip : ip.length ≤ 16) (hfit : Member.ip.off + ip.length ≤ dataSpmSize) (len : ℤ) :
    node.mem.Touches addressFields (storeAddress node d ip hfit len).mem ∧
      (storeAddress node d ip hfit len).mem.getNat Member.len = (len % 256).toNat ∧
      ip <+: (storeAddress node d ip hfit len).mem.read Member.ip ∧
      (storeAddress node d ip hfit len).mem.getNat Member.port = d.getNat DataIP.port ∧
      (storeAddress node d ip hfit len).mem.getNat Member.simBankID =
        d.getNat DataIP.systemId ∧
      (storeAddress node d ip hfit len).mem.getNat Member.channelID =
        d.getNat DataIP.channelId := by
  let stored := node.mem.put Member.ip.off ip hfit
  have hmem : (storeAddress node d ip hfit len).mem =
      (((stored.setNat Member.port (d.getNat DataIP.port)).setNat Member.simBankID
        (d.getNat DataIP.systemId)).setNat Member.channelID
          (d.getNat DataIP.channelId)).setInt Member.len len := rfl
  have htouches : node.mem.Touches addressFields stored := by
    apply (CArray.Touches.refl _ _).put (g := Member.ip) (by simp [addressFields])
    exact ⟨Nat.le_refl _, Nat.add_le_add_left hip _⟩
  rw [hmem]
  refine ⟨?_, ?_, ?_, ?_, ?_, ?_⟩
  · apply CArray.Touches.setInt _ (by simp [addressFields])
    apply CArray.Touches.setNat _ (by simp [addressFields])
    apply CArray.Touches.setNat _ (by simp [addressFields])
    exact htouches.setNat (by simp [addressFields]) _
  · exact CArray.getNat_setInt_self ..
  · simp (disch := decide) only [CArray.setInt, CArray.read_setNat_of_disjoint]
    exact node.mem.prefix_read_put Member.ip hfit hip
  · simp (disch := decide) only [CArray.setInt, CArray.getNat_setNat_of_disjoint]
    exact CArray.getNat_setNat_getNat _ d (by decide)
  · simp (disch := decide) only [CArray.setInt, CArray.getNat_setNat_of_disjoint]
    exact CArray.getNat_setNat_getNat _ d (by decide)
  · simp (disch := decide) only [CArray.setInt, CArray.getNat_setNat_of_disjoint]
    exact CArray.getNat_setNat_getNat _ d (by decide)

/-- The address behind the message is stored and cut off. -/
theorem takeTrailer_of_sees {node : DataSpm} (h : spmSeesTrailer node) :
    (dotted ((trailer node).read dataIpIp) ++ [0]).length ≤ 16 ∧
      ∃ hfit, takeTrailer node = some (storeAddress node (trailer node)
        (dotted ((trailer node).read dataIpIp) ++ [0]) hfit
        ((node.mem.getNat Member.len : ℤ) - 12)) := by
  have hquad := dottedQuad_dotted ((trailer node).length_read dataIpIp)
  have hip : (dotted ((trailer node).read dataIpIp) ++ [0]).length ≤ 16 := by
    rw [List.length_append, List.length_singleton]
    exact hquad.1
  have hfit : Member.ip.off + (dotted ((trailer node).read dataIpIp) ++ [0]).length ≤
      dataSpmSize := (Nat.add_le_add_left hip 680).trans (by decide)
  refine ⟨hip, hfit, ?_⟩
  rw [spmSeesTrailer] at h
  simp only [takeTrailer]
  rw [if_pos h, DataSpm.copyTo, CArray.copyTo_of_le _ _ hfit]
  rfl

theorem takeTrailer_of_not {node : DataSpm} (h : ¬ spmSeesTrailer node) :
    takeTrailer node = some node := by
  rw [spmSeesTrailer] at h
  simp only [takeTrailer]
  rw [if_neg h]
  rfl

/-- The port `PickUp_Data_Spm` would connect to. -/
def spmPort (node : DataSpm) : ℕ :=
  if spmSeesTrailer node then (trailer node).getNat DataIP.port else node.mem.getNat Member.port

theorem takeTrailer_spec (node : DataSpm) :
    ∃ node', takeTrailer node = some node' ∧ node.mem.Touches addressFields node'.mem ∧
      node'.mem.getNat Member.port = spmPort node := by
  by_cases h : spmSeesTrailer node
  · obtain ⟨hip, hfit, htake⟩ := takeTrailer_of_sees h
    obtain ⟨htouches, -, -, hport, -⟩ := storeAddress_spec node (trailer node) hip hfit
      ((node.mem.getNat Member.len : ℤ) - 12)
    exact ⟨_, htake, htouches, by rw [hport, spmPort, if_pos h]⟩
  · exact ⟨node, takeTrailer_of_not h, .refl _ _, by rw [spmPort, if_neg h]⟩

/-- A signed byte fits an `int`. -/
theorem byte_in_int (node : DataSpm) {m : Member} (hm : m.size = 1) :
    -(2 : ℤ) ^ 31 ≤ node.mem.getInt m ∧ node.mem.getInt m < (2 : ℤ) ^ 31 := by
  have hlt := node.mem.getNat_lt m
  rw [hm] at hlt
  have hbounds := toSigned_bounds (w := 8) (by decide) hlt
  rw [CArray.getInt, hm]
  show _ ≤ toSigned 8 _ ∧ toSigned 8 _ < _
  omega

/-- The record is that of the node: its message, its IMSI and its slot. -/
structure NodeRecord (node : DataSpm) (data : CArray 152) : Prop where
  len : data.getNat TdmToSpm.len = node.mem.getNat Member.len
  buff : (node.mem.read Member.buff).take (node.mem.getNat Member.len) <+: data.read TdmToSpm.buff
  imsi : data.read TdmToSpm.imsi = node.mem.read Member.imsi
  simBankID : data.getInt TdmToSpm.simBankID = node.mem.getInt Member.simBankID
  channelID : data.getInt TdmToSpm.channelID = node.mem.getInt Member.channelID

/-- A message that fits `buff` leaves the slot of the record alone. -/
theorem tdmToSpm_of_short {node : DataSpm} (hlen : node.mem.getNat Member.len ≤ 127) :
    ∃ data, tdmToSpm node = some data ∧ NodeRecord node data := by
  let src := (node.mem.read Member.buff).take (node.mem.getNat Member.len)
  have hshort : src.length ≤ 127 := (List.length_take_le _ _).trans hlen
  have hfit : TdmToSpm.buff.off + src.length ≤ 152 := by
    show 17 + _ ≤ 152
    omega
  have hbank := byte_in_int node (m := Member.simBankID) rfl
  have hchannel := byte_in_int node (m := Member.channelID) rfl
  let numbers := (((CArray.zero 152).setNat TdmToSpm.cmd (node.mem.getNat Member.cmdTag)).setNat
    TdmToSpm.len (node.mem.getNat Member.len)).setInt TdmToSpm.simBankID
      (node.mem.getInt Member.simBankID)
  let ids := numbers.setInt TdmToSpm.channelID (node.mem.getInt Member.channelID)
  refine ⟨(ids.put TdmToSpm.buff.off src hfit).copyField TdmToSpm.imsi node.mem Member.imsi
    (by decide), ?_, ?_⟩
  · simp only [tdmToSpm]
    rw [CArray.copyTo_of_le _ _ hfit]
    rfl
  -- the copy of the message stays inside `buff`
  have hcopy : ids.Touches [TdmToSpm.buff] (ids.put TdmToSpm.buff.off src hfit) :=
    (CArray.Touches.refl _ _).put (List.mem_singleton_self _)
      ⟨Nat.le_refl _, Nat.add_le_add_left hshort _⟩
  have hread {g : Field 152} (hg : TdmToSpm.buff.Disjoint g) (hg' : TdmToSpm.imsi.Disjoint g) :
      ((ids.put TdmToSpm.buff.off src hfit).copyField TdmToSpm.imsi node.mem Member.imsi
        (by decide)).getNat g = ids.getNat g := by
    rw [CArray.getNat_copyField_of_disjoint _ _ _ _ hg', hcopy.getNat_eq (by simpa using hg)]
  constructor
  · rw [hread (by decide) (by decide)]
    simp (disch := decide) only [ids, numbers, CArray.setInt, CArray.getNat_setNat_of_disjoint]
    exact CArray.getNat_setNat_getNat _ _ (by decide)
  · rw [CArray.read_copyField_of_disjoint _ _ _ _ (by decide)]
    exact ids.prefix_read_put TdmToSpm.buff hfit hshort
  · rw [CArray.read_copyField_self]
  · rw [CArray.getInt, hread (by decide) (by decide), ← CArray.getInt]
    have hkeep : ids.getInt TdmToSpm.simBankID = numbers.getInt TdmToSpm.simBankID := by
      rw [CArray.getInt, CArray.getInt]
      simp (disch := decide) only [ids, CArray.setInt, CArray.getNat_setNat_of_disjoint]
    rw [hkeep]
    exact CArray.getInt_setInt_self _ (by decide) hbank.1 hbank.2
  · rw [CArray.getInt, hread (by decide) (by decide), ← CArray.getInt]
    exact CArray.getInt_setInt_self _ (by decide) hchannel.1 hchannel.2

/-- `PickUp_Data_Spm` behind the trailer: whether a connection has to be made or not. -/
theorem pickUpDataSpm_cases {node taken : DataSpm} (htake : takeTrailer node = some taken)
    (w : World) :
    ∃ asked : DataSpm, taken.mem.Touches [Member.socketSpm] asked.mem ∧
      ((w.connect ≠ .connected 1 ∧ ∃ picked, pickUpDataSpm node w = some picked ∧
          picked.record = none ∧ picked.node = asked) ∨
        ∃ socketSpm events, pickUpDataSpm node w =
          (tdmToSpm asked).map fun data => ⟨socketSpm, some data, asked, events⟩) := by
  let asked := taken.setInt Member.socketSpm (connectToServerTimeOut w.connect)
  have htouches : taken.mem.Touches [Member.socketSpm] asked.mem :=
    (CArray.Touches.refl _ _).setInt (List.mem_singleton_self _) _
  simp only [pickUpDataSpm]
  rw [htake, Option.bind_eq_bind, Option.bind_some]
  split
  · refine ⟨asked, htouches, ?_⟩
    split
    · rename_i hfailed
      refine .inl ⟨fun hconnected => ?_, _, rfl, rfl, rfl⟩
      rw [hconnected, DataSpm.setInt, CArray.getInt_setInt_self _ (by decide) (by decide)
        (by decide)] at hfailed
      exact absurd hfailed (by decide)
    · refine .inr ⟨asked.mem.getInt Member.socketSpm, w.connect.events, ?_⟩
      rw [Option.map_eq_bind]
      rfl
  · refine ⟨taken, .refl _ _, .inr ⟨taken.mem.getInt Member.socketSpm, [], ?_⟩⟩
    rw [Option.map_eq_bind]
    rfl

/-- What the exchange with the SIM pool server may change. -/
def exchangeFields : List Member := Member.socketSpm :: addressFields

theorem pickUpDataSpm_touches {node : DataSpm} {w : World} {picked : PickedUp}
    (h : pickUpDataSpm node w = some picked) :
    ∃ taken, takeTrailer node = some taken ∧
      taken.mem.Touches [Member.socketSpm] picked.node.mem := by
  obtain ⟨taken, htake, -, -⟩ := takeTrailer_spec node
  refine ⟨taken, htake, ?_⟩
  obtain ⟨asked, hasked, ⟨-, picked', hpicked, -, rfl⟩ | ⟨socketSpm, events, hpicked⟩⟩ :=
    pickUpDataSpm_cases htake w
  · obtain rfl := Option.some.inj (hpicked.symm.trans h)
    exact hasked
  · obtain ⟨data, -, rfl⟩ := Option.map_eq_some_iff.mp (hpicked.symm.trans h)
    exact hasked

/-- Behind the trailer an exchange only stores the socket. -/
theorem spmExchange_after {node node' : DataSpm} {n : ℕ} {w : World} {k : ℤ} {buf : CArray n}
    (h : spmExchange node n w = some (k, buf, node')) :
    ∃ taken, takeTrailer node = some taken ∧
      taken.mem.Touches [Member.socketSpm] node'.mem := by
  obtain ⟨picked, hpicked, h⟩ := Option.bind_eq_some_iff.mp h
  obtain ⟨taken, htake, htouches⟩ := pickUpDataSpm_touches hpicked
  have hset := htouches.setInt (List.mem_singleton_self _) picked.socketSpm
  refine ⟨taken, htake, ?_⟩
  dsimp only at h
  split at h
  · obtain ⟨-, -, rfl⟩ := Option.some.inj h
    exact hset
  · cases hx : w.spm with
    | sendFailed =>
      rw [hx] at h
      obtain ⟨-, -, rfl⟩ := Option.some.inj h
      exact hset.setInt (List.mem_singleton_self _) _
    | recvFailed stored =>
      rw [hx] at h
      obtain ⟨copy, -, h⟩ := Option.bind_eq_some_iff.mp h
      obtain ⟨-, -, rfl⟩ := Option.some.inj h
      exact hset.setInt (List.mem_singleton_self _) _
    | reply bytes _ =>
      rw [hx] at h
      obtain ⟨copy, -, h⟩ := Option.bind_eq_some_iff.mp h
      obtain ⟨-, -, rfl⟩ := Option.some.inj h
      exact hset

theorem spmExchange_touches {node node' : DataSpm} {n : ℕ} {w : World} {k : ℤ} {buf : CArray n}
    (h : spmExchange node n w = some (k, buf, node')) :
    node.mem.Touches exchangeFields node'.mem := by
  obtain ⟨taken, htake, hafter⟩ := spmExchange_after h
  obtain ⟨taken', htake', haddress, -⟩ := takeTrailer_spec node
  obtain rfl := Option.some.inj (htake.symm.trans htake')
  exact (haddress.mono (List.subset_cons_self _ _)).trans (hafter.mono (by simp))

/-! ## Transparent transmission -/

/-- The node as `Coding_With_CMDTT` passes it to `PickUp_Data_Spm`. -/
def cmdttStart (node : DataSpm) : Option DataSpm :=
  let node := node.setNat Member.type 1
  let node := node.setNat Member.ttCnt (node.mem.getNat InBuff.first)
  setSIMSI node (node.mem.read Member.imsi)

def cmdttFields : List Member := [Member.type, Member.ttCnt, sIMSIText]

theorem cmdttStart_touches (node : DataSpm) :
    ∃ node', cmdttStart node = some node' ∧ node.mem.Touches cmdttFields node'.mem := by
  let counted := (node.setNat Member.type 1).setNat Member.ttCnt
    ((node.setNat Member.type 1).mem.getNat InBuff.first)
  have hcounted : node.mem.Touches cmdttFields counted.mem :=
    ((CArray.Touches.refl _ _).setNat (by simp [cmdttFields]) _).setNat (by simp [cmdttFields]) _
  obtain ⟨node', hset, htouches⟩ :=
    setSIMSI_touches counted (counted.mem.length_read Member.imsi)
  refine ⟨node', hset, hcounted.trans (htouches.mono ?_)⟩
  simp [cmdttFields]

theorem cmdttStart_stores {node started : DataSpm} (h : cmdttStart node = some started) :
    started.mem.read Member.sIMSI = hex2String (node.mem.read Member.imsi) ∧
      started.mem.getNat Member.ttCnt = node.mem.getNat InBuff.first := by
  let typed := node.setNat Member.type 1
  let counted := typed.setNat Member.ttCnt (typed.mem.getNat InBuff.first)
  have himsi : counted.mem.read Member.imsi = node.mem.read Member.imsi := by
    rw [typed.read_setNat _ (by decide), node.read_setNat _ (by decide)]
  have hfirst : typed.mem.getNat InBuff.first = node.mem.getNat InBuff.first :=
    CArray.getNat_setNat_of_disjoint _ _ (by decide)
  have hlen := counted.mem.length_read Member.imsi
  obtain ⟨started', hset, htouches⟩ := setSIMSI_touches counted hlen
  obtain rfl := Option.some.inj (hset.symm.trans h)
  refine ⟨himsi ▸ read_setSIMSI hlen hset, ?_⟩
  rw [htouches.getNat_eq (by decide), ← hfirst]
  exact CArray.getNat_setNat_getNat _ _ (by decide)

/-- The frame of `Coding_With_CMDTT` when the SIM pool server has sent `sendbytes` bytes. -/
def cmdttFrame (first : UInt8) (sendbytes : ℤ) (recvBuf : CArray 520) : Option (List UInt8) :=
  if sendbytes = 1 then
    let result := (recvBuf.get 0).toNat
    if result ∈ [1, 2, 3, 4, 6, 7, 8] then some (ttResultPack recvBuf 1 first)
    else if result ∈ [5, 9, 10, 11] then some (ttResultPack recvBuf 2 first)
    else some (recvBuf.bytes.take 1)
  else if 1 < sendbytes then
    if 128 < sendbytes then none
    else some ([0x93, UInt8.ofNat sendbytes.toNat, 0, first] ++ recvBuf.bytes.take sendbytes.toNat)
  else some (ttResultPack recvBuf 1 first)

/-- `Coding_With_CMDTT` after the exchange: the frame is written, then the log record packed. -/
def cmdttAnswer (sendbytes : ℤ) (recvBuf : CArray 520) (node : DataSpm) : Option Handled := do
  let result := (recvBuf.get 0).toNat
  let frame ← cmdttFrame (UInt8.ofNat (node.mem.getNat InBuff.first)) sendbytes recvBuf
  let node := if sendbytes = 1 ∧ result ∈ [1, 2, 3, 4, 6, 7, 8] then
    node.setNat Member.result 3 else node
  let len : ℤ := if sendbytes = 1 then -result else if 1 < sendbytes then sendbytes else 0
  return (← ttLogPackData node len, [frame])

theorem codingWithCMDTT_eq (node : DataSpm) (w : World) :
    codingWithCMDTT node w = (cmdttStart node).bind fun node =>
      (spmExchange node 520 w).bind fun x => cmdttAnswer x.1 x.2.1 x.2.2 := by
  unfold codingWithCMDTT
  apply Option.bind_congr
  intro started _
  apply Option.bind_congr
  rintro ⟨sendbytes, recvBuf, node⟩ _
  simp only [cmdttAnswer, cmdttFrame]
  rcases eq_or_ne sendbytes 1 with hone | hone
  · subst hone
    simp only [true_and, if_true]
    split_ifs <;> rfl
  · simp only [hone, false_and, if_false]
    split_ifs <;> rfl

/-! ## Confirmations -/

/-- The remaining minutes are sent with the two bytes behind them. -/
theorem length_remain (node : DataSpm) :
    ((node.mem.bytes.drop Member.miniteRemain.off).take 4).length = 4 := by
  have hsize : node.mem.bytes.length = 912 := node.mem.size
  rw [List.length_take, List.length_drop, hsize]
  rfl

/-- `Coding_With_CFMD_Soeckt` once the deal is there. -/
def cfmdAnswer (version : ℕ) (mcc : ℤ) (state : ℕ) (w : World) (node : DataSpm) :
    Option Handled := do
  let remain := (node.mem.bytes.drop Member.miniteRemain.off).take 4
  if node.mem.getNat Member.miniteRemain ≠ 0 ∧ (state = 0 ∨ state = 2) ∧ mcc ≠ 0 then
    let (config, node) ← getConfigByMCC node w.speed
    let data := (config ++ List.replicate 200 0).take (if 1601080936 ≤ version then 40 else 240)
    let test := if 1605041005 ≤ version then node.mem.read Member.ifTest else []
    let payload := remain ++ data ++ test
    return (node, [[Cmd.cfmd.tag, UInt8.ofNat payload.length, 0, 0] ++ payload])
  else return (node, [[Cmd.cfmd.tag, 4, 0, 0] ++ remain])

theorem codingWithCFMDSocket_eq (node : DataSpm) (mcc : ℤ) (state : ℕ) (w : World) :
    codingWithCFMDSocket node mcc state w =
      (if mcc ≠ 0 then (dealProc node 1 w.deal).map Prod.snd else some node).bind
        (cfmdAnswer (node.mem.getNat Member.version) mcc state w) := by
  unfold codingWithCFMDSocket
  split <;> rfl

end Tdm.Device
