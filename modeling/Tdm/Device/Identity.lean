import Tdm.Device.HandlerStores
import Tdm.Device.GrantedLogin

/-!
# Who a node belongs to

The first 15 bytes of `SN` say whose node it is, and `fd1` on which descriptor the device
was heard last. Most of the code that handles a message leaves both alone (`Spares`). The
exceptions are `Coding_With_HB` and `Coding_With_CFMD`, which store the serial number of
the message again, the text of an IMSI that a deal grants, which is copied with its own
length and may reach `SN`, and `Coding_With_LogOut`, which clears `fd1`.
-/

namespace Tdm.Device

open Tdm.Lib Tdm.Common

/-- The key and `fd1` are as they were. -/
structure Spares (node node' : DataSpm) : Prop where
  key : node'.key = node.key
  fd1 : node'.mem.read Member.fd1 = node.mem.read Member.fd1

/-- A member that shares no byte with the key or with `fd1`. -/
def Member.Apart (f : Member) : Prop := f.Disjoint Member.key ∧ f.Disjoint Member.fd1

instance (f : Member) : Decidable (Member.Apart f) := inferInstanceAs (Decidable (_ ∧ _))

namespace Spares

variable {node node' node'' : DataSpm}

theorem refl (node : DataSpm) : Spares node node := ⟨rfl, rfl⟩

theorem trans (h : Spares node node') (h' : Spares node' node'') : Spares node node'' :=
  ⟨h'.key.trans h.key, h'.fd1.trans h.fd1⟩

theorem of_touches {fs : List Member} (h : node.mem.Touches fs node'.mem)
    (hfs : ∀ f ∈ fs, Member.Apart f) : Spares node node' :=
  ⟨h.read_eq fun f hf => (hfs f hf).1, h.read_eq fun f hf => (hfs f hf).2⟩

theorem setNat (h : Spares node node') {f : Member} (hf : Member.Apart f) (v : ℕ) :
    Spares node (node'.setNat f v) :=
  h.trans ⟨node'.read_setNat v hf.1, node'.read_setNat v hf.2⟩

theorem setInt (h : Spares node node') {f : Member} (hf : Member.Apart f) (v : ℤ) :
    Spares node (node'.setInt f v) := h.setNat hf _

theorem copyField (h : Spares node node') {f : Member} (hf : Member.Apart f) {m : ℕ}
    (b : CArray m) (g : Field m) (hg : g.size = f.size) :
    Spares node (node'.copyField f b g hg) :=
  h.trans ⟨node'.read_copyField b g hg hf.1, node'.read_copyField b g hg hf.2⟩

/-- A text stored behind `SN`, of any length. -/
theorem copyTo (h : Spares node node') {f : Member} {src : List UInt8}
    (hcopy : node'.copyTo f src = some node'') (hf : 47 ≤ f.off) : Spares node node'' := by
  obtain ⟨mem, hmem, rfl⟩ := Option.map_eq_some_iff.mp hcopy
  obtain ⟨hfit, rfl⟩ := CArray.copyTo_eq_some.mp hmem
  have hread : ∀ g : Member, g.off + g.size ≤ 47 →
      (node'.mem.put f.off src hfit).read g = node'.mem.read g := fun g hg =>
    node'.mem.read_put_of_disjoint g hfit (.inl (hg.trans hf))
  exact h.trans ⟨hread Member.key (by decide), hread Member.fd1 (by decide)⟩

theorem closeSocketFd (h : Spares node node') :
    Spares node (closeSocketFd node' Member.socketSpm) :=
  h.trans ⟨read_closeSocketFd node' (by decide), read_closeSocketFd node' (by decide)⟩

/-- One of two ways on. -/
theorem ite {c : Prop} [Decidable c] (h : Spares node node') (h' : Spares node node'') :
    Spares node (if c then node' else node'') := by
  split
  · exact h
  · exact h'

end Spares

/-! ## Deals -/

section Deals
variable {node node' : DataSpm} {src dst : List UInt8} {x : Exchange} {cnt : ℤ}

theorem spares_simAllocateErr (code : SimAllocErrCode) (node : DataSpm) :
    Spares node (simAllocateErr code node).2 :=
  .of_touches (touches_simAllocateErr code node) (by decide)

/-- `Get_Deal_From_SimPool` returns 0 exactly if the backend does. -/
theorem getDealFromSimPool_spec (h : getDealFromSimPool node x = some (cnt, node', dst)) :
    Spares node node' ∧ ∃ c, getDealFromSimPoolSocket x = some (c, dst) ∧ (cnt = 0 ↔ c = 0) := by
  refine ⟨.of_touches (touches_getDealFromSimPool h) (by decide), ?_⟩
  obtain ⟨c, hsocket, ⟨hc, hcnt, -⟩ | ⟨hc, hcnt, -⟩⟩ := getDealFromSimPool_cases h
  · exact ⟨c, hsocket, iff_of_true hcnt hc⟩
  · exact ⟨c, hsocket, iff_of_false (hcnt ▸ refusal_value_ne_zero c) hc⟩

/-- `Get_Data_From_Deal` reaches the key with the text of the IMSI only. -/
theorem getDataFromDeal_split (h : getDataFromDeal src node = some node') :
    ∃ before after, Spares node before ∧ getKeyValueIMSI src before = some after ∧
      Spares after node' := by
  rw [getDataFromDeal_phases] at h
  obtain ⟨numbered, hnumbers, h⟩ := Option.bind_eq_some_iff.mp h
  obtain ⟨flagged, hflags, h⟩ := Option.bind_eq_some_iff.mp h
  obtain ⟨factory, hfactory, h⟩ := Option.bind_eq_some_iff.mp h
  obtain ⟨carded, hcard, h⟩ := Option.bind_eq_some_iff.mp h
  obtain ⟨named, himsi, hnet⟩ := Option.bind_eq_some_iff.mp h
  refine ⟨carded, named, ?_, himsi, .of_touches (touches_dealNet hnet) (by decide)⟩
  exact (Spares.of_touches (dealNumbers_spec hnumbers).1 (by decide))
    |>.trans (.of_touches (dealFlags_spec hflags).1 (by decide))
    |>.trans (.of_touches (touches_getKeyValueFactory hfactory) (by decide))
    |>.trans (.of_touches (touches_dealCard hcard) (by decide))

theorem spares_dealProc {type : ℤ} (h : dealProc node type x = some (cnt, node')) :
    Spares node node' := .of_touches (touches_dealProc h) (by decide)

theorem spares_noteMCC (node : DataSpm) : Spares node (noteMCC node) := by
  unfold noteMCC
  have hclose := (Spares.refl node).closeSocketFd
  have hmcc : Spares node (if (closeSocketFd node Member.socketSpm).mem.getInt Member.authMCC = 0
      then (closeSocketFd node Member.socketSpm).setInt Member.authMCC 460
      else closeSocketFd node Member.socketSpm) :=
    .ite (hclose.setInt (by decide) _) hclose
  exact .ite (hmcc.setInt (by decide) _) hmcc

/-! ## The text of an IMSI -/

/-- The key behind a text of an IMSI: what the text has from its 21st byte on lies over it. -/
def overKey (value key : List UInt8) : List UInt8 :=
  (value.drop 20).take 15 ++ key.drop (value.length - 20)

/-- `Get_Key_Value_IMSI`. -/
theorem getKeyValueIMSI_key (h : getKeyValueIMSI src node = some node') :
    node'.key = ((getKey src (text "IMSI")).join.elim node.key fun value =>
      overKey value node.key) ∧
      node'.mem.read Member.fd1 = node.mem.read Member.fd1 := by
  obtain ⟨found, hfound, h⟩ := Option.bind_eq_some_iff.mp h
  rw [hfound]
  cases found with
  | none =>
    cases h
    exact ⟨rfl, rfl⟩
  | some value =>
    obtain ⟨stored, hstored, h⟩ := Option.bind_eq_some_iff.mp h
    obtain ⟨mem, hmem, rfl⟩ := Option.map_eq_some_iff.mp hstored
    obtain ⟨hfit, rfl⟩ := CArray.copyTo_eq_some.mp hmem
    have hhex := (Spares.refl _).copyTo h (by decide)
    refine ⟨hhex.key.trans (node.mem.read_put_over Member.key hfit (by decide)), hhex.fd1.trans ?_⟩
    exact node.mem.read_put_of_disjoint Member.fd1 hfit (.inl (by decide))

/-- The text of the IMSI that the backend grants a login from country `mcc`. -/
def grantedIMSI (mcc : ℕ) (x : Exchange) : Option (List UInt8) :=
  if redirected mcc then none
  else (getDealFromSimPoolSocket x).bind fun (cnt, dst) =>
    if cnt = 0 then (getKey dst (text "IMSI")).join else none

/-- `Get_Deal_From_Remote` for a request from country `mcc`. -/
theorem getDealFromRemote_key {mcc : ℕ} (hmcc : (noteMCC node).mem.getNat Member.mcc = mcc)
    (h : getDealFromRemote node x = some (cnt, node')) :
    node'.key = ((grantedIMSI mcc x).elim node.key fun value => overKey value node.key) ∧
      node'.mem.read Member.fd1 = node.mem.read Member.fd1 := by
  have hnote := spares_noteMCC node
  unfold getDealFromRemote at h
  dsimp only at h
  rw [hmcc] at h
  unfold grantedIMSI
  split at h
  · rename_i hred
    obtain ⟨stored, hstored, h⟩ := Option.bind_eq_some_iff.mp h
    rw [if_pos hred]
    have hspares : Spares node stored :=
      (hnote.setNat (f := Member.factoryFlag) (by decide) 1).copyTo hstored (by decide)
    obtain ⟨-, rfl⟩ := Prod.mk.inj (Option.some.inj h)
    have herr := hspares.trans (spares_simAllocateErr .ipChange stored)
    exact ⟨herr.key, herr.fd1⟩
  · rename_i hred
    obtain ⟨stored, hstored, h⟩ := Option.bind_eq_some_iff.mp h
    obtain ⟨⟨cnt', asked, dst⟩, hasked, h⟩ := Option.bind_eq_some_iff.mp h
    rw [if_neg hred]
    obtain ⟨hasked, c, hsocket, hc⟩ := getDealFromSimPool_spec hasked
    have hspares : Spares node asked := (hnote.copyTo hstored (by decide)).trans hasked
    rw [hsocket, Option.bind_some]
    dsimp only at h ⊢
    split at h
    · rename_i hcnt
      cases h
      rw [if_neg fun hzero => hcnt (hc.mpr hzero)]
      exact ⟨hspares.key, hspares.fd1⟩
    · rename_i hcnt
      rw [if_pos (hc.mp (not_not.mp hcnt))]
      obtain ⟨dealt, hdealt, h⟩ := Option.bind_eq_some_iff.mp h
      obtain ⟨before, after, hbefore, himsi, hafter⟩ := getDataFromDeal_split hdealt
      obtain ⟨hkey, hfd1⟩ := getKeyValueIMSI_key himsi
      have hgranted : Spares after node' := by
        split at h
        · obtain ⟨-, rfl⟩ := Prod.mk.inj (Option.some.inj h)
          exact hafter.trans (spares_simAllocateErr .ipChange dealt)
        · cases h
          exact hafter
      have hpast := hspares.trans hbefore
      rw [hpast.key] at hkey
      exact ⟨hgranted.key.trans hkey, hgranted.fd1.trans (hfd1.trans hpast.fd1)⟩

end Deals

/-! ## The SIM pool server -/

section Exchanges
variable {node node' : DataSpm} {w : World} {frames : List (List UInt8)}

theorem spares_setSIMSI {imsi : List UInt8} (himsi : imsi.length = 9)
    (h : setSIMSI node imsi = some node') : Spares node node' := by
  obtain ⟨stored, hstored, htouches⟩ := setSIMSI_touches node himsi
  rw [hstored] at h
  cases h
  exact .of_touches htouches (by decide)

theorem spares_spmExchange {n : ℕ} {k : ℤ} {buf : CArray n}
    (h : spmExchange node n w = some (k, buf, node')) : Spares node node' :=
  .of_touches (spmExchange_touches h) (by decide)

theorem spares_codingWithSimfileRequest
    (h : codingWithSimfileRequest node w = some (node', frames)) : Spares node node' := by
  obtain ⟨⟨k, buf, exchanged⟩, hspm, h⟩ := Option.bind_eq_some_iff.mp h
  have hspares := spares_spmExchange hspm
  dsimp only at h
  split at h <;> cases h <;> exact hspares

theorem spares_ttLogPackData {len : ℤ} (h : ttLogPackData node len = some node') :
    Spares node node' := by
  unfold ttLogPackData at h
  split at h
  · cases h
  · cases h
    exact (Spares.refl node).setNat (by decide) _

theorem spares_codingWithCMDTT (h : codingWithCMDTT node w = some (node', frames)) :
    Spares node node' := by
  rw [codingWithCMDTT_eq] at h
  obtain ⟨started, hstarted, h⟩ := Option.bind_eq_some_iff.mp h
  obtain ⟨⟨k, buf, exchanged⟩, hspm, h⟩ := Option.bind_eq_some_iff.mp h
  obtain ⟨started', hstarted', htouches⟩ := cmdttStart_touches node
  obtain rfl : started = started' := Option.some.inj (hstarted.symm.trans hstarted')
  have hspares : Spares node exchanged :=
    (Spares.of_touches htouches (by decide)).trans (spares_spmExchange hspm)
  obtain ⟨frame, -, h⟩ := Option.bind_eq_some_iff.mp h
  obtain ⟨logged, hlogged, h⟩ := Option.bind_eq_some_iff.mp h
  cases h
  have hanswered := Spares.ite (c := k = 1 ∧ (buf.get 0).toNat ∈ [1, 2, 3, 4, 6, 7, 8])
    (hspares.setNat (f := Member.result) (by decide) 3) hspares
  exact hanswered.trans (spares_ttLogPackData hlogged)

theorem spares_getConfigByMCC {x : Exchange} {config : List UInt8}
    (h : getConfigByMCC node x = some (config, node')) : Spares node node' := by
  obtain ⟨speed, -, h⟩ := Option.bind_eq_some_iff.mp h
  split at h
  · cases h
    exact .refl node
  · obtain ⟨asked, hasked, h⟩ := Option.bind_eq_some_iff.mp h
    cases h
    obtain ⟨⟨cnt, dst⟩, -, hasked⟩ := Option.bind_eq_some_iff.mp hasked
    dsimp only at hasked
    split_ifs at hasked
    · obtain ⟨⟨k, stored⟩, hstored, hasked⟩ := Option.bind_eq_some_iff.mp hasked
      cases hasked
      exact .of_touches (touches_getKeyValueStr hstored) (by decide)
    · cases hasked
      exact .refl node

theorem spares_codingWithCFMDSocket {mcc : ℤ} {state : ℕ}
    (h : codingWithCFMDSocket node mcc state w = some (node', frames)) : Spares node node' := by
  rw [codingWithCFMDSocket_eq] at h
  obtain ⟨dealt, hdealt, h⟩ := Option.bind_eq_some_iff.mp h
  have hdeal : Spares node dealt := by
    split at hdealt
    · obtain ⟨⟨cnt, proc⟩, hproc, rfl⟩ := Option.map_eq_some_iff.mp hdealt
      exact spares_dealProc hproc
    · cases hdealt
      exact .refl node
  simp only [cfmdAnswer] at h
  split at h
  · obtain ⟨⟨config, configured⟩, hconfig, h⟩ := Option.bind_eq_some_iff.mp h
    cases h
    exact hdeal.trans (spares_getConfigByMCC hconfig)
  · cases h
    exact hdeal

theorem spares_codingWithDeal (h : codingWithDeal node w = some (node', frames)) :
    Spares node node' := by
  obtain ⟨named, hnamed, h⟩ := Option.bind_eq_some_iff.mp h
  obtain ⟨⟨cnt, dealt⟩, hdealt, h⟩ := Option.bind_eq_some_iff.mp h
  cases h
  exact (spares_setSIMSI (node.mem.length_read InBuff.dealIMSI) hnamed).trans
    (spares_dealProc hdealt)

theorem spares_sendChangeIP (h : sendChangeIP node w = some (node', frames)) :
    Spares node node' := by
  have hstored := ((Spares.refl node).setNat (f := Member.factoryFlag) (by decide) 0).setNat
    (f := Member.result) (by decide) 0
  unfold sendChangeIP at h
  split at h
  · obtain ⟨_, -, h⟩ := Option.bind_eq_some_iff.mp h
    cases h
    exact hstored
  · cases h
    exact hstored

theorem spares_codingWithLocal (node : DataSpm) : Spares node (codingWithLocal node).1 := by
  have htype := (Spares.refl node).setNat (f := Member.type) (by decide) 2
  exact .ite (htype.setNat (by decide) _) htype

theorem spares_codingWithVPNCmd (h : codingWithVPNCmd node = some (node', frames)) :
    Spares node node' := by
  unfold codingWithVPNCmd at h
  dsimp only at h
  split_ifs at h
  · cases h
    exact .refl node
  · cases h
    exact (Spares.refl node).setNat (by decide) _

/-- `Coding_With_LogOut` clears a positive `fd1`. -/
theorem codingWithLogOut_identity (h : codingWithLogOut node w = some (node', frames)) :
    node'.key = node.key ∧ node'.mem.getInt Member.fd1 ≤ 0 := by
  obtain ⟨named, hnamed, h⟩ := Option.bind_eq_some_iff.mp h
  have hname := spares_setSIMSI (node.mem.length_read InBuff.logoutImsi) hnamed
  dsimp only at h
  generalize hcleared : (if 0 < named.mem.getInt Member.fd1 then named.setNat Member.fd1 0
    else named) = cleared at h
  have hkey : cleared.key = node.key := by
    rw [← hname.key, ← hcleared]
    split
    · exact named.read_setNat 0 (by decide)
    · rfl
  have hfd1 : cleared.mem.getInt Member.fd1 ≤ 0 := by
    rw [← hcleared]
    split
    · have hzero := named.getNat_setNat Member.fd1 0
      rw [CArray.getInt, hzero]
      decide
    · omega
  have hkept : Spares cleared node' := by
    split at h <;> cases h
    · exact .refl _
    · exact ((Spares.refl cleared).setInt (by decide) _).closeSocketFd
  refine ⟨hkept.key.trans hkey, ?_⟩
  rw [CArray.getInt, CArray.getNat, hkept.fd1]
  exact hfd1

/-- `Coding_With_HB` stores the bytes at offset 9 as key, if the message is longer than 9. -/
theorem codingWithHB_identity (h : codingWithHB node = some (node', frames)) :
    node'.key = (if node.mem.getNat Member.len ≠ 0 then node.mem.read InBuff.hbSN
      else node.key) ∧
      node'.mem.read Member.fd1 = node.mem.read Member.fd1 := by
  unfold codingWithHB at h
  split at h
  · rename_i hlen
    rw [if_pos hlen]
    obtain ⟨named, hnamed, h⟩ := Option.bind_eq_some_iff.mp h
    cases h
    have hname := spares_setSIMSI (CArray.length_read _ Member.imsi) hnamed
    refine ⟨hname.key.trans ?_, hname.fd1.trans ?_⟩
    · exact CArray.read_copyField_self _ Member.key node.mem InBuff.hbSN (by decide)
    · rw [DataSpm.read_copyField _ _ _ _ (by decide), DataSpm.read_copyField _ _ _ _ (by decide)]
  · rename_i hlen
    rw [if_neg hlen]
    cases h
    exact ⟨rfl, rfl⟩

/-- `Coding_With_CFMD` stores the first bytes of the message as key, with zeros behind a
message that is too short. -/
theorem codingWithCFMD_identity (h : codingWithCFMD node w = some (node', frames)) :
    ∃ tell, (CArray.zero 68).memcpy
        ((node.mem.read Member.buff).take (node.mem.getNat Member.len)) = some tell ∧
      node'.key = tell.read TellServerBill.sn ∧
      node'.mem.read Member.fd1 = node.mem.read Member.fd1 := by
  obtain ⟨tell, htell, h⟩ := Option.bind_eq_some_iff.mp h
  obtain ⟨⟨confirmed, frames'⟩, hconfirmed, h⟩ := Option.bind_eq_some_iff.mp h
  obtain ⟨named, hnamed, h⟩ := Option.bind_eq_some_iff.mp h
  cases h
  refine ⟨tell, htell, ?_⟩
  let keyed := node.copyField Member.key tell TellServerBill.sn (by decide)
  have hconfirm : Spares keyed confirmed :=
    ((Spares.refl keyed).setInt (by decide) _).trans (spares_codingWithCFMDSocket hconfirmed)
  have hname : Spares keyed named :=
    hconfirm.trans (spares_setSIMSI (tell.length_read TellServerBill.imsi) hnamed)
  have happ := hname.setNat (f := Member.versionAPK) (by decide)
    (tell.getNat TellServerBill.apkVersion)
  have hmcc := Spares.ite (c := tell.getInt TellServerBill.mcc ≠ 0)
    (happ.setInt (f := Member.mcc) (by decide) (tell.getInt TellServerBill.mcc)) happ
  have hstate := hmcc.setNat (f := Member.state) (by decide)
    (tell.getNat TellServerBill.vsimActionState)
  have hlocale := Spares.ite (c := tell.getNat TellServerBill.vsimActionState = 0 ∨
    tell.getNat TellServerBill.vsimActionState = 2)
    (hstate.setNat (f := Member.localeFlag) (by decide) 1) hstate
  have hclosed := hlocale.closeSocketFd
  refine ⟨hclosed.key.trans ?_, hclosed.fd1.trans ?_⟩
  · exact CArray.read_copyField_self node.mem Member.key tell TellServerBill.sn (by decide)
  · exact node.read_copyField tell TellServerBill.sn (by decide) (by decide)

end Exchanges

/-! ## Every command -/

section Commands
variable {node node' : DataSpm} {para : NodeData} {cmd : Cmd} {w : World}
  {frames : List (List UInt8)}

theorem key_receive (node : DataSpm) (para : NodeData) : (receive node para).key = node.key :=
  read_receive node para (by decide)

/-- Whether the IMSI is stored or not makes no difference to the other members. -/
theorem read_receive_apart (node : DataSpm) (para : NodeData) {f : Member}
    (hf : Member.imsi.Disjoint f) : (receive node para).mem.read f =
      ((((node.setInt Member.cmdTag para.cmdTag).setInt Member.fd1 para.fd).setInt Member.len
        para.len).copyField Member.buff para.buff NodeData.wholeBuff (by decide)).mem.read f := by
  simp only [receive]
  split
  · exact DataSpm.read_copyField _ _ _ _ hf
  · rfl

/-- What a node holds of the message that was stored in it. -/
theorem receive_spec (node : DataSpm) (para : NodeData) :
    (receive node para).mem.read Member.buff = para.buff.bytes ∧
      (receive node para).mem.getNat Member.len = (para.len % 256).toNat ∧
      (receive node para).mem.getNat Member.fd1 = (para.fd % 2 ^ 32).toNat := by
  refine ⟨?_, ?_, ?_⟩
  · rw [read_receive_apart _ _ (by decide)]
    refine (CArray.read_copyField_self _ _ _ _ (by decide)).trans ?_
    show (para.buff.bytes.drop 0).take 256 = _
    rw [List.drop_zero, List.take_of_length_le (Nat.le_of_eq para.buff.size)]
  · rw [CArray.getNat, read_receive_apart _ _ (by decide), DataSpm.read_copyField _ _ _ _ (by decide)]
    exact DataSpm.getNat_setInt _ Member.len para.len
  · rw [CArray.getNat, read_receive_apart _ _ (by decide), DataSpm.read_copyField _ _ _ _ (by decide),
      DataSpm.read_setInt _ _ (by decide)]
    exact DataSpm.getNat_setInt _ Member.fd1 para.fd

theorem cmdTag_receive (node : DataSpm) (para : NodeData) :
    (receive node para).mem.getNat Member.cmdTag =
      (para.cmdTag % 2 ^ (8 * Member.cmdTag.size)).toNat := by
  rw [CArray.getNat, read_receive_apart _ _ (by decide), DataSpm.read_copyField _ _ _ _ (by decide),
    DataSpm.read_setInt _ _ (by decide), DataSpm.read_setInt _ _ (by decide)]
  exact DataSpm.getNat_setInt _ Member.cmdTag para.cmdTag

/-- `SN` of a `heartBeatWithData_t` in a message. -/
def NodeData.hbSN : Field 256 := ⟨9, 15, by decide⟩

/-- The key the handler of a message leaves in a node that had `key`. -/
def keyAfter (cmd : Cmd) (para : NodeData) (w : World) (key : List UInt8) : List UInt8 :=
  match cmd with
  | .hb => if para.len % 256 = 0 then key else para.buff.read NodeData.hbSN
  | .cfmd =>
    (para.buff.bytes.take (para.len % 256).toNat ++ List.replicate 15 0).take 15
  | .accessAuth => (grantedIMSI (requestMCC para) w.deal).elim key fun value => overKey value key
  | _ => key

theorem read_sn_of_memcpy {src : List UInt8} {tell : CArray 68}
    (h : (CArray.zero 68).memcpy src = some tell) :
    tell.read TellServerBill.sn = (src ++ List.replicate 15 0).take 15 := by
  obtain ⟨hle, rfl⟩ := CArray.memcpy_eq_some.mp h
  show (((CArray.zero 68).overlay src hle).bytes.drop 0).take 15 = _
  rw [CArray.bytes_overlay, List.drop_zero]
  show (src ++ (List.replicate 68 (0 : UInt8)).drop src.length).take 15 = _
  rw [List.drop_replicate, List.take_append, List.take_append, List.take_replicate,
    List.take_replicate]
  congr 2
  omega

/-- The node as `SIM_Allocate_Proc` passes it on. -/
def noteVersion (node : DataSpm) : DataSpm :=
  let node := node.copyField Member.takeTime node.mem Member.authTakeTime Member.size_authTakeTime
  node.copyField Member.versionAPK node.mem Member.authVersionAPK Member.size_authVersionAPK

theorem simAllocateProc_noteVersion (node : DataSpm) (x : Exchange) :
    simAllocateProc node x = getDealFromRemote (noteVersion node) x := by
  rw [simAllocateProc, noteVersion]

/-- `Coding_With_ACCESS_AUTH` for a request from country `mcc`. -/
theorem codingWithAccessAuth_identity {mcc : ℕ}
    (hmcc : (noteMCC (noteVersion node)).mem.getNat Member.mcc = mcc)
    (h : codingWithAccessAuth node w = some (node', frames)) :
    node'.key = ((grantedIMSI mcc w.deal).elim node.key fun value => overKey value node.key) ∧
      node'.mem.read Member.fd1 = node.mem.read Member.fd1 := by
  rw [codingWithAccessAuth, Option.bind_eq_bind] at h
  obtain ⟨⟨authed, frame⟩, hauth, h⟩ := Option.bind_eq_some_iff.mp h
  rw [accessAuth, Option.bind_eq_bind] at hauth
  obtain ⟨⟨cnt, allocated⟩, hallocated, hauth⟩ := Option.bind_eq_some_iff.mp hauth
  dsimp only at hauth h
  obtain ⟨packed, -, hauth⟩ := Option.bind_eq_some_iff.mp hauth
  cases hauth
  cases h
  have hstart : Spares node (noteVersion node) :=
    ((Spares.refl node).copyField (by decide) _ _ _).copyField (by decide) _ _ _
  rw [simAllocateProc_noteVersion] at hallocated
  obtain ⟨hkey, hfd1⟩ := getDealFromRemote_key hmcc hallocated
  have htype := (Spares.refl allocated).setNat (f := Member.type) (by decide) 1
  rw [hstart.key] at hkey
  exact ⟨htype.key.trans hkey, htype.fd1.trans (hfd1.trans hstart.fd1)⟩

/-- What each command does to the key and to `fd1`. -/
theorem codingWithDate_identity
    (h : codingWithDate (receive node para) cmd w = some (node', frames)) :
    node'.key = keyAfter cmd para w node.key ∧
      (cmd = .logout ∧ node'.mem.getInt Member.fd1 ≤ 0 ∨
        node'.mem.read Member.fd1 = (receive node para).mem.read Member.fd1) := by
  obtain ⟨hbuff, hlen, -⟩ := receive_spec node para
  have hreceived := key_receive node para
  have hmcc : (noteMCC (noteVersion (receive node para))).mem.getNat Member.mcc =
      requestMCC para := mcc_prepare node para
  generalize receive node para = start at *
  have hspares : Spares start node' →
      node'.key = node.key ∧ (cmd = .logout ∧ node'.mem.getInt Member.fd1 ≤ 0 ∨
        node'.mem.read Member.fd1 = start.mem.read Member.fd1) :=
    fun hs => ⟨hs.key.trans hreceived, .inr hs.fd1⟩
  cases cmd with
  | accessAuth =>
    obtain ⟨hkey, hfd1⟩ := codingWithAccessAuth_identity hmcc h
    rw [hreceived] at hkey
    exact ⟨hkey, .inr hfd1⟩
  | simfileRequest => exact hspares (spares_codingWithSimfileRequest h)
  | ip => exact hspares (spares_sendChangeIP h)
  | cmdTT => exact hspares (spares_codingWithCMDTT h)
  | hb =>
    obtain ⟨hkey, hfd1⟩ := codingWithHB_identity h
    refine ⟨hkey.trans ?_, .inr hfd1⟩
    rw [hlen, hreceived]
    show _ = if para.len % 256 = 0 then node.key else para.buff.read NodeData.hbSN
    by_cases hzero : para.len % 256 = 0
    · rw [if_pos hzero, if_neg (by omega)]
    · rw [if_neg hzero, if_pos (by omega),
        start.mem.read_within (f := Member.buff) (by decide) (by decide), hbuff]
      rfl
  | hbNew =>
    cases h
    exact hspares ((Spares.refl _).setNat (by decide) _)
  | cfmd =>
    obtain ⟨tell, htell, hkey, hfd1⟩ := codingWithCFMD_identity h
    rw [hbuff, hlen] at htell
    exact ⟨hkey.trans (read_sn_of_memcpy htell), .inr hfd1⟩
  | localSta =>
    have hlocal := spares_codingWithLocal start
    rw [Option.some.inj h] at hlocal
    exact hspares hlocal
  | logout =>
    obtain ⟨hkey, hfd1⟩ := codingWithLogOut_identity h
    exact ⟨hkey.trans hreceived, .inl ⟨rfl, hfd1⟩⟩
  | lowVsim =>
    unfold codingWithDate codingWithLowVsim at h
    dsimp only at h
    split at h
    · cases h
    · cases h
      exact hspares (.refl _)
  | deal => exact hspares (spares_codingWithDeal h)
  | vpnProfileRqst =>
    cases h
    exact hspares (.refl _)
  | vpnReleaseCmd => exact hspares (spares_codingWithVPNCmd h)
  | adn =>
    cases h
    exact hspares (.refl _)
  | getApnInfo =>
    cases h
    exact hspares (.refl _)
  | autonet =>
    cases h
    exact hspares (.refl _)

end Commands

end Tdm.Device
