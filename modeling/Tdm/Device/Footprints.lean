import Tdm.Device.Identity

/-!
# What a command may change

`handlerFields` lists, for each command, the members of the node that its handler may change. The
texts of a deal are copied with their own length, so they count for all the bytes they can reach.
-/

namespace Tdm.Device

open Tdm.Lib Tdm.Common

/-! ## The lists -/

/-- What a deal may cover. -/
def dealFields : List Member :=
  Common.numberFields ++
    [spread 63 Member.apn, Member.isApn, Member.vpn, Member.ifVPN, Member.factoryFlag,
      spread dataSpmSize Member.serverInfo, spread 63 Member.ip, Member.portInt, Member.simBankID,
      Member.channelID, spread 63 Member.speedStr, Member.vusimActiveFlag,
      spread 63 Member.vusimActiveNum, Member.imei, spread 63 Member.sIMSI, spread 32 Member.imsi,
      spread 63 Member.selnet, Member.isNet, Member.speedType, Member.result]

/-- What a login may change. -/
def loginFields : List Member := Member.type :: (remoteFields ++ procFields ++ dealFields)

/-- What a message is stored in. -/
def receiveFields : List Member :=
  [Member.cmdTag, Member.fd1, Member.len, Member.buff, Member.imsi]

def handlerFields : Cmd → List Member
  | .accessAuth => loginFields
  | .simfileRequest => exchangeFields
  | .ip => [Member.factoryFlag, Member.result]
  | .cmdTT => Member.result :: (cmdttFields ++ exchangeFields)
  | .hb => [Member.imsi, Member.key, sIMSIText]
  | .hbNew => [Member.type]
  | .cfmd => [Member.key, Member.version, spread 63 Member.speedStr, sIMSIText, Member.versionAPK,
      Member.mcc, Member.state, Member.localeFlag, Member.socketSpm] ++ procFields
  | .localSta => [Member.type, InBuff.remainMin]
  | .logout => [sIMSIText, Member.fd1, Member.outtime, Member.socketSpm]
  | .deal => sIMSIText :: procFields
  | .vpnReleaseCmd => [Member.vpnFlag]
  | .lowVsim | .vpnProfileRqst | .adn | .getApnInfo | .autonet => []

/-! ## Parts of handlers -/

section Parts
variable {node node' : DataSpm} {src : List UInt8} {x : Exchange} {w : World} {cnt : ℤ}
  {frames : List (List UInt8)}

theorem touches_copyField {fs : List Member} (h : node.mem.Touches fs node'.mem) {f : Member}
    (hf : f ∈ fs) {m : ℕ} (b : CArray m) (g : Field m) (hg : g.size = f.size) :
    node.mem.Touches fs (node'.copyField f b g hg).mem := h.copyField hf b g hg

theorem touches_closeSocketFd (node : DataSpm) {fs : List Member} (h : Member.socketSpm ∈ fs) :
    node.mem.Touches fs (closeSocketFd node Member.socketSpm).mem := by
  unfold closeSocketFd
  split
  · exact (CArray.Touches.refl _ _).setInt h 0
  · exact .refl _ _

theorem touches_setSIMSI {fs : List Member} {imsi : List UInt8} (h : sIMSIText ∈ fs)
    (himsi : imsi.length = 9) (hset : setSIMSI node imsi = some node') :
    node.mem.Touches fs node'.mem := by
  obtain ⟨stored, hstored, htouches⟩ := setSIMSI_touches node himsi
  obtain rfl := Option.some.inj (hstored.symm.trans hset)
  exact htouches.mono (by simpa using h)

theorem touches_getDataFromDeal (h : getDataFromDeal src node = some node') :
    node.mem.Touches dealFields node'.mem := by
  rw [getDataFromDeal_phases] at h
  obtain ⟨numbered, hnumbers, h⟩ := Option.bind_eq_some_iff.mp h
  obtain ⟨flagged, hflags, h⟩ := Option.bind_eq_some_iff.mp h
  obtain ⟨factory, hfactory, h⟩ := Option.bind_eq_some_iff.mp h
  obtain ⟨carded, hcard, h⟩ := Option.bind_eq_some_iff.mp h
  obtain ⟨named, himsi, hnet⟩ := Option.bind_eq_some_iff.mp h
  exact ((dealNumbers_spec hnumbers).1.mono (by simp [dealFields]))
    |>.trans ((dealFlags_spec hflags).1.mono (by simp [dealFields]))
    |>.trans ((touches_getKeyValueFactory hfactory).mono (by simp [dealFields]))
    |>.trans ((touches_dealCard hcard).mono (by simp [dealFields]))
    |>.trans ((touches_getKeyValueIMSI himsi).mono (by simp [dealFields]))
    |>.trans ((touches_dealNet hnet).mono (by simp [dealFields]))

theorem touches_noteMCC (node : DataSpm) : node.mem.Touches loginFields (noteMCC node).mem := by
  have hmcc : node.mem.Touches [Member.socketSpm, Member.authMCC, Member.mcc]
      (noteMCC node).mem := fun f hf => read_noteMCC node hf
  exact hmcc.mono (by simp [loginFields, remoteFields])

/-- The address of a server, which fits `server_info`. -/
theorem touches_serverInfo {ip : List UInt8} (hip : ip.length ≤ 128)
    (h : node.copyTo Member.serverInfo ip = some node') :
    node.mem.Touches loginFields node'.mem := by
  obtain ⟨mem, hmem, rfl⟩ := Option.map_eq_some_iff.mp h
  exact (CArray.Touches.refl _ _).copyTo (g := Member.serverInfo)
    (by simp [loginFields, remoteFields]) rfl hip hmem

theorem touches_getDealFromRemote (h : getDealFromRemote node x = some (cnt, node')) :
    node.mem.Touches loginFields node'.mem := by
  have hproc : procFields ⊆ loginFields := by
    intro f hf
    simp [loginFields, hf]
  have hdeal : dealFields ⊆ loginFields := by
    intro f hf
    simp [loginFields, hf]
  have hnote := touches_noteMCC node
  unfold getDealFromRemote at h
  dsimp only at h
  split at h
  · obtain ⟨stored, hstored, h⟩ := Option.bind_eq_some_iff.mp h
    obtain ⟨-, rfl⟩ := Prod.mk.inj (Option.some.inj h)
    exact (hnote.setNat (by simp [loginFields, procFields]) 1)
      |>.trans (touches_serverInfo (by decide) hstored)
      |>.trans ((touches_simAllocateErr .ipChange stored).mono hproc)
  · obtain ⟨stored, hstored, h⟩ := Option.bind_eq_some_iff.mp h
    obtain ⟨⟨cnt', asked, dst⟩, hasked, h⟩ := Option.bind_eq_some_iff.mp h
    have hasked' : node.mem.Touches loginFields asked.mem :=
      hnote.trans (touches_serverInfo (by decide) hstored)
        |>.trans ((touches_getDealFromSimPool hasked).mono hproc)
    dsimp only at h
    split at h
    · cases h
      exact hasked'
    · obtain ⟨dealt, hdealt, h⟩ := Option.bind_eq_some_iff.mp h
      have hdealt' := hasked'.trans ((touches_getDataFromDeal hdealt).mono hdeal)
      split at h
      · obtain ⟨-, rfl⟩ := Prod.mk.inj (Option.some.inj h)
        exact hdealt'.trans ((touches_simAllocateErr .ipChange dealt).mono hproc)
      · cases h
        exact hdealt'

theorem touches_getConfigByMCC {config : List UInt8}
    (h : getConfigByMCC node x = some (config, node')) :
    node.mem.Touches [spread 63 Member.speedStr] node'.mem := by
  obtain ⟨speed, -, h⟩ := Option.bind_eq_some_iff.mp h
  split at h
  · cases h
    exact .refl _ _
  · obtain ⟨asked, hasked, h⟩ := Option.bind_eq_some_iff.mp h
    cases h
    obtain ⟨⟨cnt, dst⟩, -, hasked⟩ := Option.bind_eq_some_iff.mp hasked
    dsimp only at hasked
    split_ifs at hasked
    · obtain ⟨⟨k, stored⟩, hstored, hasked⟩ := Option.bind_eq_some_iff.mp hasked
      cases hasked
      exact touches_getKeyValueStr hstored
    · cases hasked
      exact .refl _ _

theorem touches_codingWithCFMDSocket {mcc : ℤ} {state : ℕ}
    (h : codingWithCFMDSocket node mcc state w = some (node', frames)) :
    node.mem.Touches (handlerFields .cfmd) node'.mem := by
  have hproc : procFields ⊆ handlerFields .cfmd := List.subset_append_right _ _
  rw [codingWithCFMDSocket_eq] at h
  obtain ⟨dealt, hdealt, h⟩ := Option.bind_eq_some_iff.mp h
  have hdeal : node.mem.Touches (handlerFields .cfmd) dealt.mem := by
    split at hdealt
    · obtain ⟨⟨cnt, proc⟩, hrun, rfl⟩ := Option.map_eq_some_iff.mp hdealt
      exact (touches_dealProc hrun).mono hproc
    · cases hdealt
      exact .refl _ _
  simp only [cfmdAnswer] at h
  split at h
  · obtain ⟨⟨config, configured⟩, hconfig, h⟩ := Option.bind_eq_some_iff.mp h
    cases h
    exact hdeal.trans ((touches_getConfigByMCC hconfig).mono (by simp [handlerFields]))
  · cases h
    exact hdeal

end Parts

/-! ## Handlers -/

section Handlers
variable {node node' : DataSpm} {w : World} {frames : List (List UInt8)}

theorem touches_codingWithAccessAuth (h : codingWithAccessAuth node w = some (node', frames)) :
    node.mem.Touches loginFields node'.mem := by
  rw [codingWithAccessAuth, Option.bind_eq_bind] at h
  obtain ⟨⟨answered, frame⟩, hanswered, h⟩ := Option.bind_eq_some_iff.mp h
  rw [accessAuth, Option.bind_eq_bind] at hanswered
  obtain ⟨⟨cnt, dealt⟩, hdealt, hanswered⟩ := Option.bind_eq_some_iff.mp hanswered
  dsimp only at hanswered h
  obtain ⟨packed, -, hanswered⟩ := Option.bind_eq_some_iff.mp hanswered
  cases hanswered
  cases h
  have hnoted : node.mem.Touches loginFields (noteVersion node).mem :=
    touches_copyField (touches_copyField (.refl _ _) (by simp [loginFields, remoteFields]) _ _ _)
      (by simp [loginFields, remoteFields]) _ _ _
  rw [simAllocateProc_noteVersion] at hdealt
  exact (hnoted.trans (touches_getDealFromRemote hdealt)).setNat (by simp [loginFields]) 1

theorem touches_codingWithSimfileRequest
    (h : codingWithSimfileRequest node w = some (node', frames)) :
    node.mem.Touches exchangeFields node'.mem := by
  obtain ⟨⟨k, buf, exchanged⟩, hspm, h⟩ := Option.bind_eq_some_iff.mp h
  dsimp only at h
  split at h <;> cases h <;> exact spmExchange_touches hspm

theorem touches_sendChangeIP (h : sendChangeIP node w = some (node', frames)) :
    node.mem.Touches (handlerFields .ip) node'.mem := by
  have hstored : node.mem.Touches (handlerFields .ip)
      ((node.setNat Member.factoryFlag 0).setNat Member.result 0).mem :=
    ((CArray.Touches.refl _ _).setNat (by simp [handlerFields]) 0).setNat
      (by simp [handlerFields]) 0
  unfold sendChangeIP at h
  split at h
  · obtain ⟨_, -, h⟩ := Option.bind_eq_some_iff.mp h
    cases h
    exact hstored
  · cases h
    exact hstored

theorem touches_codingWithCMDTT (h : codingWithCMDTT node w = some (node', frames)) :
    node.mem.Touches (handlerFields .cmdTT) node'.mem := by
  rw [codingWithCMDTT_eq] at h
  obtain ⟨started, hstarted, h⟩ := Option.bind_eq_some_iff.mp h
  obtain ⟨⟨k, buf, exchanged⟩, hspm, h⟩ := Option.bind_eq_some_iff.mp h
  obtain ⟨started', hstarted', htouches⟩ := cmdttStart_touches node
  obtain rfl : started = started' := Option.some.inj (hstarted.symm.trans hstarted')
  have hcmdtt : cmdttFields ⊆ handlerFields .cmdTT := by
    intro f hf
    simp [handlerFields, hf]
  have hexchange : exchangeFields ⊆ handlerFields .cmdTT := by
    intro f hf
    simp [handlerFields, hf]
  have hexchanged := (htouches.mono hcmdtt).trans ((spmExchange_touches hspm).mono hexchange)
  obtain ⟨frame, -, h⟩ := Option.bind_eq_some_iff.mp h
  obtain ⟨logged, hlogged, h⟩ := Option.bind_eq_some_iff.mp h
  cases h
  -- `imsi[18] = 0` hits the last byte of the text of the IMSI
  have hlog : ∀ {answered : DataSpm} {len : ℤ}, ttLogPackData answered len = some node' →
      answered.mem.Touches (handlerFields .cmdTT) node'.mem := by
    intro answered len hlog
    unfold ttLogPackData at hlog
    split at hlog
    · cases hlog
    · cases hlog
      have hset : answered.mem.Touches [Member.virFlag] (answered.setNat Member.virFlag 0).mem :=
        (CArray.Touches.refl _ _).setNat (List.mem_singleton_self _) 0
      refine hset.within ?_
      exact List.forall_mem_singleton.mpr
        ⟨sIMSIText, by simp [handlerFields, cmdttFields], by decide, by decide⟩
  refine CArray.Touches.trans ?_ (hlog hlogged)
  split
  · exact hexchanged.setNat (by simp [handlerFields]) 3
  · exact hexchanged

theorem touches_codingWithHB (h : codingWithHB node = some (node', frames)) :
    node.mem.Touches (handlerFields .hb) node'.mem := by
  unfold codingWithHB at h
  split at h
  · obtain ⟨named, hnamed, h⟩ := Option.bind_eq_some_iff.mp h
    cases h
    have hcopied := touches_copyField
      (touches_copyField (CArray.Touches.refl (handlerFields .hb) node.mem) (f := Member.imsi)
        (by simp [handlerFields]) node.mem InBuff.hbIMSI (by decide)) (f := Member.key)
      (by simp [handlerFields]) node.mem InBuff.hbSN (by decide)
    exact hcopied.trans (touches_setSIMSI (by simp [handlerFields])
      (CArray.length_read _ Member.imsi) hnamed)
  · cases h
    exact .refl _ _

theorem touches_codingWithCFMD (h : codingWithCFMD node w = some (node', frames)) :
    node.mem.Touches (handlerFields .cfmd) node'.mem := by
  obtain ⟨tell, htell, h⟩ := Option.bind_eq_some_iff.mp h
  obtain ⟨⟨confirmed, frames'⟩, hconfirmed, h⟩ := Option.bind_eq_some_iff.mp h
  obtain ⟨named, hnamed, h⟩ := Option.bind_eq_some_iff.mp h
  cases h
  have hkeyed : node.mem.Touches (handlerFields .cfmd)
      (node.copyField Member.key tell TellServerBill.sn (by decide)).mem :=
    touches_copyField (.refl _ _) (by simp [handlerFields]) tell TellServerBill.sn (by decide)
  have hversion : node.mem.Touches (handlerFields .cfmd)
      ((node.copyField Member.key tell TellServerBill.sn (by decide)).setInt Member.version
        (atoll (tell.read TellServerBill.version))).mem :=
    hkeyed.setInt (by simp [handlerFields]) _
  have hname := (hversion.trans (touches_codingWithCFMDSocket hconfirmed)).trans
    (touches_setSIMSI (by simp [handlerFields]) (tell.length_read TellServerBill.imsi) hnamed)
  refine CArray.Touches.trans ?_ (touches_closeSocketFd _ (by simp [handlerFields]))
  have happ : node.mem.Touches (handlerFields .cfmd)
      (named.setNat Member.versionAPK (tell.getNat TellServerBill.apkVersion)).mem :=
    hname.setNat (by simp [handlerFields]) _
  have hmcc : node.mem.Touches (handlerFields .cfmd)
      (if tell.getInt TellServerBill.mcc ≠ 0 then
        (named.setNat Member.versionAPK (tell.getNat TellServerBill.apkVersion)).setInt Member.mcc
          (tell.getInt TellServerBill.mcc)
      else named.setNat Member.versionAPK (tell.getNat TellServerBill.apkVersion)).mem := by
    split
    · exact happ.setInt (by simp [handlerFields]) _
    · exact happ
  generalize (if tell.getInt TellServerBill.mcc ≠ 0 then
      (named.setNat Member.versionAPK (tell.getNat TellServerBill.apkVersion)).setInt Member.mcc
        (tell.getInt TellServerBill.mcc)
    else named.setNat Member.versionAPK (tell.getNat TellServerBill.apkVersion)) = placed at hmcc ⊢
  have hstate : node.mem.Touches (handlerFields .cfmd)
      (placed.setNat Member.state (tell.getNat TellServerBill.vsimActionState)).mem :=
    hmcc.setNat (by simp [handlerFields]) _
  split
  · exact hstate.setNat (by simp [handlerFields]) 1
  · exact hstate

theorem touches_codingWithLocal (node : DataSpm) :
    node.mem.Touches (handlerFields .localSta) (codingWithLocal node).1.mem := by
  have htype : node.mem.Touches (handlerFields .localSta) (node.setNat Member.type 2).mem :=
    (CArray.Touches.refl _ _).setNat (by simp [handlerFields]) 2
  unfold codingWithLocal
  dsimp only
  split
  · exact htype.setNat (by simp [handlerFields]) 1440
  · exact htype

theorem touches_codingWithLogOut (h : codingWithLogOut node w = some (node', frames)) :
    node.mem.Touches (handlerFields .logout) node'.mem := by
  obtain ⟨named, hnamed, h⟩ := Option.bind_eq_some_iff.mp h
  have hname : node.mem.Touches (handlerFields .logout) named.mem :=
    touches_setSIMSI (by simp [handlerFields]) (node.mem.length_read InBuff.logoutImsi) hnamed
  dsimp only at h
  generalize hif : (if 0 < named.mem.getInt Member.fd1 then named.setNat Member.fd1 0
    else named) = cleared at h
  have hcleared : node.mem.Touches (handlerFields .logout) cleared.mem := by
    rw [← hif]
    split
    · exact hname.setNat (by simp [handlerFields]) 0
    · exact hname
  split at h
  · cases h
    exact hcleared
  · cases h
    exact (hcleared.setInt (by simp [handlerFields]) w.now).trans
      (touches_closeSocketFd _ (by simp [handlerFields]))

theorem touches_codingWithDeal (h : codingWithDeal node w = some (node', frames)) :
    node.mem.Touches (handlerFields .deal) node'.mem := by
  obtain ⟨named, hnamed, h⟩ := Option.bind_eq_some_iff.mp h
  obtain ⟨⟨cnt, dealt⟩, hdealt, h⟩ := Option.bind_eq_some_iff.mp h
  cases h
  exact (touches_setSIMSI (by simp [handlerFields]) (node.mem.length_read InBuff.dealIMSI)
    hnamed).trans ((touches_dealProc hdealt).mono (List.subset_cons_self _ _))

theorem touches_codingWithVPNCmd (h : codingWithVPNCmd node = some (node', frames)) :
    node.mem.Touches (handlerFields .vpnReleaseCmd) node'.mem := by
  unfold codingWithVPNCmd at h
  dsimp only at h
  split_ifs at h
  · cases h
    exact .refl _ _
  · cases h
    exact (CArray.Touches.refl _ _).setNat (List.mem_singleton_self _) 0

/-- A handler changes nothing but its members. -/
theorem codingWithDate_touches {cmd : Cmd} (h : codingWithDate node cmd w = some (node', frames)) :
    node.mem.Touches (handlerFields cmd) node'.mem := by
  cases cmd with
  | accessAuth => exact touches_codingWithAccessAuth h
  | simfileRequest => exact touches_codingWithSimfileRequest h
  | ip => exact touches_sendChangeIP h
  | cmdTT => exact touches_codingWithCMDTT h
  | hb => exact touches_codingWithHB h
  | hbNew =>
    cases h
    exact (CArray.Touches.refl _ _).setNat (List.mem_singleton_self _) 1
  | cfmd => exact touches_codingWithCFMD h
  | localSta =>
    cases h
    exact touches_codingWithLocal node
  | logout => exact touches_codingWithLogOut h
  | deal => exact touches_codingWithDeal h
  | vpnReleaseCmd => exact touches_codingWithVPNCmd h
  | lowVsim =>
    simp only [codingWithDate, codingWithLowVsim] at h
    split at h
    · cases h
    · cases h
      exact .refl _ _
  | vpnProfileRqst | adn | getApnInfo | autonet =>
    cases h
    exact .refl _ _

theorem touches_receive (node : DataSpm) (para : NodeData) :
    node.mem.Touches receiveFields (receive node para).mem :=
  fun _ hf => read_receive node para hf

end Handlers

end Tdm.Device
