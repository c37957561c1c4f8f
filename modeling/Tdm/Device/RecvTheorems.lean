import Tdm.Device.Recv
import Mathlib.Data.List.Infix

/-!
# How messages are routed, and what they depend on

Web requests are told from device frames by the text `sn` alone, so a frame is taken for
what it is only if these two bytes do not stand before its first zero byte. A frame that is
taken for what it is is handled from its own bytes unless the command reads the record
`tmd_pthread`, which is not initialised when a message comes in.
-/

namespace Tdm.Device

open Tdm.Lib Tdm.Common

/-! ## Routing -/

theorem cstr_recvBuf {msg : List UInt8} (h : msg.length ≤ 256) :
    (recvBuf msg h).cstr = some (msg.takeWhile (· ≠ 0)) := by
  unfold recvBuf
  rw [CArray.cstr_zero_overlay, if_pos (.inl (by omega))]

theorem get_zero_recvBuf {msg : List UInt8} (h : msg.length ≤ 256) :
    (recvBuf msg h).get 0 = msg.headD 0 := by
  cases msg with
  | nil => rfl
  | cons c msg => rfl

/-- The route of a message that fits `TempBuf`. -/
theorem routeOf_eq {msg : List UInt8} (h : msg.length ≤ 256) :
    routeOf msg =
      if text "sn" <:+: msg.takeWhile (· ≠ 0) then some .web
      else match cmdTest (msg.headD 0) with
        | none => some .unknown
        | some cmd => some (.device cmd) := by
  unfold routeOf route
  rw [dif_pos h, cstr_recvBuf h, get_zero_recvBuf h]
  simp only [Option.bind_eq_bind, Option.bind_some, isSome_strstr]
  rfl

theorem routeOf_of_long {msg : List UInt8} (h : ¬ msg.length ≤ 256) : routeOf msg = none := dif_neg h

theorem fits_of_routeOf {msg : List UInt8} {route : Route} (h : routeOf msg = some route) :
    msg.length ≤ 256 := by
  by_contra hlong
  rw [routeOf_of_long hlong] at h
  cases h

/-- A message that could not be read has no route. -/
theorem ne_nil_of_routeOf {msg : List UInt8} {route : Route} (h : routeOf msg = some route)
    (hknown : route ≠ .unknown) : msg ≠ [] := by
  rintro rfl
  have hnil : routeOf [] = some .unknown := by decide
  rw [hnil] at h
  exact hknown (Option.some.inj h).symm

/-- A JSON text that begins with a brace and has a key `sn`. -/
structure IsWebRequest (msg : List UInt8) : Prop where
  noNul : 0 ∉ msg
  brace : msg.head? = some 123
  key : text "\"sn\"" <:+: msg

theorem IsWebRequest.infix {msg : List UInt8} (h : IsWebRequest msg) :
    text "sn" <:+: msg.takeWhile (· ≠ 0) := by
  rw [CArray.takeWhile_of_notMem h.noNul]
  exact List.IsInfix.trans ⟨text "\"", text "\"", by decide⟩ h.key

/-- A device frame takes the branch of its command exactly when it fits `TempBuf` and its
bytes before the first zero do not contain `sn`; a web request is passed to
`Client_Web_Manage` exactly when it fits. -/
theorem routeOf_frame_iff (msg : List UInt8) :
    (∀ cmd, msg.head?.bind cmdTest = some cmd →
      (routeOf msg = some (.device cmd) ↔
        msg.length ≤ 256 ∧ ¬ text "sn" <:+: msg.takeWhile (· ≠ 0))) ∧
    (IsWebRequest msg → (routeOf msg = some .web ↔ msg.length ≤ 256)) := by
  refine ⟨?_, ?_⟩
  · intro cmd hcmd
    obtain ⟨tag, htag, hcmd⟩ := Option.bind_eq_some_iff.mp hcmd
    have hhead : msg.headD 0 = tag := by
      rw [List.headD_eq_head?_getD, htag]
      rfl
    by_cases hfits : msg.length ≤ 256
    · rw [routeOf_eq hfits, hhead, hcmd]
      by_cases hsn : text "sn" <:+: msg.takeWhile (· ≠ 0)
      · rw [if_pos hsn]
        exact iff_of_false (by simp) fun h => h.2 hsn
      · rw [if_neg hsn]
        exact iff_of_true rfl ⟨hfits, hsn⟩
    · rw [routeOf_of_long hfits]
      exact iff_of_false (by simp) fun h => hfits h.1
  · intro hweb
    by_cases hfits : msg.length ≤ 256
    · rw [routeOf_eq hfits, if_pos hweb.infix]
      exact iff_of_true rfl hfits
    · rw [routeOf_of_long hfits]
      exact iff_of_false (by simp) hfits

/-- A heartbeat, and a request for its device. -/
theorem routeOf_frame_iff_heartbeat :
    routeOf ([0x84, 24] ++ List.replicate 9 0x11 ++ text "172150210000937") =
        some (.device .hb) ∧
      routeOf (text "\x7b\"sn\":\"172150210000937\",\"type\":\"9\"\x7d") = some .web := by
  have hframe := (routeOf_frame_iff
    ([0x84, 24] ++ List.replicate 9 0x11 ++ text "172150210000937")).1 .hb (by decide)
  have hweb := (routeOf_frame_iff
    (text "\x7b\"sn\":\"172150210000937\",\"type\":\"9\"\x7d")).2
    ⟨by decide, by decide, by decide⟩
  exact ⟨hframe.mpr (by decide), hweb.mpr (by decide)⟩

/-- A frame of transparent data whose APDU holds the bytes `73 6E` is taken for a web
request. -/
theorem frame_taken_for_request :
    cmdTest 0x83 = some .cmdTT ∧
      routeOf ([0x83, 17] ++ List.replicate 9 0x11 ++ [0xA0, 0xB0, 1, 1, 2, 2, 0x73, 0x6E]) =
        some .web := by
  decide

/-! ## Messages and sessions -/

/-- The commands whose handling reads the record `tmd_pthread` before it is set. -/
def readsSession (cmd : Cmd) : Bool :=
  cmd ∈ [Cmd.cmdTT, Cmd.localSta, Cmd.autonet, Cmd.getApnInfo, Cmd.adn]

/-- What `socket_read_cb` makes of a decoded message. -/
def Received.reaction (received : Received) : Option Reaction :=
  received.tempBuf.cstr.map fun log => ⟨received.registry, received.writes, log⟩

theorem reaction_congr {a b : Received} (hbuf : a.tempBuf = b.tempBuf) (hwrites : a.writes = b.writes)
    (hregistry : a.registry = b.registry) : a.reaction = b.reaction := by
  unfold Received.reaction
  rw [hbuf, hwrites, hregistry]

section Branch
variable (r : Registry) (para : Session) (fd : ℤ) (w : World) {msg : List UInt8}

theorem socketReadCb_eq (msg : List UInt8) :
    socketReadCb r para fd w msg =
      (codingWithRecvData r para fd w msg).bind Received.reaction := by
  unfold socketReadCb
  congr 1
  funext received
  show received.tempBuf.cstr.bind _ = received.tempBuf.cstr.map _
  rw [Option.map_eq_bind]
  rfl

theorem codingWithRecvData_of_device (h : msg.length ≤ 256) {cmd : Cmd}
    (hroute : routeOf msg = some (.device cmd)) :
    codingWithRecvData r para fd w msg =
      deviceBranch r (recvBuf msg h) ((CArray.zero 256).overlay msg h) cmd para fd w := by
  unfold codingWithRecvData
  rw [if_neg (ne_nil_of_routeOf hroute (by simp)), dif_pos h, hroute]
  rfl

theorem codingWithRecvData_of_web (h : msg.length ≤ 256) (hroute : routeOf msg = some .web) :
    codingWithRecvData r para fd w msg =
      (clientWebManage r (msg.takeWhile (· ≠ 0)) fd).map fun writes =>
        ⟨.dropped, para, (CArray.zero 256).overlay msg h, writes, r⟩ := by
  unfold codingWithRecvData
  rw [if_neg (ne_nil_of_routeOf hroute (by simp)), dif_pos h, hroute, Option.map_eq_bind]
  show ((recvBuf msg h).cstr.bind fun src => _) = _
  rw [cstr_recvBuf h]
  rfl

/-- The commands `Coding_With_CMD_Data_Pack` decodes. -/
def packed (cmd : Cmd) : Bool :=
  cmd ∈ [Cmd.vpnProfileRqst, .vpnReleaseCmd, .deal, .lowVsim, .logout, .cfmd]

theorem deviceBranch_of_packed (buf : CArray 512) (tempBuf : CArray 256) {cmd : Cmd}
    (h : packed cmd = true) :
    deviceBranch r buf tempBuf cmd para fd w =
      (packSN cmd buf { para with num := frameSize buf }).map fun para =>
        ⟨dispatchIfValid cmd para, para, tempPayload buf tempBuf, packAnswer cmd fd, r⟩ := by
  cases cmd with
  | logout | lowVsim | vpnProfileRqst | vpnReleaseCmd | deal | cfmd =>
    rw [Option.map_eq_bind]
    rfl
  | _ => exact absurd h (by decide)

/-- Whether the serial number fits does not depend on what it is stored over. -/
theorem bind_packSN (cmd : Cmd) (buf : CArray 512) (para' : Session) (o : Option Reaction) :
    ((packSN cmd buf para).bind fun _ => o) = (packSN cmd buf para').bind fun _ => o := by
  unfold packSN
  split
  · unfold CArray.memcpy
    split <;> rfl
  · rfl

/-- The other commands are handled from the frame alone. -/
theorem reaction_deviceBranch (buf : CArray 512) (tempBuf : CArray 256) {cmd : Cmd}
    (h : readsSession cmd = false) (para' : Session) :
    (deviceBranch r buf tempBuf cmd para fd w).bind Received.reaction =
      (deviceBranch r buf tempBuf cmd para' fd w).bind Received.reaction := by
  by_cases hpacked : packed cmd = true
  · rw [deviceBranch_of_packed r para fd w buf tempBuf hpacked,
      deviceBranch_of_packed r para' fd w buf tempBuf hpacked, Option.bind_map, Option.bind_map]
    exact bind_packSN _ cmd buf _
      ((tempPayload buf tempBuf).cstr.map fun log => ⟨r, packAnswer cmd fd, log⟩)
  · cases cmd with
    | ip | accessAuth | simfileRequest | hb | hbNew =>
      show Received.reaction _ = Received.reaction _
      exact reaction_congr rfl rfl rfl
    | logout | lowVsim | vpnProfileRqst | vpnReleaseCmd | deal | cfmd => exact absurd rfl hpacked
    | cmdTT | localSta | autonet | getApnInfo | adn => exact absurd h (by decide)

/-- A message that is no device frame is handled without the record. -/
theorem reaction_of_not_device (hroute : ∀ cmd, routeOf msg ≠ some (.device cmd))
    (para' : Session) : socketReadCb r para fd w msg = socketReadCb r para' fd w msg := by
  rw [socketReadCb_eq, socketReadCb_eq]
  unfold codingWithRecvData
  split
  · show Received.reaction _ = Received.reaction _
    exact reaction_congr rfl rfl rfl
  · split
    · rename_i h
      cases hr : routeOf msg with
      | none => rfl
      | some route =>
        cases route with
        | web =>
          simp only [Option.bind_eq_bind, Option.bind_some, Option.bind_assoc]
          rfl
        | device cmd => exact absurd hr (hroute cmd)
        | unknown =>
          show Received.reaction _ = Received.reaction _
          exact reaction_congr rfl rfl rfl
    · rfl

end Branch

/-! ## What decoding can do -/

section Decoding
variable {r : Registry} {para : Session} {fd : ℤ} {w : World} {msg : List UInt8}
  {received : Received}

/-- `Coding_With_Local_Socket` looks its node up and stores the message there. -/
theorem codingWithLocalSocket_cases {buf : CArray 512} {tempBuf : CArray 256}
    (h : codingWithLocalSocket r buf tempBuf para fd w = some received) :
    received.outcome = .served ∧ ∃ found r₁, sessionNode r para w.malloc = some (found, r₁) ∧
      (received.registry = r₁ ∨ ∃ i para' tempBuf', found = some i ∧ i < r₁.nodes.length ∧
        received.registry =
          r₁.modify i fun node => (codingWithLocal (receiveLocal node para' tempBuf' fd)).1) := by
  unfold codingWithLocalSocket at h
  obtain ⟨⟨found, r₁⟩, hnode, h⟩ := Option.bind_eq_some_iff.mp h
  cases found with
  | none =>
    cases h
    exact ⟨rfl, none, r₁, hnode, .inl rfl⟩
  | some i =>
    dsimp only at h
    split at h
    · rename_i hi
      cases h
      exact ⟨rfl, some i, r₁, hnode, .inr ⟨i, _, _, rfl, hi, rfl⟩⟩
    · cases h

/-- `Coding_With_Out_Sql` does no more than look its node up. -/
theorem codingWithOutSql_cases {tempBuf : CArray 256} {cmd : Cmd}
    (h : codingWithOutSql r tempBuf cmd para fd w = some received) :
    received.outcome = .served ∧
      ∃ found, sessionNode r para w.malloc = some (found, received.registry) := by
  unfold codingWithOutSql at h
  obtain ⟨⟨found, r₁⟩, hnode, h⟩ := Option.bind_eq_some_iff.mp h
  cases found with
  | none =>
    cases h
    exact ⟨rfl, none, hnode⟩
  | some i =>
    obtain ⟨node, -, h⟩ := Option.bind_eq_some_iff.mp h
    obtain ⟨writes, -, h⟩ := Option.bind_eq_some_iff.mp h
    cases h
    exact ⟨rfl, some i, hnode⟩

/-- A frame leaves the registry alone and is dispatched or dropped, or it is answered. -/
theorem deviceBranch_cases {buf : CArray 512} {tempBuf : CArray 256} {cmd : Cmd}
    (h : deviceBranch r buf tempBuf cmd para fd w = some received) :
    (received.registry = r ∧ (received.outcome = .dispatch cmd ∨ received.outcome = .dropped)) ∨
    (cmd = .localSta ∧
      codingWithLocalSocket r buf tempBuf { para with num := frameNum buf } fd w =
        some received) ∨
    (received.outcome = .served ∧
      ∃ found, sessionNode r para w.malloc = some (found, received.registry)) := by
  have hvalid : ∀ para : Session, dispatchIfValid cmd para = .dispatch cmd ∨
      dispatchIfValid cmd para = .dropped := by
    intro para
    unfold dispatchIfValid
    split
    · exact .inl rfl
    · exact .inr rfl
  by_cases hpacked : packed cmd = true
  · rw [deviceBranch_of_packed r para fd w buf tempBuf hpacked] at h
    obtain ⟨session, -, rfl⟩ := Option.map_eq_some_iff.mp h
    exact .inl ⟨rfl, hvalid session⟩
  · cases cmd with
    | ip | accessAuth | simfileRequest | hbNew =>
      cases h
      exact .inl ⟨rfl, .inl rfl⟩
    | hb =>
      cases h
      exact .inl ⟨rfl, hvalid _⟩
    | cmdTT =>
      obtain ⟨_, -, h⟩ := Option.bind_eq_some_iff.mp h
      cases h
      exact .inl ⟨rfl, .inl rfl⟩
    | localSta => exact .inr (.inl ⟨rfl, h⟩)
    | autonet | getApnInfo | adn =>
      have hanswer := codingWithOutSql_cases h
      exact .inr (.inr hanswer)
    | logout | lowVsim | vpnProfileRqst | vpnReleaseCmd | deal | cfmd => exact absurd rfl hpacked

/-- A message is a device frame, or it leaves the registry alone and is not dispatched. -/
theorem codingWithRecvData_cases (h : codingWithRecvData r para fd w msg = some received) :
    (received.registry = r ∧ received.outcome = .dropped) ∨
    ∃ (hfit : msg.length ≤ 256) (cmd : Cmd), routeOf msg = some (.device cmd) ∧
      deviceBranch r (recvBuf msg hfit) ((CArray.zero 256).overlay msg hfit) cmd para fd w =
        some received := by
  unfold codingWithRecvData at h
  split at h
  · cases h
    exact .inl ⟨rfl, rfl⟩
  · split at h
    · rename_i hfit
      obtain ⟨route, hroute, h⟩ := Option.bind_eq_some_iff.mp h
      cases route with
      | web =>
        obtain ⟨src, -, h⟩ := Option.bind_eq_some_iff.mp h
        obtain ⟨writes, -, h⟩ := Option.bind_eq_some_iff.mp h
        cases h
        exact .inl ⟨rfl, rfl⟩
      | device cmd => exact .inr ⟨hfit, cmd, hroute, h⟩
      | unknown =>
        cases h
        exact .inl ⟨rfl, rfl⟩
    · cases h

end Decoding

/-! ## Two records that are told apart -/

/-- A record of zeros. -/
def anonymous : Session := ⟨0, .zero 16, [], none, .zero 12, none⟩

/-- A record whose node pointer leads to no node. -/
def astray (r : Registry) : Session := { anonymous with node := some r.nodes.length }

/-- A record that holds a serial number. -/
def known (sn : List UInt8) (h : sn.length ≤ 16) : Session :=
  { anonymous with sn := (CArray.zero 16).overlay sn h }

/-- The last byte of `TempBuf` stays zero when less than all of it is stored to. -/
theorem overlay_last {a : CArray 256} (ha : a.bytes[255]? = some 0) {src : List UInt8}
    (h : src.length ≤ 256) (hlt : src.length ≤ 255) : (a.overlay src h).bytes[255]? = some 0 := by
  rw [CArray.getElem?_overlay, if_neg (by omega)]
  exact ha

section Apart
variable (r : Registry) (fd : ℤ) (w : World) (buf : CArray 512) {tempBuf : CArray 256}
  (hlast : tempBuf.bytes[255]? = some 0)
include hlast

theorem exists_cstr_tempPayload : ∃ log, (tempPayload buf tempBuf).cstr = some log := by
  apply CArray.exists_cstr (i := 255)
  apply overlay_last hlast
  exact (length_frameData_le ..).trans (Nat.le_of_lt_succ (frameSize_lt buf))

/-- Nobody is looked up for a record of zeros, and a pointer to no node is followed. -/
theorem reaction_apart_localSta :
    (deviceBranch r buf tempBuf .localSta anonymous fd w).bind Received.reaction ≠
      (deviceBranch r buf tempBuf .localSta (astray r) fd w).bind Received.reaction := by
  obtain ⟨log, hlog⟩ := exists_cstr_tempPayload buf hlast
  have hleft : (deviceBranch r buf tempBuf .localSta anonymous fd w).bind Received.reaction =
      some ⟨r, localAnswers (tempPayload buf tempBuf) fd, log⟩ := by
    show (tempPayload buf tempBuf).cstr.map _ = _
    rw [hlog]
    rfl
  have hright : deviceBranch r buf tempBuf .localSta (astray r) fd w = none :=
    if_neg (Nat.lt_irrefl r.nodes.length)
  rw [hleft, hright]
  exact Option.some_ne_none _

theorem reaction_apart_outSql {cmd : Cmd}
    (hcmd : cmd = .autonet ∨ cmd = .getApnInfo ∨ cmd = .adn) :
    (deviceBranch r buf tempBuf cmd anonymous fd w).bind Received.reaction ≠
      (deviceBranch r buf tempBuf cmd (astray r) fd w).bind Received.reaction := by
  obtain ⟨log, hlog⟩ := CArray.exists_cstr hlast
  have hbranch (para : Session) : deviceBranch r buf tempBuf cmd para fd w =
      codingWithOutSql r tempBuf cmd { para with num := frameNum buf } fd w := by
    rcases hcmd with rfl | rfl | rfl <;> rfl
  have hleft : (deviceBranch r buf tempBuf cmd anonymous fd w).bind Received.reaction =
      some ⟨r, [], log⟩ := by
    rw [hbranch]
    show tempBuf.cstr.map _ = _
    rw [hlog]
    rfl
  have hright : deviceBranch r buf tempBuf cmd (astray r) fd w = none := by
    rw [hbranch]
    unfold codingWithOutSql sessionNode astray
    simp
  rw [hleft, hright]
  exact Option.some_ne_none _

end Apart

/-- No trailer is looked for when the record holds a text of ten characters. -/
theorem codingWithTTData_of_named (buf : CArray 512) (tempBuf : CArray 256) {para : Session}
    (h : 10 ≤ (para.snArg.bytes.takeWhile (· ≠ 0)).length) :
    codingWithTTData buf tempBuf para = some (para.copyIMSI buf, ttPayload buf tempBuf) := by
  have hlooks : looksForTrailer (para.copyIMSI buf) = false := by
    unfold looksForTrailer
    rw [show (para.copyIMSI buf).snArg = para.snArg from rfl, decide_eq_false (by omega)]
    rfl
  unfold codingWithTTData
  rw [if_neg]
  · rfl
  · rw [hlooks]
    exact fun h => absurd h.1 (by decide)

/-- A device that is not known yet is told to report again, one that is known is not. -/
theorem reaction_apart_cmdTT (r : Registry) {fd : ℤ} (hfd : 0 < fd) (w : World)
    (buf : CArray 512) {tempBuf : CArray 256} (hlast : tempBuf.bytes[255]? = some 0) :
    (deviceBranch r buf tempBuf .cmdTT (known (text "172150210000937") (by decide)) fd w).bind
        Received.reaction ≠
      (deviceBranch r buf tempBuf .cmdTT (known (text "1111111111") (by decide)) fd w).bind
        Received.reaction := by
  have hlen : (frameData buf 9 (frameNum buf)).length ≤ 255 :=
    (length_frameData_le ..).trans (Nat.le_of_lt_succ (frameNum_lt buf))
  obtain ⟨log, hlog⟩ : ∃ log, (ttPayload buf tempBuf).cstr = some log :=
    CArray.exists_cstr (overlay_last hlast _ hlen)
  have hbranch {para : Session} (h : 10 ≤ (para.snArg.bytes.takeWhile (· ≠ 0)).length) :
      (deviceBranch r buf tempBuf .cmdTT para fd w).bind Received.reaction =
        some ⟨r, ttReinsert para fd, log⟩ := by
    have hnamed : codingWithTTData buf tempBuf { para with num := frameNum buf } = _ :=
      codingWithTTData_of_named buf tempBuf h
    unfold deviceBranch
    simp only [hnamed, Option.bind_eq_bind, Option.bind_some]
    show (ttPayload buf tempBuf).cstr.map _ = _
    rw [hlog]
    rfl
  have hknown : ttReinsert (known (text "172150210000937") (by decide)) fd = [] :=
    if_pos (by decide)
  have hunknown : ttReinsert (known (text "1111111111") (by decide)) fd ≠ [] := by
    unfold ttReinsert codingWithTTReinsert
    rw [if_neg (by decide), if_pos hfd]
    exact List.cons_ne_nil _ _
  rw [hbranch (by decide), hbranch (by decide), hknown]
  intro h
  exact hunknown (congrArg Reaction.writes (Option.some.inj h)).symm

/-- What `socket_read_cb` does with a message of at most 255 bytes does not depend on what its
local record holds, exactly when the message is not a frame of a command that reads the
record. -/
theorem reaction_independent_of_session (r : Registry) {fd : ℤ} (hfd : 0 < fd) (w : World)
    {msg : List UInt8} (hmsg : msg.length ≤ 255) :
    (∀ para para' : Session, socketReadCb r para fd w msg = socketReadCb r para' fd w msg) ↔
      ∀ cmd, routeOf msg = some (.device cmd) → readsSession cmd = false := by
  have hfits : msg.length ≤ 256 := by omega
  have hlast : ((CArray.zero 256).overlay msg hfits).bytes[255]? = some 0 :=
    overlay_last (by decide) hfits hmsg
  have hdevice {cmd : Cmd} (hroute : routeOf msg = some (.device cmd)) (para : Session) :
      socketReadCb r para fd w msg = (deviceBranch r (recvBuf msg hfits)
        ((CArray.zero 256).overlay msg hfits) cmd para fd w).bind Received.reaction := by
    rw [socketReadCb_eq, codingWithRecvData_of_device r para fd w hfits hroute]
  constructor
  · intro h cmd hroute
    by_contra hreads
    have hsame (para para' : Session) := h para para'
    simp only [hdevice hroute] at hsame
    cases cmd with
    | cmdTT => exact reaction_apart_cmdTT r hfd w _ hlast (hsame _ _)
    | localSta => exact reaction_apart_localSta r fd w _ hlast (hsame _ _)
    | autonet => exact reaction_apart_outSql r fd w _ hlast (.inl rfl) (hsame _ _)
    | getApnInfo => exact reaction_apart_outSql r fd w _ hlast (.inr (.inl rfl)) (hsame _ _)
    | adn => exact reaction_apart_outSql r fd w _ hlast (.inr (.inr rfl)) (hsame _ _)
    | _ => exact hreads rfl
  · intro h para para'
    by_cases hroute : ∃ cmd, routeOf msg = some (.device cmd)
    · obtain ⟨cmd, hroute⟩ := hroute
      rw [hdevice hroute, hdevice hroute]
      exact reaction_deviceBranch r para fd w _ _ (h cmd hroute) para'
    · exact reaction_of_not_device r para fd w (fun cmd hcmd => hroute ⟨cmd, hcmd⟩) para'

/-- A heartbeat is answered alike with a wild node pointer and with none. -/
theorem reaction_independent_of_session_heartbeat :
    socketReadCb connectToMysqlInit (astray connectToMysqlInit) 5 .silent
        ([0x84, 24] ++ List.replicate 9 0x11 ++ text "172150210000937") =
      socketReadCb connectToMysqlInit anonymous 5 .silent
        ([0x84, 24] ++ List.replicate 9 0x11 ++ text "172150210000937") := by
  apply (reaction_independent_of_session connectToMysqlInit (by decide) .silent
    (by decide)).mpr
  intro cmd hroute
  have hhb : routeOf ([0x84, 24] ++ List.replicate 9 0x11 ++ text "172150210000937") =
      some (.device .hb) := by decide
  rw [hhb] at hroute
  cases hroute
  rfl

/-- Transparent data that follows a login in the same record is passed on in silence; after
other contents the device is told to report again. -/
theorem reaction_depends_on_leftovers :
    (socketReadCb connectToMysqlInit (known (text "172150210000937") (by decide)) 5 .silent
        ([0x83, 15] ++ List.replicate 9 0x11 ++ [0xA0, 0xB0, 1, 1, 2, 0])).map Reaction.writes =
      some [] ∧
    (socketReadCb connectToMysqlInit (known (text "1111111111") (by decide)) 5 .silent
        ([0x83, 15] ++ List.replicate 9 0x11 ++ [0xA0, 0xB0, 1, 1, 2, 0])).map Reaction.writes =
      some [⟨5, [9, 0, 0, 0]⟩] := by
  decide +kernel

end Tdm.Device
