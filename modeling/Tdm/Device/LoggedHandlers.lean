import Tdm.Device.LogRecords
import Tdm.Device.Footprints

/-!
# The handlers with the records they log

Six commands are logged. Their handlers fill a `Log_Data` and give it to the pool, except for the
release of a VPN, which is sent at once on the connection of its serial number. The handlers here have
these records; without them they are those of `codingWithDate`.

A record has no result where C has none: a text without terminator, `%s` with `NULL`, a negative
index. No text is too long for its buffer.
-/

namespace Tdm.Device

open Tdm.Lib Tdm.Common

/-! ## The handlers -/

/-- What a handler hands to the log: a record for the pool, or a text and the number of the connection
it is sent on. -/
inductive LogCall
  | job (data : LogData)
  | send (num : ℕ) (buff : CArray 256)

/-- The text to be sent. -/
def LogCall.line : LogCall → List UInt8
  | .job data => data.buff.bytes.take data.len
  | .send _ buff => buff.bytes.takeWhile (· ≠ 0)

/-- The node after a handler, the frames it has written and what it has logged. -/
structure Logged where
  node : DataSpm
  frames : List (List UInt8)
  calls : List LogCall

/-- A `Log_Data` with the serial number `sn`, after `line` was printed to its `Buff`. -/
def logData (sn line : List UInt8) : Option LogData := do
  let sn ← (CArray.zero 16).memcpy sn
  let printed ← (CArray.zero 1004).memcpy (line ++ [0])
  return ⟨sn, printed, (← printed.cstr).length⟩

/-- `Coding_With_NewHB`. -/
def codingWithNewHBLogged (node : DataSpm) (now : ℤ) : Option Logged := do
  let node := node.setNat Member.type 1
  let line := heartLogPack (← node.mem.cstrAt Member.sn) (← node.mem.cstrAt Member.sIMSI) node now
  return ⟨node, [], [.job (← logData (node.mem.read Member.key) line)]⟩

/-- `ICCID` of a `Tell_Server_Bill`. -/
def TellServerBill.iccid : Field 68 := ⟨48, 20, by decide⟩

/-- `Coding_With_CFMD`. The record is made from the message and from what the handler has left in the
node. -/
def codingWithCFMDLogged (node : DataSpm) (w : World) : Option Logged := do
  let len := node.mem.getNat Member.len
  let tell ← (CArray.zero 68).memcpy ((node.mem.read Member.buff).take len)
  let iccid ← (CArray.zero 24).memcpy (tell.read TellServerBill.iccid)
  let (node, frames) ← codingWithCFMD node w
  let line := localConfirmPack (← node.mem.cstrAt Member.sn) (← node.mem.cstrAt Member.sIMSI)
    (tell.read TellServerBill.version) (node.mem.getInt Member.versionAPK) (← iccid.cstr) w.lastTime
  return ⟨node, frames, [.job (← logData (tell.read TellServerBill.sn) line)]⟩

/-- The `Device_Logout` in `Buff`. -/
def InBuff.logout : Member := ⟨72, 25, by decide⟩

/-- `SN` of a `Device_Logout`, the bytes that are copied. -/
def InBuff.logoutSN : Member := ⟨72, 15, by decide⟩

/-- The string at the start of a struct that was copied out of a node, if it ends in there. -/
def DataSpm.structText (node : DataSpm) (f : Member) : Option (List UInt8) :=
  let bytes := node.mem.read f
  if 0 ∈ bytes then some (bytes.takeWhile (· ≠ 0)) else none

/-- `Coding_With_LogOut`. -/
def codingWithLogOutLogged (node : DataSpm) (w : World) : Option Logged := do
  let logout := node
  let node ← setSIMSI node (node.mem.read InBuff.logoutImsi)
  let node := if 0 < node.mem.getInt Member.fd1 then node.setNat Member.fd1 0 else node
  if w.now - node.mem.getInt Member.outtime ≤ 25 then return ⟨node, [], []⟩
  else
    let node := node.setInt Member.outtime w.now
    let line ← logOutLogPack (← DataSpm.structText logout InBuff.logout)
      (← node.mem.cstrAt Member.sIMSI) w.lastTime
    let data ← logData (logout.mem.read InBuff.logoutSN) line
    return ⟨closeSocketFd node Member.socketSpm, [], [.job data]⟩

/-- The `Release_Vpn` in `Buff`. -/
def InBuff.release : Member := ⟨72, 66, by decide⟩

/-- `VPN_Log`: the connection and the text. -/
def vpnLog (sn vpn : List UInt8) (result code type now : ℤ) : Option LogCall := do
  let buff ← (CArray.zero 256).memcpy (vpnLogText sn vpn result code type now ++ [0])
  let num := toInt32 ((atoll sn).tmod 10)
  if num < 0 then none else return .send num.toNat buff

/-- `Coding_With_VPN_CMD`. -/
def codingWithVPNCmdLogged (node : DataSpm) (now : ℤ) : Option Logged :=
  let vpn := node.mem.read InBuff.releasedVpn
  let answer : List (List UInt8) := [[Cmd.vpnReleaseCmd.tag, 0, 0, 0]]
  if 0 ∉ vpn then none
  else if (vpn.takeWhile (· ≠ 0)).length ≤ 5 then some ⟨node, answer, []⟩
  else do
    let call ← vpnLog (← DataSpm.structText node InBuff.release) (vpn.takeWhile (· ≠ 0)) 1 0 1 now
    return ⟨node.setNat Member.vpnFlag 0, answer, [call]⟩

/-- `Coding_With_Date`. -/
def codingWithDateLogged (node : DataSpm) (cmd : Cmd) (w : World) : Option Logged :=
  match cmd with
  | .cmdTT => (codingWithCMDTTLogged node w).map fun relayed =>
      ⟨relayed.node, [relayed.frame], [.job relayed.log]⟩
  | .hbNew => codingWithNewHBLogged node w.lastTime
  | .cfmd => codingWithCFMDLogged node w
  | .localSta => (codingWithLocalLogged node w.lastTime).map fun x => ⟨x.1, [], [.job x.2]⟩
  | .logout => codingWithLogOutLogged node w
  | .vpnReleaseCmd => codingWithVPNCmdLogged node w.lastTime
  | .accessAuth | .simfileRequest | .ip | .hb | .lowVsim | .deal | .vpnProfileRqst | .adn
  | .getApnInfo | .autonet => (codingWithDate node cmd w).map fun x => ⟨x.1, x.2, []⟩

/-! ## The parts of the handlers -/

section Parts
variable {node node' : DataSpm} {sn line imsi : List UInt8} {data : LogData} {w : World}

theorem logData_of_parts {key : CArray 16} {printed : CArray 1004} {s : List UInt8}
    (hkey : (CArray.zero 16).memcpy sn = some key)
    (hprinted : (CArray.zero 1004).memcpy (line ++ [0]) = some printed)
    (hs : printed.cstr = some s) : logData sn line = some ⟨key, printed, s.length⟩ := by
  rw [logData, hkey, Option.bind_eq_bind, Option.bind_some, hprinted, Option.bind_eq_bind,
    Option.bind_some, hs]
  rfl

/-- What is printed is what is sent. -/
theorem line_logData (hline : 0 ∉ line) (h : logData sn line = some data) :
    (LogCall.job data).line = line := by
  obtain ⟨sn', -, h⟩ := Option.bind_eq_some_iff.mp h
  obtain ⟨printed, hprinted, h⟩ := Option.bind_eq_some_iff.mp h
  obtain ⟨s, hs, h⟩ := Option.bind_eq_some_iff.mp h
  obtain rfl := Option.some.inj h
  obtain ⟨hfits, rfl⟩ := CArray.memcpy_eq_some.mp hprinted
  obtain rfl : line = s := Option.some.inj ((CArray.cstr_overlay_terminated hline hfits).symm.trans hs)
  show ((line ++ [0]) ++ _).take line.length = line
  rw [List.append_assoc]
  exact List.take_left' rfl

theorem exists_logData (hsn : sn.length = 15) (hline : 0 ∉ line) (hroom : line.length < 1004) :
    ∃ data, logData sn line = some data := by
  have hfits : (line ++ [0]).length ≤ 1004 := by
    rw [List.length_append]
    exact hroom
  rw [logData, CArray.memcpy_of_le _ (by omega), CArray.memcpy_of_le _ hfits]
  simp only [Option.bind_eq_bind, Option.bind_some, CArray.cstr_overlay_terminated hline hfits]
  exact ⟨_, rfl⟩

/-- The text of an IMSI with its terminator. -/
theorem read_setSIMSI_text (h : imsi.length = 9) (hset : setSIMSI node imsi = some node') :
    node'.mem.read sIMSIText = hex2String imsi ++ [0] := by
  obtain ⟨mem, hmem, rfl⟩ := Option.map_eq_some_iff.mp hset
  obtain ⟨hfit, rfl⟩ := CArray.copyTo_eq_some.mp hmem
  have hlen : (hex2String imsi ++ [0]).length = sIMSIText.size := by
    rw [List.length_append, length_hex2String, h]
    rfl
  have hstart := node.mem.prefix_read_put sIMSIText hfit hlen.le
  refine (hstart.eq_of_length ?_).symm
  rw [hlen]
  exact (CArray.length_read _ _).symm

theorem cstrAt_sIMSI_text (h : node.mem.read sIMSIText = hex2String imsi ++ [0]) :
    node.mem.cstrAt Member.sIMSI = some (hex2String imsi) := by
  show node.mem.cstrAt sIMSIText = _
  exact CArray.cstrAt_of_prefix (zero_notMem_hex2String imsi) ⟨[], by rw [h, List.append_nil]⟩

/-- `Coding_With_CFMD` leaves the IMSI of the message in the node. -/
theorem codingWithCFMD_names {frames : List (List UInt8)}
    (h : codingWithCFMD node w = some (node', frames)) :
    ∃ tell : CArray 68, (CArray.zero 68).memcpy
        ((node.mem.read Member.buff).take (node.mem.getNat Member.len)) = some tell ∧
      node'.mem.read sIMSIText = hex2String (tell.read TellServerBill.imsi) ++ [0] := by
  obtain ⟨tell, htell, h⟩ := Option.bind_eq_some_iff.mp h
  obtain ⟨⟨confirmed, frames'⟩, hconfirmed, h⟩ := Option.bind_eq_some_iff.mp h
  obtain ⟨named, hnamed, h⟩ := Option.bind_eq_some_iff.mp h
  have hname := read_setSIMSI_text (tell.length_read TellServerBill.imsi) hnamed
  cases h
  refine ⟨tell, htell, ?_⟩
  rw [read_closeSocketFd _ (by decide)]
  generalize hplaced : (if tell.getInt TellServerBill.mcc ≠ 0 then
      (named.setNat Member.versionAPK (tell.getNat TellServerBill.apkVersion)).setInt Member.mcc
        (tell.getInt TellServerBill.mcc)
    else named.setNat Member.versionAPK (tell.getNat TellServerBill.apkVersion)) = placed
  have hplace : placed.mem.read sIMSIText = named.mem.read sIMSIText := by
    rw [← hplaced]
    split
    · rw [DataSpm.read_setInt _ _ (by decide), DataSpm.read_setNat _ _ (by decide)]
    · rw [DataSpm.read_setNat _ _ (by decide)]
  rw [← hname, ← hplace]
  split
  · rw [DataSpm.read_setNat _ _ (by decide), DataSpm.read_setNat _ _ (by decide)]
  · rw [DataSpm.read_setNat _ _ (by decide)]

/-- A logout up to the question whether the last one was long ago, and from there on. -/
theorem logOut_phases (node : DataSpm) (w : World) :
    ∃ cleared : DataSpm, node.mem.Touches [sIMSIText, Member.fd1] cleared.mem ∧
      codingWithLogOut node w =
        (if w.now - node.mem.getInt Member.outtime ≤ 25 then some (cleared, [])
        else some (closeSocketFd (cleared.setInt Member.outtime w.now) Member.socketSpm, [])) ∧
      codingWithLogOutLogged node w =
        (if w.now - node.mem.getInt Member.outtime ≤ 25 then some ⟨cleared, [], []⟩
        else (DataSpm.structText node InBuff.logout).bind fun sn =>
          (logOutLogPack sn (hex2String (node.mem.read InBuff.logoutImsi)) w.lastTime).bind fun line =>
            (logData (node.mem.read InBuff.logoutSN) line).map fun data =>
              ⟨closeSocketFd (cleared.setInt Member.outtime w.now) Member.socketSpm, [],
                [.job data]⟩) := by
  have hlen := node.mem.length_read InBuff.logoutImsi
  obtain ⟨named, hnamed, htouches⟩ := setSIMSI_touches node hlen
  generalize hcleared : (if 0 < named.mem.getInt Member.fd1 then named.setNat Member.fd1 0
    else named) = cleared
  have hfd1 : named.mem.Touches [sIMSIText, Member.fd1] cleared.mem := by
    rw [← hcleared]
    split
    · exact (CArray.Touches.refl _ _).setNat (by simp) 0
    · exact .refl _ _
  have htext : cleared.mem.read sIMSIText =
      hex2String (node.mem.read InBuff.logoutImsi) ++ [0] := by
    rw [← read_setSIMSI_text hlen hnamed, ← hcleared]
    split
    · rw [DataSpm.read_setNat _ _ (by decide)]
    · rfl
  have htime : cleared.mem.getInt Member.outtime = node.mem.getInt Member.outtime := by
    have hread := ((htouches.mono (by simp)).trans hfd1).getNat_eq (f := Member.outtime) (by decide)
    rw [CArray.getInt, CArray.getInt, hread]
  have hstring : (cleared.setInt Member.outtime w.now).mem.cstrAt Member.sIMSI =
      some (hex2String (node.mem.read InBuff.logoutImsi)) := by
    apply cstrAt_sIMSI_text
    rw [DataSpm.read_setInt _ _ (by decide), htext]
  refine ⟨cleared, (htouches.mono (by simp)).trans hfd1, ?_, ?_⟩
  · rw [codingWithLogOut, hnamed, Option.bind_eq_bind, Option.bind_some]
    dsimp only
    rw [hcleared, htime]
    rfl
  · rw [codingWithLogOutLogged, hnamed, Option.bind_eq_bind, Option.bind_some]
    dsimp only
    rw [hcleared, htime, hstring]
    split
    · rfl
    · simp only [Option.map_eq_bind]
      rfl

end Parts

/-! ## Without the records -/

/-- What is logged changes nothing. -/
theorem codingWithDate_of_logged {node : DataSpm} {cmd : Cmd} {w : World} {logged : Logged}
    (h : codingWithDateLogged node cmd w = some logged) :
    codingWithDate node cmd w = some (logged.node, logged.frames) := by
  cases cmd with
  | cmdTT =>
    obtain ⟨relayed, hrelayed, rfl⟩ := Option.map_eq_some_iff.mp h
    exact codingWithCMDTT_of_logged hrelayed
  | hbNew =>
    obtain ⟨sn, -, h⟩ := Option.bind_eq_some_iff.mp h
    obtain ⟨imsi, -, h⟩ := Option.bind_eq_some_iff.mp h
    obtain ⟨data, -, h⟩ := Option.bind_eq_some_iff.mp h
    obtain rfl := Option.some.inj h
    rfl
  | cfmd =>
    obtain ⟨tell, -, h⟩ := Option.bind_eq_some_iff.mp h
    obtain ⟨iccid, -, h⟩ := Option.bind_eq_some_iff.mp h
    obtain ⟨⟨node', frames⟩, hrun, h⟩ := Option.bind_eq_some_iff.mp h
    obtain ⟨sn, -, h⟩ := Option.bind_eq_some_iff.mp h
    obtain ⟨imsi, -, h⟩ := Option.bind_eq_some_iff.mp h
    obtain ⟨s, -, h⟩ := Option.bind_eq_some_iff.mp h
    obtain ⟨data, -, h⟩ := Option.bind_eq_some_iff.mp h
    obtain rfl := Option.some.inj h
    exact hrun
  | localSta =>
    obtain ⟨⟨node', data⟩, hlocal, rfl⟩ := Option.map_eq_some_iff.mp h
    exact congrArg some (codingWithLocal_of_logged hlocal)
  | logout =>
    obtain ⟨cleared, -, hplain, hlogged⟩ := logOut_phases node w
    rw [codingWithDateLogged, hlogged] at h
    rw [codingWithDate, hplain]
    split at h
    · rename_i hsoon
      obtain rfl := Option.some.inj h
      exact if_pos hsoon
    · rename_i hlate
      obtain ⟨sn, -, h⟩ := Option.bind_eq_some_iff.mp h
      obtain ⟨line, -, h⟩ := Option.bind_eq_some_iff.mp h
      obtain ⟨data, -, rfl⟩ := Option.map_eq_some_iff.mp h
      exact if_neg hlate
  | vpnReleaseCmd =>
    simp only [codingWithDateLogged, codingWithVPNCmdLogged] at h
    simp only [codingWithDate, codingWithVPNCmd]
    split at h
    · cases h
    · rename_i hend
      rw [if_neg hend]
      split at h
      · rename_i hshort
        obtain rfl := Option.some.inj h
        exact if_pos hshort
      · rename_i hlong
        obtain ⟨sn, -, h⟩ := Option.bind_eq_some_iff.mp h
        obtain ⟨call, -, h⟩ := Option.bind_eq_some_iff.mp h
        obtain rfl := Option.some.inj h
        exact if_neg hlong
  | accessAuth | simfileRequest | ip | hb | lowVsim | deal | vpnProfileRqst | adn | getApnInfo
  | autonet =>
    rw [codingWithDateLogged, Option.map_eq_some_iff] at h
    obtain ⟨⟨node', frames⟩, hrun, rfl⟩ := h
    exact hrun

/-! ## What is logged -/

/-- What a record is about. -/
inductive LogKind
  | flow | heart | confirm | tt | logOut | vpn
deriving DecidableEq

/-- The number a record starts with. -/
def LogKind.header : LogKind → List UInt8
  | .flow => text "45445445,2001,20"
  | .heart => text "45445445,2002,6"
  | .confirm => text "45445445,2003,7"
  | .tt => text "45445445,2005,7"
  | .logOut => text "45445445,2006,3"
  | .vpn => text "45445445,2001,7"

/-- The records a message leads to: a logout is logged if the last one that was logged is more than 25
seconds ago, the release of a VPN if it is named. -/
def loggedKinds (node : DataSpm) (cmd : Cmd) (w : World) : List LogKind :=
  match cmd with
  | .cmdTT => [.tt]
  | .hbNew => [.heart]
  | .cfmd => [.confirm]
  | .localSta => [.flow]
  | .logout => if w.now - node.mem.getInt Member.outtime ≤ 25 then [] else [.logOut]
  | .vpnReleaseCmd =>
    if ((node.mem.read InBuff.releasedVpn).takeWhile (· ≠ 0)).length ≤ 5 then [] else [.vpn]
  | .accessAuth | .simfileRequest | .ip | .hb | .lowVsim | .deal | .vpnProfileRqst | .adn
  | .getApnInfo | .autonet => []

/-- The number of a record and its time. -/
def stamp (r : QuotedRecord UInt8) : List UInt8 × List UInt8 :=
  (r.header, (r.entries.getLast r.entries_ne_nil).2)

theorem stamp_logRecord (header sn : List UInt8) (es : List (List UInt8 × List UInt8)) (now : ℤ) :
    stamp (logRecord header sn es now) = (header, decimalInt now) := by
  have hlast : ((text "SN", sn) :: (es ++ [(text "lastTime", decimalInt now)])).getLast
      (List.cons_ne_nil _ _) = (text "lastTime", decimalInt now) := by
    rw [List.getLast_cons (List.append_ne_nil_of_right_ne_nil _ (List.cons_ne_nil _ _)),
      List.getLast_append_singleton]
  have htime : (((text "SN", sn) :: (es ++ [(text "lastTime", decimalInt now)])).getLast
      (List.cons_ne_nil _ _)).2 = decimalInt now := by rw [hlast]
  exact Prod.ext rfl htime

/-- A call of the log whose text is a record of the kind and time given. -/
def LogsRecord (call : LogCall) (kind : LogKind) (now : ℤ) : Prop :=
  ∃ r, call.line = logFormat.render r ∧ stamp r = (kind.header, decimalInt now)

section Records
variable {node node' : DataSpm} {w : World} {now : ℤ} {log : LogData}

theorem logsRecord_of_line {call : LogCall} (kind : LogKind) {sn : List UInt8}
    {es : List (List UInt8 × List UInt8)}
    (h : call.line = logFormat.render (logRecord kind.header sn es now)) : LogsRecord call kind now :=
  ⟨_, h, stamp_logRecord kind.header sn es now⟩

/-- A record with clean texts, printed to a `Log_Data`. -/
theorem logsRecord_job (kind : LogKind) {key sn line : List UInt8}
    {es : List (List UInt8 × List UInt8)} (hdata : logData key line = some log)
    (hline : line = logFormat.render (logRecord kind.header sn es now))
    (hclean : Clean 0 (logRecord kind.header sn es now)) : LogsRecord (.job log) kind now := by
  have hprinted : (LogCall.job log).line = line :=
    line_logData (hline ▸ zero_notMem_render hclean) hdata
  exact logsRecord_of_line kind (hprinted.trans hline)

theorem logs_ttLogRecord {buff : List UInt8} {len : ℤ}
    (h : ttLogRecord node buff len now = some (node', log)) : LogsRecord (.job log) .tt now := by
  obtain ⟨ttBuf, -, h⟩ := Option.bind_eq_some_iff.mp h
  obtain ⟨key, hkey, h⟩ := Option.bind_eq_some_iff.mp h
  obtain ⟨sn, hsn, h⟩ := Option.bind_eq_some_iff.mp h
  obtain ⟨imsi, himsi, h⟩ := Option.bind_eq_some_iff.mp h
  obtain ⟨digits, hdigits, h⟩ := Option.bind_eq_some_iff.mp h
  obtain ⟨printed, hprinted, h⟩ := Option.bind_eq_some_iff.mp h
  obtain ⟨s, hs, h⟩ := Option.bind_eq_some_iff.mp h
  obtain ⟨-, rfl⟩ := Prod.mk.inj (Option.some.inj h)
  refine logsRecord_job .tt (logData_of_parts hkey hprinted hs)
    (ttLogText_eq sn imsi now _ digits len) ?_
  exact (clean_ttRecord (by decide) _ digits len).mpr ⟨CArray.zero_notMem_of_cstrAt hsn,
    CArray.zero_notMem_of_cstrAt himsi, CArray.zero_notMem_of_cstr hdigits⟩

theorem logs_codingWithCMDTT {relayed : Relayed} (h : codingWithCMDTTLogged node w = some relayed) :
    LogsRecord (.job relayed.log) .tt w.lastTime := by
  obtain ⟨started, -, h⟩ := Option.bind_eq_some_iff.mp h
  obtain ⟨⟨sendbytes, recvBuf, exchanged⟩, -, h⟩ := Option.bind_eq_some_iff.mp h
  simp only [cmdttRelay] at h
  split at h
  · obtain ⟨⟨tmpBuff, frame⟩, -, h⟩ := Option.bind_eq_some_iff.mp h
    obtain ⟨⟨node', log⟩, hlog, h⟩ := Option.bind_eq_some_iff.mp h
    obtain rfl := Option.some.inj h
    exact logs_ttLogRecord hlog
  · obtain ⟨frame, -, h⟩ := Option.bind_eq_some_iff.mp h
    obtain ⟨⟨node', log⟩, hlog, h⟩ := Option.bind_eq_some_iff.mp h
    obtain rfl := Option.some.inj h
    exact logs_ttLogRecord hlog

theorem logs_codingWithLocal (h : codingWithLocalLogged node now = some (node', log)) :
    LogsRecord (.job log) .flow now := by
  obtain ⟨key, hkey, h⟩ := Option.bind_eq_some_iff.mp h
  obtain ⟨sn, hsn, h⟩ := Option.bind_eq_some_iff.mp h
  obtain ⟨imsi, himsi, h⟩ := Option.bind_eq_some_iff.mp h
  obtain ⟨printed, hprinted, h⟩ := Option.bind_eq_some_iff.mp h
  obtain ⟨s, hs, h⟩ := Option.bind_eq_some_iff.mp h
  obtain ⟨-, rfl⟩ := Prod.mk.inj (Option.some.inj h)
  refine logsRecord_job .flow (logData_of_parts hkey hprinted hs)
    (localLogText_eq sn imsi _ now _ _ _) ?_
  exact (clean_flowRecord (by decide) _ _ _ _).mpr
    ⟨CArray.zero_notMem_of_cstrAt hsn, CArray.zero_notMem_of_cstrAt himsi⟩

theorem logs_codingWithNewHB {logged : Logged} (h : codingWithNewHBLogged node now = some logged) :
    ∃ call, logged.calls = [call] ∧ LogsRecord call .heart now := by
  obtain ⟨sn, hsn, h⟩ := Option.bind_eq_some_iff.mp h
  obtain ⟨imsi, himsi, h⟩ := Option.bind_eq_some_iff.mp h
  obtain ⟨data, hdata, h⟩ := Option.bind_eq_some_iff.mp h
  obtain rfl := Option.some.inj h
  refine ⟨_, rfl, logsRecord_job .heart hdata (heartLogPack_eq sn imsi _ now) ?_⟩
  exact (clean_heartRecord (by decide) _).mpr
    ⟨CArray.zero_notMem_of_cstrAt hsn, CArray.zero_notMem_of_cstrAt himsi⟩

theorem logs_codingWithCFMD {logged : Logged} (h : codingWithCFMDLogged node w = some logged) :
    ∃ call, logged.calls = [call] ∧ LogsRecord call .confirm w.lastTime := by
  obtain ⟨tell, -, h⟩ := Option.bind_eq_some_iff.mp h
  obtain ⟨iccid, -, h⟩ := Option.bind_eq_some_iff.mp h
  obtain ⟨⟨node', frames⟩, -, h⟩ := Option.bind_eq_some_iff.mp h
  obtain ⟨sn, hsn, h⟩ := Option.bind_eq_some_iff.mp h
  obtain ⟨imsi, himsi, h⟩ := Option.bind_eq_some_iff.mp h
  obtain ⟨s, hs, h⟩ := Option.bind_eq_some_iff.mp h
  obtain ⟨data, hdata, h⟩ := Option.bind_eq_some_iff.mp h
  obtain rfl := Option.some.inj h
  refine ⟨_, rfl, logsRecord_job .confirm hdata (localConfirmPack_eq sn imsi _ _ _ s) ?_⟩
  exact (clean_confirmRecord (by decide) _ _ s).mpr ⟨CArray.zero_notMem_of_cstrAt hsn,
    CArray.zero_notMem_of_cstrAt himsi, CArray.zero_notMem_of_cstr hs⟩

theorem zero_notMem_structText {f : Member} {sn : List UInt8}
    (h : DataSpm.structText node f = some sn) : 0 ∉ sn := by
  -- the struct is an array of its own
  let copied : CArray f.size := ⟨node.mem.read f, node.mem.length_read f⟩
  exact CArray.zero_notMem_of_cstr (a := copied) h

/-- A logout that is logged. -/
theorem logs_logOut {sn line key : List UInt8} (hsn : DataSpm.structText node InBuff.logout = some sn)
    {imsi : List UInt8} (hline : logOutLogPack sn (hex2String imsi) now = some line)
    (hdata : logData key line = some log) : LogsRecord (.job log) .logOut now := by
  unfold logOutLogPack at hline
  split at hline
  · cases hline
  · obtain rfl := Option.some.inj hline
    refine logsRecord_job .logOut hdata (logOutText_eq sn _ now) ?_
    exact (clean_logOutRecord (by decide)).mpr
      ⟨zero_notMem_structText hsn, zero_notMem_hex2String imsi⟩

theorem logs_vpnLog {sn vpn : List UInt8} {result code type : ℤ} {call : LogCall} (hsn : 0 ∉ sn)
    (hvpn : 0 ∉ vpn) (h : vpnLog sn vpn result code type now = some call) :
    LogsRecord call .vpn now := by
  unfold vpnLog at h
  obtain ⟨buff, hbuff, h⟩ := Option.bind_eq_some_iff.mp h
  dsimp only at h
  split at h
  · cases h
  · obtain rfl := Option.some.inj h
    obtain ⟨hfits, rfl⟩ := CArray.memcpy_eq_some.mp hbuff
    have hclean : Clean 0 (vpnRecord sn vpn result code type now) :=
      (clean_vpnRecord (by decide) vpn result code type).mpr ⟨hsn, hvpn⟩
    have hzero := zero_notMem_render hclean
    rw [← vpnLogText_eq] at hzero
    have hcstr := CArray.cstr_overlay_terminated hzero hfits
    unfold CArray.cstr at hcstr
    split at hcstr
    · exact logsRecord_of_line .vpn
        ((Option.some.inj hcstr).trans (vpnLogText_eq sn now vpn result code type))
    · cases hcstr

/-- What is logged for a message: one record for each of its kinds, with the time of the message. -/
theorem logs_codingWithDate {cmd : Cmd} {logged : Logged}
    (h : codingWithDateLogged node cmd w = some logged) :
    List.Forall₂ (fun call kind => LogsRecord call kind w.lastTime) logged.calls
      (loggedKinds node cmd w) := by
  have hone : ∀ {kind : LogKind}, (∃ call, logged.calls = [call] ∧
      LogsRecord call kind w.lastTime) →
      List.Forall₂ (fun call kind => LogsRecord call kind w.lastTime) logged.calls [kind] := by
    rintro kind ⟨call, hcalls, hcall⟩
    rw [hcalls]
    exact .cons hcall .nil
  cases cmd with
  | cmdTT =>
    obtain ⟨relayed, hrelayed, rfl⟩ := Option.map_eq_some_iff.mp h
    exact hone ⟨_, rfl, logs_codingWithCMDTT hrelayed⟩
  | hbNew => exact hone (logs_codingWithNewHB h)
  | cfmd => exact hone (logs_codingWithCFMD h)
  | localSta =>
    obtain ⟨⟨node', data⟩, hlocal, rfl⟩ := Option.map_eq_some_iff.mp h
    exact hone ⟨_, rfl, logs_codingWithLocal hlocal⟩
  | logout =>
    obtain ⟨cleared, -, -, hlogged⟩ := logOut_phases node w
    rw [codingWithDateLogged, hlogged] at h
    rw [loggedKinds]
    split at h
    · rename_i hsoon
      obtain rfl := Option.some.inj h
      rw [if_pos hsoon]
      exact .nil
    · rename_i hlate
      obtain ⟨sn, hsn, h⟩ := Option.bind_eq_some_iff.mp h
      obtain ⟨line, hline, h⟩ := Option.bind_eq_some_iff.mp h
      obtain ⟨data, hdata, rfl⟩ := Option.map_eq_some_iff.mp h
      rw [if_neg hlate]
      exact hone ⟨_, rfl, logs_logOut hsn hline hdata⟩
  | vpnReleaseCmd =>
    simp only [codingWithDateLogged, codingWithVPNCmdLogged] at h
    rw [loggedKinds]
    split at h
    · cases h
    · split at h
      · rename_i hshort
        obtain rfl := Option.some.inj h
        rw [if_pos hshort]
        exact .nil
      · rename_i hlong
        obtain ⟨sn, hsn, h⟩ := Option.bind_eq_some_iff.mp h
        obtain ⟨call, hcall, h⟩ := Option.bind_eq_some_iff.mp h
        obtain rfl := Option.some.inj h
        have hvpn : 0 ∉ (node.mem.read InBuff.releasedVpn).takeWhile (· ≠ 0) := by
          intro hzero
          exact absurd (List.mem_takeWhile_imp hzero) (by simp)
        rw [if_neg hlong]
        exact hone ⟨_, rfl, logs_vpnLog (zero_notMem_structText hsn) hvpn hcall⟩
  | accessAuth | simfileRequest | ip | hb | lowVsim | deal | vpnProfileRqst | adn | getApnInfo
  | autonet =>
    rw [codingWithDateLogged, Option.map_eq_some_iff] at h
    obtain ⟨x, -, rfl⟩ := h
    exact .nil

end Records

end Tdm.Device
