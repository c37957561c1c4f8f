import Tdm.Device.LoggedHandlers

/-!
# There is room for every record

`sprintf` prints a record of 20 entries to `Buff[1004]`, one of a released VPN to `buff[256]`, and
none of them checks for room. The numbers have at most 20 characters, and the texts end in `SN` as
long as its last byte is zero, so every record fits. With this the handlers that log are the handlers
of `codingWithDate`, but for a logout or a VPN whose text C cannot print (`Loggable`).
-/

namespace Tdm.Device

open Tdm.Lib Tdm.Common

/-! ## The texts of a node -/

/-- `SN[15]`. -/
def snEnd : Member := ⟨47, 1, by decide⟩

/-- `SN` ends in its last byte at the latest. -/
def SnEnds (node : DataSpm) : Prop := node.mem.read snEnd = [0]

instance (node : DataSpm) : Decidable (SnEnds node) := inferInstanceAs (Decidable (_ = _))

section Texts
variable {node : DataSpm} (h : SnEnds node)
include h

theorem exists_sn : ∃ s, node.mem.cstrAt Member.sn = some s ∧ s.length ≤ 15 := by
  have hread := node.mem.read_adjacent (f := Member.key) (g := snEnd) (h := Member.sn) rfl rfl rfl
  have hzero : 0 ∈ node.mem.read Member.sn := by
    rw [hread, show node.mem.read snEnd = [0] from h]
    exact List.mem_append_right _ (List.mem_singleton_self 0)
  obtain ⟨s, hs, hlen⟩ := CArray.exists_cstrAt hzero
  exact ⟨s, hs, Nat.le_of_lt_succ hlen⟩

/-- The text of the IMSI runs into `SN` if it has no terminator. -/
theorem exists_imsi : ∃ s, node.mem.cstrAt Member.sIMSI = some s ∧ s.length ≤ 35 := by
  let front : Member := ⟨12, 35, by decide⟩
  let reach : Member := ⟨12, 36, by decide⟩
  have hread := node.mem.read_adjacent (f := front) (g := snEnd) (h := reach) rfl rfl rfl
  have hzero : 0 ∈ node.mem.read reach := by
    rw [hread, show node.mem.read snEnd = [0] from h]
    exact List.mem_append_right _ (List.mem_singleton_self 0)
  obtain ⟨s, hs, hlen⟩ := CArray.exists_cstrAt hzero
  exact ⟨s, hs, Nat.le_of_lt_succ hlen⟩

end Texts

/-! ## Numbers -/

/-- A number of up to 63 bits. -/
theorem length_number {v : ℤ} (h : v.natAbs < 10 ^ 19) : (decimalInt v).length ≤ 20 :=
  length_decimalInt_le h

theorem length_getNat (node : DataSpm) {f : Member} (hf : f.size ≤ 4) :
    (decimalInt (node.mem.getNat f)).length ≤ 20 := by
  have hlt := node.mem.getNat_lt f
  have hpow : 256 ^ f.size ≤ 256 ^ 4 := Nat.pow_le_pow_right (by decide) hf
  apply length_number
  omega

theorem length_getInt (node : DataSpm) {f : Member} (hf : f.size ≤ 4) :
    (decimalInt (node.mem.getInt f)).length ≤ 20 := by
  have hlt := node.mem.getNat_lt f
  have hpow : 256 ^ f.size ≤ 256 ^ 4 := Nat.pow_le_pow_right (by decide) hf
  have hpow' : 2 ^ (8 * f.size) ≤ 2 ^ 32 := Nat.pow_le_pow_right (by decide) (by omega)
  have hrange : -2 ^ 32 ≤ node.mem.getInt f ∧ node.mem.getInt f < 2 ^ 32 := by
    rw [CArray.getInt, toSigned]
    have hcast : ((2 ^ (8 * f.size) : ℕ) : ℤ) ≤ 2 ^ 32 := by exact_mod_cast hpow'
    have hpos : (0 : ℤ) < 2 ^ (8 * f.size) := by positivity
    push_cast at hcast ⊢
    split <;> omega
  apply length_number
  omega

theorem length_lastTime (w : World) : (decimalInt w.lastTime).length ≤ 20 :=
  length_number (natAbs_lastTime w)

/-! ## Records -/

section Records
variable {sn imsi : List UInt8} (w : World)

theorem length_heartLogPack (hsn : sn.length ≤ 15) (himsi : imsi.length ≤ 35) (node : DataSpm) :
    (heartLogPack sn imsi node w.lastTime).length < 1004 := by
  have hnow := length_lastTime w
  have hmcc := length_getNat node (f := HbNew.mcc) (by decide)
  have hmnc := length_getNat node (f := HbNew.mnc) (by decide)
  have hlac := length_getInt node (f := HbNew.lac) (by decide)
  have hcid := length_getInt node (f := HbNew.cid) (by decide)
  have hused := length_getInt node (f := HbNew.localDataUsed) (by decide)
  have hstrength := length_getNat node (f := HbNew.sigStrength) (by decide)
  have hnames : (text "45445445,2002,6").length = 15 ∧ (text "location").length = 8 ∧
      (text "dayUsedFlow").length = 11 ∧ (text "roamGStrenth").length = 12 ∧
      (text "IMSI").length = 4 ∧ (text ".").length = 1 := by decide
  obtain ⟨hheader, hlocation, hday, hroam, hname, hdot⟩ := hnames
  rw [heartLogPack_eq, heartRecord, length_logRecord]
  simp only [List.map_cons, List.map_nil, List.sum_cons, List.sum_nil, location, List.length_append]
  omega

theorem length_localConfirmPack (hsn : sn.length ≤ 15) (himsi : imsi.length = 18)
    (version : List UInt8) (node : DataSpm) {iccid : List UInt8} (hiccid : iccid.length ≤ 23) :
    (localConfirmPack sn imsi version (node.mem.getInt Member.versionAPK) iccid
      w.lastTime).length < 1004 := by
  have hnow := length_lastTime w
  have hapk := length_getInt node (f := Member.versionAPK) (by decide)
  have hversion : (decimalInt (atoi version)).length ≤ 20 := by
    apply length_number
    rw [atoi, toInt32]
    omega
  have hnames : (text "45445445,2003,7").length = 15 ∧ (text "version").length = 7 ∧
      (text "IMSI").length = 4 ∧ (text "versionAPK").length = 10 ∧
      (text "TTContext").length = 9 := by decide
  obtain ⟨hheader, hname₁, hname₂, hname₃, hname₄⟩ := hnames
  rw [localConfirmPack_eq, confirmRecord, length_logRecord]
  simp only [List.map_cons, List.map_nil, List.sum_cons, List.sum_nil]
  omega

theorem length_logOutText (hsn : sn.length ≤ 24) (himsi : imsi.length = 18) :
    (logOutText sn imsi w.lastTime).length < 1004 := by
  have hnow := length_lastTime w
  have hnames : (text "45445445,2006,3").length = 15 ∧ (text "IMSI").length = 4 := by decide
  rw [logOutText_eq, logOutRecord, length_logRecord]
  simp only [List.map_cons, List.map_nil, List.sum_cons, List.sum_nil]
  omega

/-- The text of a serial number without terminator runs into that of the VPN. There is room for both. -/
theorem length_vpnLogText {vpn : List UInt8} (hsn : sn.length ≤ 65) (hvpn : vpn.length ≤ 49) :
    (vpnLogText sn vpn 1 0 1 w.lastTime).length < 256 := by
  have hnow := length_lastTime w
  have hnames : (text "45445445,2001,7").length = 15 ∧ (text "type").length = 4 ∧
      (text "07").length = 2 ∧ (text "TTContext").length = 9 ∧ (text "ContextLen").length = 10 ∧
      (text "gSta").length = 4 ∧ (text "battery").length = 7 ∧ (decimalInt 0).length = 1 ∧
      (decimalInt 1).length = 1 := by decide
  obtain ⟨hheader, hname₁, hvalue, hname₂, hname₃, hname₄, hname₅, hzero, hone⟩ := hnames
  rw [vpnLogText_eq, vpnRecord, length_logRecord]
  simp only [List.map_cons, List.map_nil, List.sum_cons, List.sum_nil]
  omega

theorem length_ttLogText_lt (hsn : sn.length ≤ 15) (himsi : imsi.length = 18) (node : DataSpm)
    {ttBuf : List UInt8} (htt : ttBuf.length < 160) {len : ℤ} (hlen : len.natAbs < 10 ^ 19) :
    (ttLogText sn (node.mem.getNat Member.ttCnt) imsi ttBuf len w.lastTime).length < 1004 := by
  have hnow := length_lastTime w
  have hcnt := length_getNat node (f := Member.ttCnt) (by decide)
  have hcontext := length_number hlen
  rw [length_ttLogText]
  omega

/-- The numbers of a flow, whatever they are. -/
theorem length_flowNumbers (node : DataSpm) {up down day : ℕ} (hup : up < 2 ^ 32)
    (hdown : down < 2 ^ 32) (hday : day < 2 ^ 32) :
    ((flowNumbers node up down day).map fun e => 6 + e.1.length + e.2.length).sum ≤ 556 := by
  have hvalues : ∀ e ∈ flowNumbers node up down day, e.2.length ≤ 20 := by
    have hstate : (node.mem.getNat UploadFlow.wifiState * 2 : ℤ).natAbs < 10 ^ 19 := by
      have hlt := node.mem.getNat_lt UploadFlow.wifiState
      change _ < 256 ^ 1 at hlt
      omega
    simp only [flowNumbers, List.forall_mem_cons]
    exact ⟨length_getInt node (by decide), length_getNat node (by decide),
      length_getNat node (by decide), length_number hstate, length_getNat node (by decide),
      length_getNat node (by decide), length_number (by omega), length_number (by omega),
      length_number (by omega), length_getInt node (by decide), length_getInt node (by decide),
      length_getInt node (by decide), length_getInt node (by decide),
      length_getInt node (by decide), length_getInt node (by decide), List.forall_mem_nil _⟩
  calc ((flowNumbers node up down day).map fun e => 6 + e.1.length + e.2.length).sum
      ≤ ((flowNumbers node up down day).map fun e => 6 + e.1.length + 20).sum :=
        List.sum_le_sum fun e he => Nat.add_le_add_left (hvalues e he) _
    _ ≤ 556 := by
        simp only [flowNumbers, List.map_cons, List.map_nil]
        decide +kernel

theorem length_localLogText (hsn : sn.length ≤ 15) (himsi : imsi.length ≤ 35) (node : DataSpm)
    {up down day : ℕ} (hup : up < 2 ^ 32) (hdown : down < 2 ^ 32) (hday : day < 2 ^ 32) :
    (localLogText sn imsi node up down day w.lastTime).length < 1004 := by
  have hnow := length_lastTime w
  have hnumbers := length_flowNumbers node hup hdown hday
  have hmcc := length_getInt node (f := UploadFlow.mcc) (by decide)
  have hmnc := length_getInt node (f := UploadFlow.mnc) (by decide)
  have hlac := length_getInt node (f := UploadFlow.lac) (by decide)
  have hcid := length_getInt node (f := UploadFlow.cid) (by decide)
  have hnet : (getNetworkType (node.mem.getInt UploadFlow.networkType)).length ≤ 6 := by
    unfold getNetworkType
    split <;> decide
  have hnames : (text "45445445,2001,20").length = 16 ∧ (text "location").length = 8 ∧
      (text "IMSI").length = 4 ∧ (text "TTContext").length = 9 ∧ (text ".").length = 1 := by decide
  obtain ⟨hheader, hlocation, hname, hcontext, hdot⟩ := hnames
  rw [localLogText_eq, flowRecord, length_logRecord]
  simp only [List.map_cons, List.map_append, List.map_nil, List.sum_cons, List.sum_append,
    List.sum_nil, location, List.length_append]
  omega

end Records

/-! ## Every record is made -/

/-- A logout that is not logged, or that has texts to print: its serial number ends in the message, and
its IMSI is not zero, which is replaced by `NULL`. -/
def LogoutPrints (node : DataSpm) (w : World) : Prop :=
  w.now - node.mem.getInt Member.outtime ≤ 25 ∨
    (0 ∈ node.mem.read InBuff.logout ∧
      hex2String (node.mem.read InBuff.logoutImsi) ≠ text "000000000000000000")

/-- A release that is not logged, or whose serial number ends in the message and gives the number of a
connection. -/
def ReleasePrints (node : DataSpm) : Prop :=
  ((node.mem.read InBuff.releasedVpn).takeWhile (· ≠ 0)).length ≤ 5 ∨
    ∃ sn, DataSpm.structText node InBuff.release = some sn ∧ 0 ≤ (atoll sn).tmod 10

/-- What the record of a message needs besides room. -/
def Loggable (node : DataSpm) (w : World) : Cmd → Prop
  | .logout => LogoutPrints node w
  | .vpnReleaseCmd => ReleasePrints node
  | .accessAuth | .simfileRequest | .ip | .cmdTT | .hb | .hbNew | .cfmd | .localSta | .lowVsim
  | .deal | .vpnProfileRqst | .adn | .getApnInfo | .autonet => True

section Made
variable {node node' : DataSpm} {w : World} {frames : List (List UInt8)}

theorem SnEnds.of_touches {fs : List Member} (h : SnEnds node) (htouches : node.mem.Touches fs node'.mem)
    (hfs : ∀ f ∈ fs, f.Disjoint snEnd) : SnEnds node' := by
  rw [SnEnds, htouches.read_eq hfs]
  exact h

/-- A record with clean texts that fits `Buff`. -/
theorem exists_job {header sn line key : List UInt8} {es : List (List UInt8 × List UInt8)} {now : ℤ}
    (hkey : key.length = 15) (hline : line = logFormat.render (logRecord header sn es now))
    (hclean : Clean 0 (logRecord header sn es now)) (hroom : line.length < 1004) :
    ∃ data, logData key line = some data :=
  exists_logData hkey (hline ▸ zero_notMem_render hclean) hroom

/-- The steps in which a `Log_Data` is filled. -/
theorem logData_parts {sn line : List UInt8} {data : LogData} (h : logData sn line = some data) :
    ∃ key printed s, (CArray.zero 16).memcpy sn = some key ∧
      (CArray.zero 1004).memcpy (line ++ [0]) = some printed ∧ printed.cstr = some s ∧
      data = ⟨key, printed, s.length⟩ := by
  obtain ⟨key, hkey, h⟩ := Option.bind_eq_some_iff.mp h
  obtain ⟨printed, hprinted, h⟩ := Option.bind_eq_some_iff.mp h
  obtain ⟨s, hs, h⟩ := Option.bind_eq_some_iff.mp h
  exact ⟨key, printed, s, hkey, hprinted, hs, (Option.some.inj h).symm⟩

theorem made_newHB (h : SnEnds node) :
    ∃ data, codingWithNewHBLogged node w.lastTime =
      some ⟨node.setNat Member.type 1, [], [.job data]⟩ := by
  have hends : SnEnds (node.setNat Member.type 1) :=
    h.of_touches ((CArray.Touches.refl _ _).setNat (List.mem_singleton_self _) 1) (by decide)
  obtain ⟨sn, hsn, hsnLen⟩ := exists_sn hends
  obtain ⟨imsi, himsi, himsiLen⟩ := exists_imsi hends
  obtain ⟨data, hdata⟩ := exists_job ((node.setNat Member.type 1).mem.length_read Member.key)
    (heartLogPack_eq sn imsi (node.setNat Member.type 1) w.lastTime)
    ((clean_heartRecord (by decide) _).mpr
      ⟨CArray.zero_notMem_of_cstrAt hsn, CArray.zero_notMem_of_cstrAt himsi⟩)
    (length_heartLogPack w hsnLen himsiLen _)
  refine ⟨data, ?_⟩
  simp only [codingWithNewHBLogged, Option.bind_eq_bind, hsn, Option.bind_some, himsi, hdata,
    Option.pure_def]

theorem flowNumber_lt (version : ℕ) {f : Member} (hf : f.size ≤ 4) :
    flowNumber version (node.mem.getNat f) < 2 ^ 32 := by
  have hlt := node.mem.getNat_lt f
  have hpow : 256 ^ f.size ≤ 256 ^ 4 := Nat.pow_le_pow_right (by decide) hf
  unfold flowNumber
  split <;> omega

theorem made_local (h : SnEnds node) :
    ∃ data, codingWithLocalLogged node w.lastTime = some ((codingWithLocal node).1, data) := by
  let typed := node.setNat Member.type 2
  have hends : SnEnds typed :=
    h.of_touches ((CArray.Touches.refl _ _).setNat (List.mem_singleton_self _) 2) (by decide)
  obtain ⟨sn, hsn, hsnLen⟩ := exists_sn hends
  obtain ⟨imsi, himsi, himsiLen⟩ := exists_imsi hends
  generalize hpack : localLogPack sn imsi typed (typed.mem.getNat Member.version) w.lastTime = packed
  obtain ⟨data, hdata⟩ : ∃ data, logData (node.mem.read Member.key) packed.2 = some data := by
    rw [← hpack]
    refine exists_job (node.mem.length_read Member.key) (localLogText_eq sn imsi _ w.lastTime _ _ _)
      ((clean_flowRecord (by decide) _ _ _ _).mpr ?_) (length_localLogText w hsnLen himsiLen _
        (flowNumber_lt _ (by decide)) (flowNumber_lt _ (by decide)) (flowNumber_lt _ (by decide)))
    exact ⟨CArray.zero_notMem_of_cstrAt hsn, CArray.zero_notMem_of_cstrAt himsi⟩
  obtain ⟨key, printed, s, hkey, hprinted, hs, rfl⟩ := logData_parts hdata
  refine ⟨⟨key, printed, s.length⟩, ?_⟩
  unfold codingWithLocalLogged
  dsimp only
  rw [hkey, Option.bind_eq_bind, Option.bind_some, hsn, Option.bind_eq_bind,
    Option.bind_some, himsi, Option.bind_eq_bind, Option.bind_some, hpack, hprinted,
    Option.bind_some, hs, ← hpack]
  rfl

theorem made_cfmd (h : SnEnds node) (hrun : codingWithCFMD node w = some (node', frames)) :
    ∃ data, codingWithCFMDLogged node w = some ⟨node', frames, [.job data]⟩ := by
  obtain ⟨tell, htell, hname⟩ := codingWithCFMD_names hrun
  have htouches : node.mem.Touches (handlerFields .cfmd) node'.mem := codingWithDate_touches hrun
  have hends : SnEnds node' := h.of_touches htouches (by decide)
  obtain ⟨sn, hsn, hsnLen⟩ := exists_sn hends
  have himsi := cstrAt_sIMSI_text hname
  have himsiLen : (hex2String (tell.read TellServerBill.imsi)).length = 18 := by
    rw [length_hex2String, tell.length_read]
    rfl
  -- `ICCID[20]` is copied to an array of 24 zeros
  have hiccid := tell.length_read TellServerBill.iccid
  obtain ⟨iccid, hcopied, s, hs⟩ : ∃ iccid : CArray 24, (CArray.zero 24).memcpy
      (tell.read TellServerBill.iccid) = some iccid ∧ ∃ s, iccid.cstr = some s := by
    have hfits : (tell.read TellServerBill.iccid).length ≤ 24 := hiccid.trans_le (by decide)
    exact ⟨_, CArray.memcpy_of_le _ hfits, _, (CArray.cstr_zero_overlay hfits).trans
      (if_pos (.inl (hiccid.trans_lt (by decide))))⟩
  have hsLen : s.length ≤ 23 := Nat.le_of_lt_succ (CArray.length_lt_of_cstr hs)
  obtain ⟨data, hdata⟩ := exists_job (tell.length_read TellServerBill.sn)
    (localConfirmPack_eq sn (hex2String (tell.read TellServerBill.imsi)) w.lastTime
      (tell.read TellServerBill.version) (node'.mem.getInt Member.versionAPK) s)
    ((clean_confirmRecord (by decide) _ _ s).mpr ⟨CArray.zero_notMem_of_cstrAt hsn,
      zero_notMem_hex2String _, CArray.zero_notMem_of_cstr hs⟩)
    (length_localConfirmPack w hsnLen himsiLen _ node' hsLen)
  refine ⟨data, ?_⟩
  simp only [codingWithCFMDLogged, Option.bind_eq_bind, htell, hcopied, hrun, hsn, himsi, hs, hdata,
    Option.bind_some, Option.pure_def]

/-- The record of a relayed reply. -/
theorem made_ttLogRecord (w : World) (buff : List UInt8) {len : ℤ} {digits : List UInt8}
    (h : SnEnds node)
    (hdigits : node.mem.read Member.sIMSI = digits) (hzero : 0 ∉ digits) (hlen : len ≤ buff.length)
    (hfit : ¬ 160 < 2 * len + 1) (hlow : -256 ≤ len) :
    ∃ log, ttLogRecord node buff len w.lastTime = some (node.setNat Member.virFlag 0, log) := by
  let cleared := node.setNat Member.virFlag 0
  have hends : SnEnds cleared :=
    h.of_touches ((CArray.Touches.refl _ _).setNat (List.mem_singleton_self _) 0) (by decide)
  obtain ⟨sn, hsn, hsnLen⟩ := exists_sn hends
  have himsi := cstrAt_sIMSI hdigits hzero
  have himsiLen : digits.length = 18 := by
    rw [← hdigits, CArray.length_read]
    rfl
  obtain ⟨ttBuf, htt, s, hs⟩ : ∃ ttBuf : CArray 160, (CArray.zero 160).memcpy
      (if 0 < len then hex2String (buff.take len.toNat) ++ [0] else []) = some ttBuf ∧
      ∃ s, ttBuf.cstr = some s := by
    split
    · have hhex : (hex2String (buff.take len.toNat) ++ [0]).length ≤ 160 := by
        rw [List.length_append, length_hex2String, List.length_take_of_le (by omega),
          List.length_singleton]
        omega
      exact ⟨_, CArray.memcpy_of_le _ hhex, _,
        CArray.cstr_overlay_terminated (zero_notMem_hex2String _) hhex⟩
    · exact ⟨_, CArray.memcpy_of_le _ (Nat.zero_le _), _, CArray.cstr_zero 160 (by decide)⟩
  obtain ⟨data, hdata⟩ := exists_job (cleared.mem.length_read Member.key)
    (ttLogText_eq sn digits w.lastTime (cleared.mem.getNat Member.ttCnt) s len)
    ((clean_ttRecord (by decide) _ s len).mpr ⟨CArray.zero_notMem_of_cstrAt hsn, hzero,
      CArray.zero_notMem_of_cstr hs⟩)
    (length_ttLogText_lt w hsnLen himsiLen cleared (CArray.length_lt_of_cstr hs) (by omega))
  obtain ⟨key, printed, line, hkey, hprinted, hline, rfl⟩ := logData_parts hdata
  refine ⟨⟨key, printed, line.length⟩, ?_⟩
  simp only [ttLogRecord, Option.bind_eq_bind, htt, hkey, cleared, hsn, himsi, hs, hprinted, hline,
    Option.bind_some, Option.pure_def]

/-- `Coding_With_CMDTT` after the exchange. -/
theorem made_relay {sendbytes : ℤ} {recvBuf : CArray 520} {digits : List UInt8} (h : SnEnds node)
    (hdigits : node.mem.read Member.sIMSI = digits) (hzero : 0 ∉ digits)
    (hrun : cmdttAnswer sendbytes recvBuf node = some (node', frames)) :
    ∃ frame log, frames = [frame] ∧
      cmdttRelay sendbytes recvBuf node w.lastTime = some ⟨node', frame, log⟩ := by
  have hbyte := (recvBuf.get 0).toNat_lt
  obtain ⟨frame, hframe, hrun⟩ := Option.bind_eq_some_iff.mp hrun
  obtain ⟨packed, hpacked, hrun⟩ := Option.bind_eq_some_iff.mp hrun
  obtain ⟨rfl, rfl⟩ := Prod.mk.inj (Option.some.inj hrun)
  unfold ttLogPackData at hpacked
  by_cases hmany : 1 < sendbytes
  · have hone : sendbytes ≠ 1 := by omega
    simp only [hone, hmany, false_and, if_false, if_true] at hpacked
    simp only [cmdttFrame, hone, hmany, if_false, if_true] at hframe
    split at hframe
    · cases hframe
    · rename_i hshort
      split at hpacked
      · cases hpacked
      · rename_i hfit
        obtain rfl := Option.some.inj hframe
        obtain rfl := Option.some.inj hpacked
        obtain ⟨tmpBuff, hrelay, -⟩ := relayReply_of_fits recvBuf
          (UInt8.ofNat (node.mem.getNat InBuff.first)) (n := sendbytes.toNat) (by omega)
        obtain ⟨log, hlog⟩ := made_ttLogRecord w tmpBuff.bytes h hdigits hzero
          (by rw [tmpBuff.size]; omega) hfit (by omega)
        refine ⟨_, log, rfl, ?_⟩
        simp only [cmdttRelay, hmany, if_true, hrelay, hlog, Option.bind_eq_bind, Option.bind_some,
          Option.pure_def]
  · simp only [hmany, if_false] at hpacked
    generalize hlen : (if sendbytes = 1 then -((recvBuf.get 0).toNat : ℤ) else 0) = len at hpacked
    have hrange : -256 ≤ len ∧ len ≤ 0 := by
      rw [← hlen]
      split <;> omega
    rw [if_neg (by omega)] at hpacked
    obtain rfl := Option.some.inj hpacked
    generalize hnoted : (if sendbytes = 1 ∧ (recvBuf.get 0).toNat ∈ [1, 2, 3, 4, 6, 7, 8] then
      node.setNat Member.result 3 else node) = noted
    have htouches : node.mem.Touches [Member.result] noted.mem := by
      rw [← hnoted]
      split
      · exact (CArray.Touches.refl _ _).setNat (List.mem_singleton_self _) 3
      · exact .refl _ _
    obtain ⟨log, hlog⟩ := made_ttLogRecord w frame
      (h.of_touches htouches (by decide)) ((htouches.read_eq (by decide)).trans hdigits) hzero
      (by omega) (by omega) hrange.1
    refine ⟨frame, log, rfl, ?_⟩
    simp only [cmdttRelay, hmany, if_false, hframe, hlen, hnoted, hlog, Option.bind_eq_bind,
      Option.bind_some, Option.pure_def]

theorem made_cmdtt (h : SnEnds node) (hrun : codingWithCMDTT node w = some (node', frames)) :
    ∃ frame log, frames = [frame] ∧ codingWithCMDTTLogged node w = some ⟨node', frame, log⟩ := by
  rw [codingWithCMDTT_eq] at hrun
  obtain ⟨started, hstart, hrun⟩ := Option.bind_eq_some_iff.mp hrun
  obtain ⟨⟨sendbytes, recvBuf, exchanged⟩, hexchange, hrun⟩ := Option.bind_eq_some_iff.mp hrun
  obtain ⟨started', hstart', hstarted⟩ := cmdttStart_touches node
  obtain rfl := Option.some.inj (hstart.symm.trans hstart')
  have htouches := spmExchange_touches hexchange
  have hends : SnEnds exchanged := (h.of_touches hstarted (by decide)).of_touches htouches (by decide)
  have hdigits : exchanged.mem.read Member.sIMSI = hex2String (node.mem.read Member.imsi) :=
    (htouches.read_eq (by decide)).trans (cmdttStart_stores hstart).1
  rw [codingWithCMDTTLogged, hstart, Option.bind_eq_bind, Option.bind_some, hexchange,
    Option.bind_eq_bind, Option.bind_some]
  exact made_relay hends hdigits (zero_notMem_hex2String _) hrun

theorem length_structText {f : Member} {s : List UInt8} (h : DataSpm.structText node f = some s) :
    s.length < f.size := by
  -- the struct is an array of its own
  let copied : CArray f.size := ⟨node.mem.read f, node.mem.length_read f⟩
  exact CArray.length_lt_of_cstr (a := copied) h

theorem made_logOut (hlogout : LogoutPrints node w) (hrun : codingWithLogOut node w = some (node', frames)) :
    ∃ calls, codingWithLogOutLogged node w = some ⟨node', frames, calls⟩ := by
  obtain ⟨cleared, -, hplain, hlogged⟩ := logOut_phases node w
  rw [hplain] at hrun
  rw [hlogged]
  split at hrun
  · rename_i hsoon
    cases hrun
    exact ⟨[], if_pos hsoon⟩
  · rename_i hlate
    cases hrun
    obtain ⟨hend, hne⟩ := hlogout.resolve_left hlate
    have hsn : DataSpm.structText node InBuff.logout =
      some ((node.mem.read InBuff.logout).takeWhile (· ≠ 0)) := if_pos hend
    have hsnLen : ((node.mem.read InBuff.logout).takeWhile (· ≠ 0)).length ≤ 24 :=
      Nat.le_of_lt_succ (length_structText hsn)
    have himsiLen : (hex2String (node.mem.read InBuff.logoutImsi)).length = 18 := by
      rw [length_hex2String, CArray.length_read]
      rfl
    obtain ⟨data, hdata⟩ := exists_job (node.mem.length_read InBuff.logoutSN)
      (logOutText_eq _ (hex2String (node.mem.read InBuff.logoutImsi)) w.lastTime)
      ((clean_logOutRecord (by decide)).mpr ⟨zero_notMem_structText hsn, zero_notMem_hex2String _⟩)
      (length_logOutText w hsnLen himsiLen)
    refine ⟨[.job data], (if_neg hlate).trans ?_⟩
    rw [hsn, Option.bind_some, logOutLogPack, if_neg hne, Option.bind_some, hdata]
    rfl

theorem made_vpnCmd (hrelease : ReleasePrints node)
    (hrun : codingWithVPNCmd node = some (node', frames)) :
    ∃ calls, codingWithVPNCmdLogged node w.lastTime = some ⟨node', frames, calls⟩ := by
  unfold codingWithVPNCmd at hrun
  unfold codingWithVPNCmdLogged
  dsimp only at hrun ⊢
  split at hrun
  · cases hrun
  · rename_i hend
    rw [if_neg hend]
    split at hrun
    · rename_i hshort
      cases hrun
      exact ⟨[], if_pos hshort⟩
    · rename_i hlong
      cases hrun
      obtain ⟨sn, hsn, hnum⟩ := hrelease.resolve_left hlong
      have hvpn : DataSpm.structText node InBuff.releasedVpn =
        some ((node.mem.read InBuff.releasedVpn).takeWhile (· ≠ 0)) := if_pos (not_not.mp hend)
      have hroom : (vpnLogText sn ((node.mem.read InBuff.releasedVpn).takeWhile (· ≠ 0)) 1 0 1
          w.lastTime ++ [0]).length ≤ 256 := by
        rw [List.length_append]
        exact length_vpnLogText w (Nat.le_of_lt_succ (length_structText hsn))
          (Nat.le_of_lt_succ (length_structText hvpn))
      have hindex : ¬ toInt32 ((atoll sn).tmod 10) < 0 := by
        have hlt := Int.tmod_lt_of_pos (atoll sn) (b := 10) (by decide)
        rw [toInt32]
        omega
      refine ⟨[.send (toInt32 ((atoll sn).tmod 10)).toNat ((CArray.zero 256).overlay _ hroom)],
        (if_neg hlong).trans ?_⟩
      simp only [hsn, Option.bind_eq_bind, Option.bind_some, vpnLog, CArray.memcpy_of_le _ hroom,
        if_neg hindex, Option.pure_def]

theorem logoutPrints_of_logged {logged : Logged} (h : codingWithLogOutLogged node w = some logged) :
    LogoutPrints node w := by
  obtain ⟨cleared, -, -, hlogged⟩ := logOut_phases node w
  rw [hlogged] at h
  split at h
  · rename_i hsoon
    exact .inl hsoon
  · obtain ⟨sn, hsn, h⟩ := Option.bind_eq_some_iff.mp h
    obtain ⟨line, hline, -⟩ := Option.bind_eq_some_iff.mp h
    refine .inr ⟨?_, ?_⟩
    · by_contra hend
      rw [DataSpm.structText, if_neg hend] at hsn
      cases hsn
    · intro hzeros
      rw [logOutLogPack, if_pos hzeros] at hline
      cases hline

theorem releasePrints_of_logged {now : ℤ} {logged : Logged}
    (h : codingWithVPNCmdLogged node now = some logged) : ReleasePrints node := by
  unfold codingWithVPNCmdLogged at h
  dsimp only at h
  split at h
  · cases h
  · split at h
    · rename_i hshort
      exact .inl hshort
    · obtain ⟨sn, hsn, h⟩ := Option.bind_eq_some_iff.mp h
      obtain ⟨call, hcall, -⟩ := Option.bind_eq_some_iff.mp h
      unfold vpnLog at hcall
      obtain ⟨buff, -, hcall⟩ := Option.bind_eq_some_iff.mp hcall
      dsimp only at hcall
      split at hcall
      · cases hcall
      · rename_i hindex
        have hlt := Int.tmod_lt_of_pos (atoll sn) (b := 10) (by decide)
        have hgt := Int.lt_tmod_of_pos (atoll sn) (b := 10) (by decide)
        rw [toInt32] at hindex
        exact .inr ⟨sn, hsn, by omega⟩

theorem loggable_of_logged {cmd : Cmd} {logged : Logged}
    (h : codingWithDateLogged node cmd w = some logged) : Loggable node w cmd := by
  cases cmd with
  | logout => exact logoutPrints_of_logged h
  | vpnReleaseCmd => exact releasePrints_of_logged h
  | _ => trivial

end Made

/-- A node whose texts have no terminator in front of the last byte of `SN`. -/
def fullNode : DataSpm :=
  ⟨DataSpm.zero.mem.put Member.sIMSI.off (List.replicate 35 0x31) (by decide), none⟩

end Tdm.Device
