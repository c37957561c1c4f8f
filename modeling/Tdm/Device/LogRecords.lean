import Tdm.Device.FlowLog
import Tdm.Lib.QuotedRecord

/-!
# The texts of log records

Six functions print records for the log server, all of them as `number|{'name':'value',..}&&` with the
texts a device has sent in between. Each text is the rendering of a record (`logFormat`), which says
what is logged; a reader gets the record back exactly if none of its texts holds a quote.
-/

namespace Tdm.Device

open Tdm.Lib Tdm.Common

/-! ## What is printed -/

namespace HbNew

def mcc : Member := ⟨72, 2, by decide⟩
def mnc : Member := ⟨74, 1, by decide⟩
def sigStrength : Member := ⟨75, 1, by decide⟩
def lac : Member := ⟨76, 4, by decide⟩
def cid : Member := ⟨80, 4, by decide⟩
-- behind the 12 bytes above, `Buff` being at 72
def localDataUsed : Member := ⟨72 + 12, 4, by decide⟩

end HbNew

/-- `sprintf("%d.%d.%d.%d")` of a location. -/
def location (mcc mnc lac cid : ℤ) : List UInt8 :=
  decimalInt mcc ++ text "." ++ decimalInt mnc ++ text "." ++ decimalInt lac ++ text "." ++
    decimalInt cid

theorem location_append (mcc mnc lac cid : ℤ) (rest : List UInt8) :
    location mcc mnc lac cid ++ rest = decimalInt mcc ++ (text "." ++ (decimalInt mnc ++ (text "." ++
      (decimalInt lac ++ (text "." ++ (decimalInt cid ++ rest)))))) := by
  simp only [location, List.append_assoc]

/-- `Heart_Log_Pack` on the `HB_NEW_t` in `Buff`. -/
def heartLogPack (sn imsi : List UInt8) (node : DataSpm) (now : ℤ) : List UInt8 :=
  text "45445445,2002,6|\x7b'SN':'" ++ sn ++ text "','location':'" ++
    location (node.mem.getNat HbNew.mcc) (node.mem.getNat HbNew.mnc) (node.mem.getInt HbNew.lac)
      (node.mem.getInt HbNew.cid) ++
    text "','dayUsedFlow':'" ++ decimalInt (node.mem.getInt HbNew.localDataUsed) ++
    text "','roamGStrenth':'" ++ decimalInt (node.mem.getNat HbNew.sigStrength) ++
    text "','IMSI':'" ++ imsi ++ text "','lastTime':'" ++ decimalInt now ++ text "'\x7d&&"

/-- `Local_Confirm_Pack`. -/
def localConfirmPack (sn imsi version : List UInt8) (apkversion : ℤ) (iccid : List UInt8) (now : ℤ) :
    List UInt8 :=
  text "45445445,2003,7|\x7b'SN':'" ++ sn ++ text "','version':'" ++ decimalInt (atoi version) ++
    text "','IMSI':'" ++ imsi ++ text "','versionAPK':'" ++ decimalInt apkversion ++
    text "','TTContext':'" ++ iccid ++ text "','lastTime':'" ++ decimalInt now ++ text "'\x7d&&"

/-- The text of `LOG_OUT_Log_Pack`. -/
def logOutText (sn imsi : List UInt8) (now : ℤ) : List UInt8 :=
  text "45445445,2006,3|\x7b'SN':'" ++ sn ++ text "','IMSI':'" ++ imsi ++ text "','lastTime':'" ++
    decimalInt now ++ text "'\x7d&&"

/-- `LOG_OUT_Log_Pack`. An IMSI of zeros is replaced by `NULL`, which `%s` must not get. -/
def logOutLogPack (sn imsi : List UInt8) (now : ℤ) : Option (List UInt8) :=
  if imsi = text "000000000000000000" then none else some (logOutText sn imsi now)

/-- The text of `VPN_Log`. -/
def vpnLogText (sn vpn : List UInt8) (result code type now : ℤ) : List UInt8 :=
  text "45445445,2001,7|\x7b'SN':'" ++ sn ++ text "','type':'07','TTContext':'" ++ vpn ++
    text "','ContextLen':'" ++ decimalInt type ++ text "','gSta':'" ++ decimalInt code ++
    text "','battery':'" ++ decimalInt result ++ text "','lastTime':'" ++ decimalInt now ++
    text "'\x7d&&"

/-! ## What it says -/

def logFormat : RecordFormat UInt8 where
  quote := 39
  opening := text "|\x7b"
  colon := text ":"
  comma := text ","
  closing := text "\x7d&&"
  quote_notMem_opening := by decide
  quote_notMem_closing := by decide
  not_closing_prefix_comma := by decide

/-- A record that starts with its serial number and ends with its time. -/
def logRecord (header sn : List UInt8) (entries : List (List UInt8 × List UInt8)) (now : ℤ) :
    QuotedRecord UInt8 where
  header := header
  entries := (text "SN", sn) :: (entries ++ [(text "lastTime", decimalInt now)])
  entries_ne_nil := List.cons_ne_nil _ _

def heartRecord (sn imsi : List UInt8) (node : DataSpm) (now : ℤ) : QuotedRecord UInt8 :=
  logRecord (text "45445445,2002,6") sn
    [(text "location", location (node.mem.getNat HbNew.mcc) (node.mem.getNat HbNew.mnc)
        (node.mem.getInt HbNew.lac) (node.mem.getInt HbNew.cid)),
      (text "dayUsedFlow", decimalInt (node.mem.getInt HbNew.localDataUsed)),
      (text "roamGStrenth", decimalInt (node.mem.getNat HbNew.sigStrength)), (text "IMSI", imsi)] now

def confirmRecord (sn imsi version : List UInt8) (apkversion : ℤ) (iccid : List UInt8) (now : ℤ) :
    QuotedRecord UInt8 :=
  logRecord (text "45445445,2003,7") sn
    [(text "version", decimalInt (atoi version)), (text "IMSI", imsi),
      (text "versionAPK", decimalInt apkversion), (text "TTContext", iccid)] now

def ttRecord (sn : List UInt8) (cnt : ℕ) (imsi ttBuf : List UInt8) (len now : ℤ) :
    QuotedRecord UInt8 :=
  logRecord (text "45445445,2005,7") sn
    [(text "TTCnt", decimalInt cnt), (text "IMSI", imsi), (text "TTContext", ttBuf),
      (text "ContextLen", decimalInt len)] now

def logOutRecord (sn imsi : List UInt8) (now : ℤ) : QuotedRecord UInt8 :=
  logRecord (text "45445445,2006,3") sn [(text "IMSI", imsi)] now

def vpnRecord (sn vpn : List UInt8) (result code type now : ℤ) : QuotedRecord UInt8 :=
  logRecord (text "45445445,2001,7") sn
    [(text "type", text "07"), (text "TTContext", vpn), (text "ContextLen", decimalInt type),
      (text "gSta", decimalInt code), (text "battery", decimalInt result)] now

/-- The numbers of an uploaded flow. -/
def flowNumbers (node : DataSpm) (up down day : ℕ) : List (List UInt8 × List UInt8) :=
  [(text "UploadFlowCount", decimalInt (node.mem.getInt UploadFlow.uploadFlowId)),
    (text "wifiCount", decimalInt (node.mem.getNat UploadFlow.wifiCount)),
    (text "battery", decimalInt (node.mem.getNat UploadFlow.battery)),
    (text "wifiState", decimalInt (node.mem.getNat UploadFlow.wifiState * 2)),
    (text "gSta", decimalInt (node.mem.getNat UploadFlow.status3g)),
    (text "gStrenth", decimalInt (node.mem.getNat UploadFlow.strength3g)),
    (text "upFlowAll", decimalInt up), (text "downFlowAll", decimalInt down),
    (text "dayUsedFlow", decimalInt day),
    (text "minsRemaining", decimalInt (node.mem.getInt InBuff.remainMin)),
    (text "roamGStrenth", decimalInt (node.mem.getInt UploadFlow.roam3gStrength)),
    (text "roamUpFlowAll", decimalInt (node.mem.getInt UploadFlow.roamUpFlowAll)),
    (text "roamDownFlowAll", decimalInt (node.mem.getInt UploadFlow.roamDownFlowAll)),
    (text "roamDayUsedFlow", decimalInt (node.mem.getInt UploadFlow.roamDayUsed)),
    (text "FlowDistinction", decimalInt (node.mem.getInt UploadFlow.flowAll))]

def flowRecord (sn imsi : List UInt8) (node : DataSpm) (up down day : ℕ) (now : ℤ) :
    QuotedRecord UInt8 :=
  logRecord (text "45445445,2001,20") sn
    ((text "location", location (node.mem.getInt UploadFlow.mcc) (node.mem.getInt UploadFlow.mnc)
        (node.mem.getInt UploadFlow.lac) (node.mem.getInt UploadFlow.cid)) ::
      (flowNumbers node up down day ++ [(text "IMSI", imsi),
        (text "TTContext", getNetworkType (node.mem.getInt UploadFlow.networkType))])) now

/-! ## A text is the rendering of its record -/

/-- What is printed behind the serial number. -/
def logTail (now : ℤ) : List (List UInt8 × List UInt8) → List UInt8
  | [] => text "','lastTime':'" ++ (decimalInt now ++ text "'\x7d&&")
  | (name, value) :: es => text "','" ++ (name ++ (text "':'" ++ (value ++ logTail now es)))

theorem renderEntries_logTail (name value : List UInt8) (es : List (List UInt8 × List UInt8))
    (now : ℤ) :
    logFormat.renderEntries ((name, value) :: (es ++ [(text "lastTime", decimalInt now)])) =
      text "'" ++ (name ++ (text "':'" ++ (value ++ logTail now es))) := by
  induction es generalizing name value with
  | nil => rfl
  | cons e es ih =>
    obtain ⟨name', value'⟩ := e
    rw [List.cons_append, logFormat.renderEntries_cons (List.cons_ne_nil _ _), ih]
    rfl

section Render
variable {header rest : List UInt8} {es : List (List UInt8 × List UInt8)} {now : ℤ}

/-- A text from its start on. -/
theorem text_logRecord {lit sn : List UInt8} (hlit : lit = header ++ text "|\x7b'SN':'")
    (hrest : rest = logTail now es) :
    lit ++ (sn ++ rest) = logFormat.render (logRecord header sn es now) := by
  rw [RecordFormat.render, logRecord, renderEntries_logTail, hlit, hrest, List.append_assoc]
  rfl

/-- A text from one of its values on. -/
theorem text_logTail (lit : List UInt8) {name value : List UInt8} (hlit : lit = text "','" ++ (name ++ text "':'"))
    (hrest : rest = logTail now es) : lit ++ (value ++ rest) = logTail now ((name, value) :: es) := by
  rw [hlit, hrest, List.append_assoc, List.append_assoc]
  rfl

variable (sn imsi : List UInt8) (node : DataSpm) (now : ℤ)

theorem heartLogPack_eq :
    heartLogPack sn imsi node now = logFormat.render (heartRecord sn imsi node now) := by
  simp only [heartLogPack, List.append_assoc]
  refine text_logRecord (by decide) ?_
  repeat refine text_logTail _ (by decide) ?_
  rfl

theorem localConfirmPack_eq (version : List UInt8) (apkversion : ℤ) (iccid : List UInt8) :
    localConfirmPack sn imsi version apkversion iccid now =
      logFormat.render (confirmRecord sn imsi version apkversion iccid now) := by
  simp only [localConfirmPack, List.append_assoc]
  refine text_logRecord (by decide) ?_
  repeat refine text_logTail _ (by decide) ?_
  rfl

theorem ttLogText_eq (cnt : ℕ) (ttBuf : List UInt8) (len : ℤ) :
    ttLogText sn cnt imsi ttBuf len now =
      logFormat.render (ttRecord sn cnt imsi ttBuf len now) := by
  simp only [ttLogText, List.append_assoc]
  refine text_logRecord (by decide) ?_
  repeat refine text_logTail _ (by decide) ?_
  rfl

theorem logOutText_eq : logOutText sn imsi now = logFormat.render (logOutRecord sn imsi now) := by
  simp only [logOutText, List.append_assoc]
  refine text_logRecord (by decide) ?_
  refine text_logTail _ (by decide) ?_
  rfl

theorem vpnLogText_eq (vpn : List UInt8) (result code type : ℤ) :
    vpnLogText sn vpn result code type now =
      logFormat.render (vpnRecord sn vpn result code type now) := by
  have htype : text "','type':'07','TTContext':'" =
      text "','type':'" ++ (text "07" ++ text "','TTContext':'") := by decide
  simp only [vpnLogText, htype, List.append_assoc]
  refine text_logRecord (by decide) ?_
  repeat refine text_logTail _ (by decide) ?_
  rfl

theorem localLogText_eq (up down day : ℕ) :
    localLogText sn imsi node up down day now =
      logFormat.render (flowRecord sn imsi node up down day now) := by
  unfold localLogText flowFront flowBack
  simp only [List.append_assoc]
  refine text_logRecord (by decide) ?_
  simp only [← location_append]
  iterate 8 refine text_logTail _ (by decide) ?_
  refine text_logTail (39 :: text ",'downFlowAll':'") (by decide) ?_
  refine text_logTail (39 :: text ",'dayUsedFlow':'") (by decide) ?_
  refine text_logTail (39 :: text ",'minsRemaining':'") (by decide) ?_
  repeat refine text_logTail _ (by decide) ?_
  rfl

end Render

/-! ## When a record can be read -/

/-- The bytes that mean something in a text: its terminator and the quote. -/
def marks : List UInt8 := [0, 39]

/-- The byte stands in no name or value. -/
def CleanEntries (c : UInt8) (es : List (List UInt8 × List UInt8)) : Prop :=
  ∀ e ∈ es, c ∉ e.1 ∧ c ∉ e.2

/-- The byte stands nowhere in the record. -/
def Clean (c : UInt8) (r : QuotedRecord UInt8) : Prop := c ∉ r.header ∧ CleanEntries c r.entries

theorem plain_iff_clean {r : QuotedRecord UInt8} : logFormat.Plain r ↔ Clean 39 r := Iff.rfl

theorem zero_notMem_render {r : QuotedRecord UInt8} (h : Clean 0 r) : 0 ∉ logFormat.render r :=
  logFormat.notMem_render (by decide) (by decide) h.1 h.2

section Clean
variable {c : UInt8} (hc : c ∈ marks)
include hc

theorem mark_cases : c = 0 ∨ c = 39 := List.mem_pair.mp hc

/-- A text that holds no mark. -/
theorem mark_notMem {s : List UInt8} (h : 0 ∉ s ∧ 39 ∉ s) : c ∉ s := by
  rcases mark_cases hc with rfl | rfl
  · exact h.1
  · exact h.2

theorem mark_notMem_decimalInt (v : ℤ) : c ∉ decimalInt v := by
  have hmark : isDigit c = false ∧ c ≠ 45 := by
    rcases mark_cases hc with rfl | rfl <;> decide
  exact notMem_decimalInt hmark.1 hmark.2 v

theorem mark_notMem_location (mcc mnc lac cid : ℤ) : c ∉ location mcc mnc lac cid := by
  have hdot : c ∉ text "." := mark_notMem hc (by decide)
  simp only [location, List.mem_append, mark_notMem_decimalInt hc, hdot, or_self, not_false_iff]

variable {name value : List UInt8} {es : List (List UInt8 × List UInt8)}

theorem cleanEntries_cons (hname : 0 ∉ name ∧ 39 ∉ name) :
    CleanEntries c ((name, value) :: es) ↔ c ∉ value ∧ CleanEntries c es := by
  unfold CleanEntries
  rw [List.forall_mem_cons]
  exact and_congr_left' (and_iff_right (mark_notMem hc hname))

theorem cleanEntries_singleton (hname : 0 ∉ name ∧ 39 ∉ name) :
    CleanEntries c [(name, value)] ↔ c ∉ value := by
  rw [cleanEntries_cons hc hname]
  exact and_iff_left (List.forall_mem_nil _)

/-- An entry that cannot hold a mark. -/
theorem cleanEntries_of_clean (hname : 0 ∉ name ∧ 39 ∉ name) (hvalue : c ∉ value) :
    CleanEntries c ((name, value) :: es) ↔ CleanEntries c es := by
  rw [cleanEntries_cons hc hname, and_iff_right hvalue]

theorem cleanEntries_number (hname : 0 ∉ name ∧ 39 ∉ name) (v : ℤ) :
    CleanEntries c ((name, decimalInt v) :: es) ↔ CleanEntries c es :=
  cleanEntries_of_clean hc hname (mark_notMem_decimalInt hc v)

variable {header sn imsi : List UInt8} {now : ℤ}

theorem clean_logRecord (hheader : 0 ∉ header ∧ 39 ∉ header) :
    Clean c (logRecord header sn es now) ↔ c ∉ sn ∧ CleanEntries c es := by
  have hlast : CleanEntries c [(text "lastTime", decimalInt now)] :=
    (cleanEntries_singleton hc (by decide)).mpr (mark_notMem_decimalInt hc now)
  refine (and_iff_right (mark_notMem hc hheader)).trans ?_
  rw [logRecord, cleanEntries_cons hc (by decide)]
  refine and_congr_right' ?_
  rw [CleanEntries, List.forall_mem_append]
  exact and_iff_left hlast

theorem clean_heartRecord (node : DataSpm) :
    Clean c (heartRecord sn imsi node now) ↔ c ∉ sn ∧ c ∉ imsi := by
  rw [heartRecord, clean_logRecord hc (by decide),
    cleanEntries_of_clean hc (by decide) (mark_notMem_location hc _ _ _ _),
    cleanEntries_number hc (by decide), cleanEntries_number hc (by decide),
    cleanEntries_singleton hc (by decide)]

theorem clean_confirmRecord (version : List UInt8) (apkversion : ℤ) (iccid : List UInt8) :
    Clean c (confirmRecord sn imsi version apkversion iccid now) ↔
      c ∉ sn ∧ c ∉ imsi ∧ c ∉ iccid := by
  rw [confirmRecord, clean_logRecord hc (by decide),
    cleanEntries_number hc (by decide), cleanEntries_cons hc (by decide),
    cleanEntries_number hc (by decide), cleanEntries_singleton hc (by decide)]

theorem clean_ttRecord (cnt : ℕ) (ttBuf : List UInt8) (len : ℤ) :
    Clean c (ttRecord sn cnt imsi ttBuf len now) ↔ c ∉ sn ∧ c ∉ imsi ∧ c ∉ ttBuf := by
  rw [ttRecord, clean_logRecord hc (by decide), cleanEntries_number hc (by decide),
    cleanEntries_cons hc (by decide), cleanEntries_cons hc (by decide),
    cleanEntries_number hc (by decide)]
  exact and_congr_right' (and_congr_right' (and_iff_left (List.forall_mem_nil _)))

theorem clean_logOutRecord : Clean c (logOutRecord sn imsi now) ↔ c ∉ sn ∧ c ∉ imsi := by
  rw [logOutRecord, clean_logRecord hc (by decide),
    cleanEntries_singleton hc (by decide)]

theorem clean_vpnRecord (vpn : List UInt8) (result code type : ℤ) :
    Clean c (vpnRecord sn vpn result code type now) ↔ c ∉ sn ∧ c ∉ vpn := by
  have htype : c ∉ text "07" := mark_notMem hc (by decide)
  rw [vpnRecord, clean_logRecord hc (by decide),
    cleanEntries_of_clean hc (by decide) htype,
    cleanEntries_cons hc (by decide), cleanEntries_number hc (by decide),
    cleanEntries_number hc (by decide), cleanEntries_number hc (by decide)]
  exact and_congr_right' (and_iff_left (List.forall_mem_nil _))

theorem clean_flowNumbers (node : DataSpm) (up down day : ℕ) :
    CleanEntries c (flowNumbers node up down day) := by
  unfold flowNumbers
  repeat refine (cleanEntries_number hc (by decide) _).mpr ?_
  exact List.forall_mem_nil _

theorem mark_notMem_getNetworkType (v : ℤ) : c ∉ getNetworkType v := by
  apply mark_notMem hc
  unfold getNetworkType
  split <;> decide

theorem clean_flowRecord (node : DataSpm) (up down day : ℕ) :
    Clean c (flowRecord sn imsi node up down day now) ↔ c ∉ sn ∧ c ∉ imsi := by
  have hback : CleanEntries c [(text "IMSI", imsi), (text "TTContext",
      getNetworkType (node.mem.getInt UploadFlow.networkType))] ↔ c ∉ imsi := by
    rw [cleanEntries_cons hc (by decide), cleanEntries_singleton hc (by decide),
      and_iff_left (mark_notMem_getNetworkType hc _)]
  rw [flowRecord, clean_logRecord hc (by decide),
    cleanEntries_of_clean hc (by decide) (mark_notMem_location hc _ _ _ _), CleanEntries,
    List.forall_mem_append]
  exact and_congr_right' ((and_iff_right (clean_flowNumbers hc node up down day)).trans hback)

end Clean

/-- For every record and every text in it: a reader of what is printed gets the record exactly if the
texts that a device or the backend has supplied are without quotes. -/
theorem records_readable_iff (sn imsi : List UInt8) (node : DataSpm) (now : ℤ) :
    (logFormat.decode (heartLogPack sn imsi node now) = some [heartRecord sn imsi node now] ↔
      39 ∉ sn ∧ 39 ∉ imsi) ∧
    (∀ version apkversion iccid,
      logFormat.decode (localConfirmPack sn imsi version apkversion iccid now) =
        some [confirmRecord sn imsi version apkversion iccid now] ↔
      39 ∉ sn ∧ 39 ∉ imsi ∧ 39 ∉ iccid) ∧
    (∀ cnt ttBuf len, logFormat.decode (ttLogText sn cnt imsi ttBuf len now) =
        some [ttRecord sn cnt imsi ttBuf len now] ↔ 39 ∉ sn ∧ 39 ∉ imsi ∧ 39 ∉ ttBuf) ∧
    (logFormat.decode (logOutText sn imsi now) = some [logOutRecord sn imsi now] ↔
      39 ∉ sn ∧ 39 ∉ imsi) ∧
    (∀ vpn result code type, logFormat.decode (vpnLogText sn vpn result code type now) =
        some [vpnRecord sn vpn result code type now] ↔ 39 ∉ sn ∧ 39 ∉ vpn) ∧
    ∀ up down day, logFormat.decode (localLogText sn imsi node up down day now) =
        some [flowRecord sn imsi node up down day now] ↔ 39 ∉ sn ∧ 39 ∉ imsi := by
  have hquote : (39 : UInt8) ∈ marks := by decide
  have hdecode : ∀ r, logFormat.decode (logFormat.render r) = some [r] ↔ Clean 39 r := by
    intro r
    have hone : [r].flatMap logFormat.render = logFormat.render r := by
      rw [List.flatMap_singleton]
    rw [← hone, logFormat.decode_flatMap, List.forall_mem_singleton, plain_iff_clean]
  refine ⟨?_, ?_, ?_, ?_, ?_, ?_⟩
  · rw [heartLogPack_eq, hdecode, clean_heartRecord hquote]
  · intro version apkversion iccid
    rw [localConfirmPack_eq, hdecode, clean_confirmRecord hquote]
  · intro cnt ttBuf len
    rw [ttLogText_eq, hdecode, clean_ttRecord hquote]
  · rw [logOutText_eq, hdecode, clean_logOutRecord hquote]
  · intro vpn result code type
    rw [vpnLogText_eq, hdecode, clean_vpnRecord hquote]
  · intro up down day
    rw [localLogText_eq, hdecode, clean_flowRecord hquote]

/-! ## How long a record is -/

theorem length_logTail (now : ℤ) (es : List (List UInt8 × List UInt8)) :
    (logTail now es).length =
      18 + (decimalInt now).length + (es.map fun e => 6 + e.1.length + e.2.length).sum := by
  induction es with
  | nil =>
    simp only [logTail, List.length_append, List.map_nil, List.sum_nil]
    rw [show (text "','lastTime':'").length = 14 by decide, show (text "'\x7d&&").length = 4 by decide]
    omega
  | cons e es ih =>
    simp only [logTail, List.length_append, List.map_cons, List.sum_cons, ih]
    rw [show (text "','").length = 3 by decide, show (text "':'").length = 3 by decide]
    omega

theorem length_logRecord (header sn : List UInt8) (es : List (List UInt8 × List UInt8)) (now : ℤ) :
    (logFormat.render (logRecord header sn es now)).length = header.length + 26 + sn.length +
      (decimalInt now).length + (es.map fun e => 6 + e.1.length + e.2.length).sum := by
  rw [← text_logRecord rfl rfl]
  simp only [List.length_append, length_logTail]
  rw [show (text "|\x7b'SN':'").length = 8 by decide]
  omega

end Tdm.Device
