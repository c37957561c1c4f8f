import Tdm.Device.HandlerStores

/-!
# Relaying the answer of the SIM pool server

A reply that `Coding_With_CMDTT` receives in `RecvBuf[520]` is kept in `tmp_buff[128]`, goes to
`ReData[128]` in `SendBuf[256]` and from there behind a header in `RecvBuf`, which is written to
the device; then `tmp_buff` is written out in hexadecimal digits in `TT_buf[160]`, for the log.
Here the handler has these buffers and the record that it logs, and it agrees with
`codingWithCMDTT`, which has neither. `TT_buf` is the smallest of them.
-/

namespace Tdm.Device

open Tdm.Lib Tdm.Common

/-! ## The log record -/

/-- `Log_Data`. -/
structure LogData where
  sn : CArray 16
  buff : CArray 1004
  len : ℕ
deriving DecidableEq

/-- The text that `TT_Log_Pack_Data` prints. -/
def ttLogText (sn : List UInt8) (cnt : ℕ) (imsi ttBuf : List UInt8) (len now : ℤ) : List UInt8 :=
  text "45445445,2005,7|\x7b'SN':'" ++ sn ++ text "','TTCnt':'" ++ decimalInt cnt ++
    text "','IMSI':'" ++ imsi ++ text "','TTContext':'" ++ ttBuf ++
    text "','ContextLen':'" ++ decimalInt len ++ text "','lastTime':'" ++ decimalInt now ++
    text "'\x7d&&"

/-- `TT_Log_Pack_Data` with the record that it gives to the pool. -/
def ttLogRecord (node : DataSpm) (buff : List UInt8) (len now : ℤ) :
    Option (DataSpm × LogData) := do
  let ttBuf ← (CArray.zero 160).memcpy
    (if 0 < len then hex2String (buff.take len.toNat) ++ [0] else [])
  -- `imsi[18]` is the byte behind `sIMSI`
  let node := node.setNat Member.virFlag 0
  let sn ← (CArray.zero 16).memcpy (node.mem.read Member.key)
  let line := ttLogText (← node.mem.cstrAt Member.sn) (node.mem.getNat Member.ttCnt)
    (← node.mem.cstrAt Member.sIMSI) (← ttBuf.cstr) len now
  let printed ← (CArray.zero 1004).memcpy (line ++ [0])
  return (node, ⟨sn, printed, (← printed.cstr).length⟩)

/-! ## The way of the reply -/

/-- `ReData` of a `TT_RESULT_t` in `SendBuf`. -/
def reData : Field 256 := ⟨1, 128, by decide⟩

/-- `TT_Info_Process`. -/
def ttInfoProcess (src : List UInt8) (dst : CArray 256) : Option (CArray 256) :=
  if reData.size < src.length then none else dst.copyTo reData src

/-- `TT_Result_Pack` with data. -/
def ttResultPackData (src : CArray 256) (dst : CArray 520) (num : ℕ) (first : UInt8) :
    Option (CArray 520) :=
  if reData.size < num then none
  else dst.memcpy ([0x93, UInt8.ofNat num, 0, first] ++ (src.read reData).take num)

/-- The copies of a reply of `num` bytes: `tmp_buff` and what is written to the device. -/
def relayReply (recvBuf : CArray 520) (num : ℕ) (first : UInt8) :
    Option (CArray 128 × List UInt8) := do
  let tmpBuff ← (CArray.zero 128).memcpy (recvBuf.bytes.take num)
  let sendBuf ← ttInfoProcess (recvBuf.bytes.take num) (.zero 256)
  let recvBuf ← ttResultPackData sendBuf (.zero 520) num first
  return (tmpBuff, recvBuf.bytes.take (4 + num))

/-- The node after `Coding_With_CMDTT`, the frame it has written and the record it has logged. -/
structure Relayed where
  node : DataSpm
  frame : List UInt8
  log : LogData
deriving DecidableEq

/-- `Coding_With_CMDTT` after the exchange, with its buffers. -/
def cmdttRelay (sendbytes : ℤ) (recvBuf : CArray 520) (node : DataSpm) (now : ℤ) :
    Option Relayed := do
  let first := UInt8.ofNat (node.mem.getNat InBuff.first)
  if 1 < sendbytes then
    let (tmpBuff, frame) ← relayReply recvBuf sendbytes.toNat first
    let (node, log) ← ttLogRecord node tmpBuff.bytes sendbytes now
    return ⟨node, frame, log⟩
  else
    -- a reply of one byte is a code, and is logged as a negative length
    let result := (recvBuf.get 0).toNat
    let frame ← cmdttFrame first sendbytes recvBuf
    let node := if sendbytes = 1 ∧ result ∈ [1, 2, 3, 4, 6, 7, 8] then
      node.setNat Member.result 3 else node
    let (node, log) ← ttLogRecord node frame (if sendbytes = 1 then -result else 0) now
    return ⟨node, frame, log⟩

/-- `time(NULL)`, a value of 64 bits. -/
def World.lastTime (w : World) : ℤ := toSigned 64 (w.now % 2 ^ 64).toNat

/-- `Coding_With_CMDTT` with the record it logs. -/
def codingWithCMDTTLogged (node : DataSpm) (w : World) : Option Relayed := do
  let node ← cmdttStart node
  let (sendbytes, recvBuf, node) ← spmExchange node 520 w
  cmdttRelay sendbytes recvBuf node w.lastTime

/-! ## What is logged -/

theorem zero_notMem_hex2String (src : List UInt8) : 0 ∉ hex2String src := by
  have hdigit : ∀ v, v < 16 → hex2String.hexDigit v ≠ 0 := by decide
  intro h
  obtain ⟨b, -, hb⟩ := List.mem_flatMap.mp h
  have hlt := b.toNat_lt
  rcases List.mem_pair.mp hb with hb | hb
  · exact hdigit _ (by omega) hb.symm
  · exact hdigit _ (by omega) hb.symm

theorem zero_notMem_ttLogText {sn imsi ttBuf : List UInt8} (cnt : ℕ) (len now : ℤ)
    (hsn : 0 ∉ sn) (himsi : 0 ∉ imsi) (htt : 0 ∉ ttBuf) :
    0 ∉ ttLogText sn cnt imsi ttBuf len now := by
  simp only [ttLogText, List.mem_append, not_or]
  simp only [hsn, himsi, htt, zero_notMem_decimalInt, not_false_iff, and_true]
  decide

section Log
variable {node : DataSpm} {buff digits : List UInt8} {n : ℕ} {now : ℤ}

theorem cstrAt_sIMSI (hdigits : node.mem.read Member.sIMSI = digits) (hzero : 0 ∉ digits) :
    (node.setNat Member.virFlag 0).mem.cstrAt Member.sIMSI = some digits := by
  have hread : (node.setNat Member.virFlag 0).mem.read sIMSIText = digits ++ [0] := by
    have hnext := (node.setNat Member.virFlag 0).mem.read_adjacent (f := Member.sIMSI)
      (g := Member.virFlag) (h := sIMSIText) rfl rfl rfl
    rw [hnext, node.read_setNat 0 (by decide), hdigits]
    exact congrArg (digits ++ ·) (node.mem.read_setNat_self Member.virFlag 0)
  have hprefix : digits ++ [0] <+: (node.setNat Member.virFlag 0).mem.read sIMSIText :=
    ⟨[], by rw [hread, List.append_nil]⟩
  -- a string is found by where it starts
  show (node.setNat Member.virFlag 0).mem.cstrAt sIMSIText = _
  exact CArray.cstrAt_of_prefix hzero hprefix

/-- The record of a reply that fits `TT_buf` in digits. -/
theorem ttLogRecord_of_fits (hdigits : node.mem.read Member.sIMSI = digits) (hzero : 0 ∉ digits)
    (hne : 0 < n) (hn : n ≤ buff.length) (hfit : 2 * n + 1 ≤ 160) :
    ttLogRecord node buff n now = (node.mem.cstrAt Member.sn).bind fun sn =>
      let line := ttLogText sn (node.mem.getNat Member.ttCnt) digits (hex2String (buff.take n)) n now
      ((CArray.zero 1004).memcpy (line ++ [0])).map fun printed =>
        (node.setNat Member.virFlag 0,
          ⟨(CArray.zero 16).overlay node.key (by rw [node.length_key]; decide), printed,
            line.length⟩) := by
  have hhex : (hex2String (buff.take n) ++ [0]).length ≤ 160 := by
    rw [List.length_append, length_hex2String, List.length_take_of_le hn]
    exact hfit
  have hkey : (node.setNat Member.virFlag 0).mem.read Member.key = node.key :=
    node.read_setNat 0 (by decide)
  have hfits : node.key.length ≤ 16 := by
    rw [node.length_key]
    decide
  have hcnt : (node.setNat Member.virFlag 0).mem.getNat Member.ttCnt =
    node.mem.getNat Member.ttCnt := CArray.getNat_setNat_of_disjoint _ _ (by decide)
  have hsn : (node.setNat Member.virFlag 0).mem.cstrAt Member.sn = node.mem.cstrAt Member.sn :=
    ((CArray.Touches.refl _ _).setNat (List.mem_singleton_self _) 0).cstrAt_eq (by decide)
  simp only [ttLogRecord]
  rw [if_pos (by omega), Int.toNat_natCast, CArray.memcpy_of_le _ hhex, hkey,
    CArray.memcpy_of_le _ hfits, hsn,
    cstrAt_sIMSI hdigits hzero, hcnt]
  simp only [Option.bind_eq_bind, Option.bind_some,
    CArray.cstr_overlay_terminated (zero_notMem_hex2String _)]
  apply Option.bind_congr
  intro sn hread
  have hline := zero_notMem_ttLogText (node.mem.getNat Member.ttCnt) n now
    (CArray.zero_notMem_of_cstrAt hread) hzero (zero_notMem_hex2String (buff.take n))
  rw [Option.map_eq_bind]
  apply Option.bind_congr
  intro printed hprinted
  obtain ⟨hfits, rfl⟩ := CArray.memcpy_eq_some.mp hprinted
  rw [CArray.cstr_overlay_terminated hline]
  rfl

/-- One that does not. -/
theorem ttLogRecord_of_long (hn : n ≤ buff.length) (hlong : 160 < 2 * n + 1) :
    ttLogRecord node buff n now = none := by
  have hhex : ¬ (hex2String (buff.take n) ++ [0]).length ≤ 160 := by
    rw [List.length_append, length_hex2String, List.length_take_of_le hn]
    exact Nat.not_le.mpr hlong
  simp only [ttLogRecord]
  rw [if_pos (by omega), Int.toNat_natCast, CArray.memcpy, dif_neg hhex]
  rfl

/-- The record is packed only if `TT_Log_Pack_Data` runs. -/
theorem ttLogPackData_of_record {len : ℤ} {node' : DataSpm} {log : LogData}
    (hlen : len ≤ buff.length) (h : ttLogRecord node buff len now = some (node', log)) :
    ttLogPackData node len = some node' := by
  obtain ⟨ttBuf, htt, h⟩ := Option.bind_eq_some_iff.mp h
  obtain ⟨sn, -, h⟩ := Option.bind_eq_some_iff.mp h
  obtain ⟨snText, -, h⟩ := Option.bind_eq_some_iff.mp h
  obtain ⟨imsiText, -, h⟩ := Option.bind_eq_some_iff.mp h
  obtain ⟨digits, -, h⟩ := Option.bind_eq_some_iff.mp h
  obtain ⟨printed, -, h⟩ := Option.bind_eq_some_iff.mp h
  obtain ⟨line, -, h⟩ := Option.bind_eq_some_iff.mp h
  obtain ⟨rfl, -⟩ := Prod.mk.inj (Option.some.inj h)
  obtain ⟨hfit, -⟩ := CArray.memcpy_eq_some.mp htt
  have hfits : ¬ 160 < 2 * len + 1 := by
    split at hfit
    · rw [List.length_append, length_hex2String, List.length_take_of_le (by omega),
        List.length_singleton] at hfit
      omega
    · omega
  exact if_neg hfits

end Log

/-! ## What is relayed -/

section Reply
variable (recvBuf : CArray 520) {n : ℕ}

/-- A reply that fits `tmp_buff` and `ReData` is written as it came. -/
theorem relayReply_of_fits (first : UInt8) (hn : n ≤ 128) :
    ∃ tmpBuff, relayReply recvBuf n first = some (tmpBuff,
        [0x93, UInt8.ofNat n, 0, first] ++ recvBuf.bytes.take n) ∧
      tmpBuff.bytes.take n = recvBuf.bytes.take n := by
  have hlen : (recvBuf.bytes.take n).length = n := by
    rw [List.length_take_of_le]
    rw [recvBuf.size]
    omega
  simp only [relayReply, ttInfoProcess, ttResultPackData]
  generalize recvBuf.bytes.take n = src at hlen ⊢
  have hsrc : src.length ≤ 128 := hlen.trans_le hn
  have hdata : ¬ reData.size < src.length := Nat.not_lt.mpr hsrc
  have hnum : ¬ reData.size < n := Nat.not_lt.mpr hn
  have hsend : reData.off + src.length ≤ 256 := (Nat.add_le_add_left hsrc 1).trans (by decide)
  have hback : (((CArray.zero 256).put reData.off src hsend).read reData).take n = src := by
    obtain ⟨rest, hrest⟩ := (CArray.zero 256).prefix_read_put reData hsend hsrc
    rw [← hrest]
    exact List.take_left' hlen
  have hframe : ([0x93, UInt8.ofNat n, 0, first] ++ src).length = 4 + n := by
    rw [List.length_append, hlen]
    rfl
  refine ⟨(CArray.zero 128).overlay src hsrc, ?_, List.take_left' hlen⟩
  rw [CArray.memcpy_of_le _ hsrc, if_neg hdata, CArray.copyTo_of_le _ _ hsend]
  simp only [Option.bind_eq_bind, Option.bind_some]
  rw [if_neg hnum, hback, CArray.memcpy_of_le _ (by omega), Option.bind_some,
    CArray.bytes_overlay, List.take_left' hframe]
  rfl

theorem relayReply_of_long (first : UInt8) (hn : 128 < n) :
    relayReply recvBuf n first = none := by
  have hlen : ¬ (recvBuf.bytes.take n).length ≤ 128 := by
    rw [List.length_take, recvBuf.size]
    omega
  rw [relayReply, CArray.memcpy, dif_neg hlen]
  rfl

/-- Without the buffers and the record this is the answer of `Coding_With_CMDTT`. -/
theorem cmdttAnswer_of_relay {sendbytes now : ℤ} {node : DataSpm} {relayed : Relayed}
    (h : cmdttRelay sendbytes recvBuf node now = some relayed) :
    cmdttAnswer sendbytes recvBuf node = some (relayed.node, [relayed.frame]) := by
  simp only [cmdttRelay] at h
  split at h
  · rename_i hmany
    obtain ⟨⟨tmpBuff, frame⟩, hrelay, h⟩ := Option.bind_eq_some_iff.mp h
    obtain ⟨⟨node', log⟩, hlog, h⟩ := Option.bind_eq_some_iff.mp h
    obtain rfl := Option.some.inj h
    have hn : sendbytes.toNat ≤ 128 := by
      by_contra hlong
      rw [relayReply_of_long _ _ (Nat.lt_of_not_le hlong)] at hrelay
      cases hrelay
    obtain ⟨tmpBuff', hrelay', -⟩ := relayReply_of_fits recvBuf
      (UInt8.ofNat (node.mem.getNat InBuff.first)) hn
    obtain ⟨-, rfl⟩ := Prod.mk.inj (Option.some.inj (hrelay.symm.trans hrelay'))
    have hpacked := ttLogPackData_of_record (by rw [tmpBuff.size]; omega) hlog
    have hone : sendbytes ≠ 1 := by omega
    simp only [cmdttAnswer, cmdttFrame, hone, hmany, false_and, if_false, if_true]
    rw [if_neg (by omega), Option.bind_eq_bind, Option.bind_some, hpacked]
    rfl
  · rename_i hfew
    obtain ⟨frame, hframe, h⟩ := Option.bind_eq_some_iff.mp h
    obtain ⟨⟨node', log⟩, hlog, h⟩ := Option.bind_eq_some_iff.mp h
    obtain rfl := Option.some.inj h
    have hpacked := ttLogPackData_of_record (by split <;> omega) hlog
    simp only [cmdttAnswer, hframe, hfew, if_false, Option.bind_eq_bind, Option.bind_some, hpacked]
    rfl

end Reply

/-- Where the record can be packed, the handler does to the node and writes to the device what
`codingWithCMDTT` says. -/
theorem codingWithCMDTT_of_logged {node : DataSpm} {w : World} {relayed : Relayed}
    (h : codingWithCMDTTLogged node w = some relayed) :
    codingWithCMDTT node w = some (relayed.node, [relayed.frame]) := by
  obtain ⟨started, hstart, h⟩ := Option.bind_eq_some_iff.mp h
  obtain ⟨⟨sendbytes, recvBuf, exchanged⟩, hexchange, h⟩ := Option.bind_eq_some_iff.mp h
  rw [codingWithCMDTT_eq, hstart, Option.bind_some, hexchange, Option.bind_some]
  exact cmdttAnswer_of_relay _ h

/-! ## The handler -/

/-- The request reaches `Data_Coding_Spm`. -/
def asksSpm (node : DataSpm) (w : World) : Bool :=
  ((cmdttStart node).bind fun node => (pickUpDataSpm node w).bind PickedUp.record).isSome

/-- What `%s` finds at `SN` when the record is packed. -/
def loggedSN (node : DataSpm) : Option (List UInt8) := do
  let node ← cmdttStart node
  let node ← takeTrailer node
  node.mem.cstrAt Member.sn

/-- The frame that relays a reply. -/
def replyFrame (node : DataSpm) (reply : List UInt8) : List UInt8 :=
  [0x93, UInt8.ofNat reply.length, 0, UInt8.ofNat (node.mem.getNat InBuff.first)] ++ reply

/-- The line that logs a reply. -/
def replyLine (node : DataSpm) (w : World) (reply sn : List UInt8) : List UInt8 :=
  ttLogText sn (node.mem.getNat InBuff.first) (hex2String (node.mem.read Member.imsi))
    (hex2String reply) reply.length w.lastTime

section Handler
variable {node : DataSpm} {w : World} {reply : List UInt8} {hsome : reply ≠ []}

/-- A reply is in `RecvBuf` after the exchange, and the node still has what is packed. -/
theorem spmExchange_reply (hlen : reply.length ≤ 255) (hspm : w.spm = .reply reply hsome)
    (hasks : asksSpm node w = true) :
    ∃ started recvBuf exchanged, cmdttStart node = some started ∧
      spmExchange started 520 w = some ((reply.length : ℤ), recvBuf, exchanged) ∧
      recvBuf.bytes.take reply.length = reply ∧
      exchanged.mem.read Member.sIMSI = hex2String (node.mem.read Member.imsi) ∧
      exchanged.mem.getNat Member.ttCnt = node.mem.getNat InBuff.first ∧
      exchanged.mem.getNat InBuff.first = node.mem.getNat InBuff.first ∧
      exchanged.mem.cstrAt Member.sn = loggedSN node := by
  -- the request is made, so `PickUp_Data_Spm` has left a record
  obtain ⟨record, hrecord⟩ := Option.isSome_iff_exists.mp hasks
  obtain ⟨started, hstart, hrecord⟩ := Option.bind_eq_some_iff.mp hrecord
  obtain ⟨picked, hpicked, hrecord⟩ := Option.bind_eq_some_iff.mp hrecord
  have hfit : (reply ++ [0]).length ≤ 520 := by
    rw [List.length_append, List.length_singleton]
    omega
  let recvBuf := (CArray.zero 520).overlay (reply ++ [0]) hfit
  let exchanged := picked.node.setInt Member.socketSpm picked.socketSpm
  have hexchange : spmExchange started 520 w = some ((reply.length : ℤ), recvBuf, exchanged) := by
    simp only [spmExchange]
    rw [hpicked, Option.bind_eq_bind, Option.bind_some, hrecord]
    simp only [dataCodingSpm, hspm]
    rw [CArray.memcpy_of_le _ hfit]
    rfl
  -- what the record is printed from is stored before the exchange and left alone by it
  obtain ⟨started', hstart', hfields⟩ := cmdttStart_touches node
  obtain rfl := Option.some.inj (hstart.symm.trans hstart')
  obtain ⟨hdigits, hcnt⟩ := cmdttStart_stores hstart
  have htouches := spmExchange_touches hexchange
  obtain ⟨taken, htake, hafter⟩ := spmExchange_after hexchange
  refine ⟨started, recvBuf, exchanged, hstart, hexchange, ?_, ?_, ?_, ?_, ?_⟩
  · rw [CArray.bytes_overlay, List.append_assoc]
    exact List.take_left
  · rw [htouches.read_eq (by decide), hdigits]
  · rw [htouches.getNat_eq (by decide), hcnt]
  · rw [htouches.getNat_eq (by decide), hfields.getNat_eq (by decide)]
  · rw [hafter.cstrAt_eq (by decide), loggedSN, hstart, Option.bind_eq_bind, Option.bind_some,
      htake]
    rfl

/-- A reply that fits `TT_buf`. -/
theorem codingWithCMDTTLogged_of_fits (hlen : 2 ≤ reply.length) (hfit : reply.length ≤ 79)
    (hspm : w.spm = .reply reply hsome) (hasks : asksSpm node w = true) :
    ∃ node' sn', codingWithCMDTTLogged node w = (loggedSN node).bind fun sn =>
      ((CArray.zero 1004).memcpy (replyLine node w reply sn ++ [0])).map fun printed =>
        ⟨node', replyFrame node reply, ⟨sn', printed, (replyLine node w reply sn).length⟩⟩ := by
  obtain ⟨started, recvBuf, exchanged, hstart, hexchange, hreply, hdigits, hcnt, hfirst, hsn⟩ :=
    spmExchange_reply (by omega) hspm hasks
  obtain ⟨tmpBuff, hrelay, htmp⟩ := relayReply_of_fits recvBuf
    (UInt8.ofNat (node.mem.getNat InBuff.first)) (hfit.trans (by decide))
  refine ⟨exchanged.setNat Member.virFlag 0, (CArray.zero 16).overlay exchanged.key
    (by rw [exchanged.length_key]; decide), ?_⟩
  simp only [codingWithCMDTTLogged]
  rw [hstart, Option.bind_eq_bind, Option.bind_some, hexchange, Option.bind_eq_bind,
    Option.bind_some]
  simp only [cmdttRelay]
  rw [if_pos (by omega), Int.toNat_natCast, hfirst, hrelay, Option.bind_eq_bind, Option.bind_some]
  simp only
  rw [ttLogRecord_of_fits hdigits (zero_notMem_hex2String _) (by omega)
    (by rw [tmpBuff.size]; omega) (by omega), htmp, hreply, hsn, hcnt]
  simp only [Option.bind_assoc, Option.bind_eq_bind, Option.map_eq_bind]
  rfl

theorem codingWithCMDTTLogged_of_long (hlen : reply.length ≤ 255) (hlong : 79 < reply.length)
    (hspm : w.spm = .reply reply hsome) (hasks : asksSpm node w = true) :
    codingWithCMDTTLogged node w = none := by
  obtain ⟨started, recvBuf, exchanged, hstart, hexchange, -⟩ := spmExchange_reply hlen hspm hasks
  simp only [codingWithCMDTTLogged]
  rw [hstart, Option.bind_eq_bind, Option.bind_some, hexchange, Option.bind_eq_bind,
    Option.bind_some]
  simp only [cmdttRelay]
  rw [if_pos (by omega), Int.toNat_natCast]
  by_cases hn : reply.length ≤ 128
  · -- the copies fit, the digits do not
    obtain ⟨tmpBuff, hrelay, -⟩ := relayReply_of_fits recvBuf
      (UInt8.ofNat (exchanged.mem.getNat InBuff.first)) hn
    rw [hrelay, Option.bind_eq_bind, Option.bind_some]
    simp only
    rw [ttLogRecord_of_long (by rw [tmpBuff.size]; omega) (by omega)]
    rfl
  · rw [relayReply_of_long _ _ (by omega)]
    rfl

end Handler

/-! ## Room for the line -/

theorem length_decimalInt_le {v : ℤ} {k : ℕ} (h : v.natAbs < 10 ^ (k + 1)) :
    (decimalInt v).length ≤ k + 2 := by
  have hle := (length_decimal_le_iff v.natAbs k).mpr h
  rw [decimalInt_eq]
  split
  · exact Nat.succ_le_succ hle
  · omega

theorem natAbs_lastTime (w : World) : w.lastTime.natAbs < 10 ^ 19 := by
  have hlt : (w.now % 2 ^ 64).toNat < 2 ^ 64 := by omega
  have hbounds := toSigned_bounds (w := 64) (by decide) hlt
  rw [World.lastTime]
  omega

/-- The texts around the values have 93 characters. -/
theorem length_ttLogText (sn : List UInt8) (cnt : ℕ) (imsi ttBuf : List UInt8) (len now : ℤ) :
    (ttLogText sn cnt imsi ttBuf len now).length = 93 + sn.length + (decimalInt cnt).length +
      imsi.length + ttBuf.length + (decimalInt len).length + (decimalInt now).length := by
  simp only [ttLogText, List.length_append]
  rw [show (text "45445445,2005,7|\x7b'SN':'").length = 23 by decide,
    show (text "','TTCnt':'").length = 11 by decide, show (text "','IMSI':'").length = 10 by decide,
    show (text "','TTContext':'").length = 15 by decide,
    show (text "','ContextLen':'").length = 16 by decide,
    show (text "','lastTime':'").length = 14 by decide, show (text "'\x7d&&").length = 4 by decide]
  omega

theorem zero_notMem_loggedSN {node : DataSpm} {sn : List UInt8} (h : loggedSN node = some sn) :
    0 ∉ sn := by
  obtain ⟨started, -, h⟩ := Option.bind_eq_some_iff.mp h
  obtain ⟨taken, -, h⟩ := Option.bind_eq_some_iff.mp h
  exact CArray.zero_notMem_of_cstrAt h

/-- With a terminator in `SN` there is room for every line. -/
theorem length_replyLine_lt {node : DataSpm} (hsn : 0 ∈ node.mem.read Member.sn) (w : World)
    {reply : List UInt8} (hfit : reply.length ≤ 79) :
    ∃ sn, loggedSN node = some sn ∧ (replyLine node w reply sn).length < 1004 := by
  obtain ⟨started, hstart, hfields⟩ := cmdttStart_touches node
  obtain ⟨taken, htake, haddress, -⟩ := takeTrailer_spec started
  have hread : taken.mem.read Member.sn = node.mem.read Member.sn := by
    rw [haddress.read_eq (by decide), hfields.read_eq (by decide)]
  obtain ⟨sn, hcstr, hshort⟩ := CArray.exists_cstrAt (hread ▸ hsn)
  refine ⟨sn, ?_, ?_⟩
  · rw [loggedSN, hstart, Option.bind_eq_bind, Option.bind_some, htake]
    exact hcstr
  have hfirst : node.mem.getNat InBuff.first < 256 := node.mem.getNat_lt InBuff.first
  have hcnt : (decimalInt (node.mem.getNat InBuff.first)).length ≤ 2 + 2 :=
    length_decimalInt_le (by omega)
  have hlen : (decimalInt reply.length).length ≤ 1 + 2 := length_decimalInt_le (by omega)
  have htime : (decimalInt w.lastTime).length ≤ 18 + 2 := length_decimalInt_le (natAbs_lastTime w)
  have hdigits : (hex2String (node.mem.read Member.imsi)).length = 18 := by
    rw [length_hex2String, node.mem.length_read]
    rfl
  have hsize : Member.sn.size = 16 := rfl
  rw [replyLine, length_ttLogText, hdigits, length_hex2String]
  omega

/-- A node with a connection to the SIM pool server, and a request that begins with `A0`. -/
def relayNode : DataSpm :=
  ((initDataSpm.copySN ⟨text "172150210000937", fifteen_le_serial⟩).setInt Member.socketSpm 7).setNat
    InBuff.first 0xA0

/-- A server that replies with `n + 1` bytes `90`. -/
def relayWorld (n : ℕ) : World :=
  { World.silent with spm := .reply (List.replicate (n + 1) 0x90) (List.cons_ne_nil _ _) }

end Tdm.Device
