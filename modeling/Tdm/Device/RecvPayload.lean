import Tdm.Device.TTLength

/-!
# What is left in `TempBuf`

`TempBuf` is filled with the whole frame and then with its payload, from the same start: what the
payload does not cover is still the end of the frame. So handlers that read a whole struct, and
the log worker, see the last bytes of the frame a second time unless they are zero.
-/

namespace Tdm.Device

open Tdm.Lib Tdm.Common

/-- The commands whose payload is copied to `TempBuf`. -/
def copiesPayload (cmd : Cmd) : Bool :=
  cmd ∈ [Cmd.accessAuth, .simfileRequest, .hbNew, .hb, .vpnProfileRqst, .vpnReleaseCmd, .deal,
    .lowVsim, .logout, .cfmd, .localSta, .cmdTT]

/-- Where the bytes that are copied begin: behind the header, for `TAG_CMDTT` behind the IMSI. -/
def payloadStart (cmd : Cmd) : ℕ := if cmd = .cmdTT then 11 else 2

/-- A frame whose `FrameSize` is the length of its payload. -/
def wellFormed (cmd : Cmd) (payload : List UInt8) : List UInt8 :=
  cmd.tag :: UInt8.ofNat payload.length :: payload

/-- A frame that fits `TempBuf` announces its length in one byte. -/
theorem sizeByte_wellFormed (cmd : Cmd) {payload : List UInt8}
    (hfit : (wellFormed cmd payload).length ≤ 256) :
    sizeByte (wellFormed cmd payload) = payload.length := by
  have hlen : payload.length + 2 ≤ 256 := hfit
  show (UInt8.ofNat payload.length).toNat = _
  rw [UInt8.toNat_ofNat']
  omega

/-! ## Two copies in one buffer -/

/-- The bytes from `start` on are copied over the message; nothing else is left exactly if the
rest of the message is zero. -/
theorem bytes_eq_payload_iff {buf : CArray 256} {msg : List UInt8} {start : ℕ}
    (hfit : msg.length ≤ 256)
    (hbuf : ∀ i < 256, buf.bytes[i]? = some
      (if i < (msg.drop start).length then byteAt msg (i + start) else byteAt msg i)) :
    buf.bytes = msg.drop start ++ List.replicate (256 - (msg.drop start).length) 0 ↔
      ∀ b ∈ msg.drop (msg.drop start).length, b = 0 := by
  have hle : (msg.drop start).length ≤ msg.length := by
    rw [List.length_drop]
    omega
  generalize hn : (msg.drop start).length = n at hbuf hle
  constructor
  · -- behind the payload the buffer has the bytes of the message that were there before
    intro h b hb
    obtain ⟨j, hj⟩ := List.mem_iff_getElem?.mp hb
    rw [List.getElem?_drop] at hj
    have hlt : n + j < msg.length := (List.getElem?_eq_some_iff.mp hj).1
    have hbyte := hbuf (n + j) (by omega)
    rw [h, List.getElem?_append_right (by omega), if_neg (by omega), hn,
      List.getElem?_replicate_of_lt (by omega), byteAt, List.getD_eq_getElem?_getD, hj] at hbyte
    exact (Option.some.inj hbyte).symm
  · intro h
    apply List.ext_getElem?
    intro i
    by_cases hi : i < 256
    · -- the payload, the end of the message, and what was never written
      rw [hbuf i hi]
      by_cases hpayload : i < n
      · rw [if_pos hpayload, List.getElem?_append_left (by omega), List.getElem?_drop, byteAt,
          List.getD_eq_getElem?_getD, Nat.add_comm start i,
          List.getElem?_eq_getElem (by rw [List.length_drop] at hn; omega)]
        rfl
      · rw [if_neg hpayload, List.getElem?_append_right (by omega),
          List.getElem?_replicate_of_lt (by omega), byteAt, List.getD_eq_getElem?_getD]
        cases hb : msg[i]? with
        | none => rfl
        | some b =>
          have hmem : b ∈ msg.drop n := by
            apply List.mem_iff_getElem?.mpr
            refine ⟨i - n, ?_⟩
            rw [List.getElem?_drop, show n + (i - n) = i by omega]
            exact hb
          rw [h b hmem]
          rfl
    · rw [List.getElem?_eq_none (by rw [buf.size]; omega), List.getElem?_eq_none]
      rw [List.length_append, List.length_replicate]
      omega

/-! ## Frames -/

section Frames
variable {r : Registry} {para : Session} {fd : ℤ} {w : World} {received : Received}

theorem tempBuf_codingWithLocalSocket {buf : CArray 512} {tempBuf : CArray 256}
    (h : codingWithLocalSocket r buf tempBuf para fd w = some received) :
    received.tempBuf = tempPayload buf tempBuf := by
  unfold codingWithLocalSocket at h
  obtain ⟨⟨found, r₁⟩, -, h⟩ := Option.bind_eq_some_iff.mp h
  cases found with
  | none =>
    obtain rfl := Option.some.inj h
    rfl
  | some i =>
    dsimp only at h
    split at h
    · obtain rfl := Option.some.inj h
      rfl
    · cases h

/-- Every command of the list copies the payload, one of them without the IMSI. -/
theorem tempBuf_deviceBranch {buf : CArray 512} {tempBuf : CArray 256} {cmd : Cmd}
    (hcopies : copiesPayload cmd = true)
    (h : deviceBranch r buf tempBuf cmd para fd w = some received) :
    received.tempBuf = if cmd = .cmdTT then ttPayload buf tempBuf else tempPayload buf tempBuf := by
  by_cases hpacked : packed cmd = true
  · rw [deviceBranch_of_packed r para fd w buf tempBuf hpacked] at h
    obtain ⟨para', -, rfl⟩ := Option.map_eq_some_iff.mp h
    rw [if_neg (by rintro rfl; exact absurd hpacked (by decide))]
  · cases cmd with
    | accessAuth | simfileRequest | hb | hbNew =>
      obtain rfl := Option.some.inj h
      rfl
    | cmdTT =>
      obtain ⟨⟨para', tempBuf'⟩, hdata, h⟩ := Option.bind_eq_some_iff.mp h
      obtain rfl := Option.some.inj h
      exact (codingWithTTData_stores hdata).2
    | localSta => exact tempBuf_codingWithLocalSocket h
    | logout | lowVsim | vpnProfileRqst | vpnReleaseCmd | deal | cfmd => exact absurd rfl hpacked
    | ip | autonet | getApnInfo | adn => exact absurd hcopies (by decide)

end Frames

/-- For every well-formed frame of a command that copies its payload: `TempBuf` holds the payload
and nothing else exactly if the frame is zero from there on where its payload ends in `TempBuf`,
that is in its last two bytes, for `TAG_CMDTT` in its last eleven. -/
theorem tempBuf_payload_iff {r : Registry} {para : Session} {fd : ℤ} {w : World} {cmd : Cmd}
    {payload : List UInt8} {received : Received} (hcopies : copiesPayload cmd = true)
    (hfit : (wellFormed cmd payload).length ≤ 256)
    (hroute : routeOf (wellFormed cmd payload) = some (.device cmd))
    (h : codingWithRecvData r para fd w (wellFormed cmd payload) = some received) :
    let copied := (wellFormed cmd payload).drop (payloadStart cmd)
    received.tempBuf.bytes = copied ++ List.replicate (256 - copied.length) 0 ↔
      ∀ b ∈ (wellFormed cmd payload).drop copied.length, b = 0 := by
  rw [codingWithRecvData_of_device _ _ _ _ hfit hroute] at h
  have hsize := sizeByte_wellFormed cmd hfit
  have hlen : (wellFormed cmd payload).length = payload.length + 2 := rfl
  apply bytes_eq_payload_iff hfit
  intro i hi
  rw [tempBuf_deviceBranch hcopies h, List.length_drop, hlen]
  by_cases htt : cmd = .cmdTT
  · rw [if_pos htt, getElem?_ttPayload hfit hi, ttAt, ttNum, hsize, payloadStart, if_pos htt]
    rfl
  · rw [if_neg htt, getElem?_tempPayload hfit hi, payloadAt, hsize, payloadStart, if_neg htt]
    rfl

/-- An IMSI and a serial number, as a heartbeat has them. -/
def heartbeatData : List UInt8 := List.replicate 9 0x11 ++ text "172150210000937"

/-- A heartbeat with two zero bytes behind the serial number. -/
theorem tempBuf_payload_iff_padded :
    ∃ received, codingWithRecvData connectToMysqlInit anonymous 5 .silent
        (wellFormed .hb (heartbeatData ++ [0, 0])) = some received ∧
      received.tempBuf.bytes = heartbeatData ++ [0, 0] ++ List.replicate 230 0 := by
  obtain ⟨received, hrecv⟩ : ∃ received, codingWithRecvData connectToMysqlInit anonymous 5 .silent
      (wellFormed .hb (heartbeatData ++ [0, 0])) = some received :=
    Option.isSome_iff_exists.mp (by decide +kernel)
  exact ⟨received, hrecv, (tempBuf_payload_iff (by decide +kernel) (by decide +kernel)
    (by decide +kernel) hrecv).mpr (by decide +kernel)⟩

/-- The last two digits of the serial number of a heartbeat stand in `TempBuf` twice. -/
theorem tempBuf_end_of_frame_twice :
    routeOf (wellFormed .hb heartbeatData) = some (.device .hb) ∧
      (codingWithRecvData connectToMysqlInit anonymous 5 .silent
        (wellFormed .hb heartbeatData)).map (fun received => received.tempBuf.bytes.take 28) =
        some (heartbeatData ++ text "37" ++ [0, 0]) := by
  decide +kernel

end Tdm.Device
