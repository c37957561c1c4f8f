import Tdm.Device.TTLength

/-!
# What receiving writes

The writes of `Coding_With_Recv_Data` and its helpers to `TempBuf`, `SN` and `IMSI`, one by one
and with their lengths; all of them begin at the start of their destination. The message is
copied with the length that was read, the payload with `FrameSize`; two serial numbers are
printed from numbers of the message. `receiving_inside_iff` says for which messages all writes
stay inside.
-/

namespace Tdm.Device

open Tdm.Lib Tdm.Common

/-- The destinations: `TempBuf` of `socket_read_cb` and two members of `tmd_pthread`. -/
inductive Dest
  | tempBuf | sn | imsi
deriving DecidableEq

def Dest.size : Dest → ℕ
  | .tempBuf => 256
  | .sn => 16
  | .imsi => 12

/-- A write of `len` bytes. -/
structure BufferWrite where
  dest : Dest
  len : ℕ
deriving DecidableEq

def BufferWrite.Inside (write : BufferWrite) : Prop := write.len ≤ write.dest.size

instance (write : BufferWrite) : Decidable write.Inside := inferInstanceAs (Decidable (_ ≤ _))

/-! ## The writes -/

section Writes
variable (before : CArray 10) (buf : CArray 512) (tempBuf : CArray 256) (para : Session)

/-- `Coding_With_TT_Data` prints a serial number. -/
def readsTrailer : Prop :=
  looksForTrailer (para.copyIMSI buf) = true ∧
    (((ttPayload buf tempBuf).get 5).toNat : ℤ) ≠ (frameNum buf : ℤ) - 6

instance : Decidable (readsTrailer buf tempBuf para) := inferInstanceAs (Decidable (_ ∧ _))

/-- `data.SN` of the `Data_IP` that ends where the payload ends. If the payload is shorter than
that it begins among the bytes `before` the buffer. -/
def trailerNumber : ℕ :=
  leNat ((((before.bytes ++ buf.bytes).drop (frameSize buf)).take 12).drop 8)

/-- The writes of `Coding_With_TT_Data`. -/
def ttDataWrites : List BufferWrite :=
  [⟨.imsi, 9⟩, ⟨.tempBuf, frameNum buf⟩] ++
    if readsTrailer buf tempBuf para then
      [⟨.sn, (trailerSN (trailerNumber before buf)).length + 1⟩]
    else []

/-- The writes of the branch of a command. -/
def deviceWrites : Cmd → List BufferWrite
  | .accessAuth => [⟨.tempBuf, frameSize buf⟩, ⟨.sn, 16⟩]
  | .simfileRequest => [⟨.tempBuf, frameSize buf⟩]
  | .cmdTT => ttDataWrites before buf tempBuf para
  | .hbNew => [⟨.tempBuf, frameSize buf⟩]
  | .deal => [⟨.tempBuf, frameSize buf⟩, ⟨.sn, (decimal (leNat (frameData buf 0 8))).length + 1⟩]
  | .vpnProfileRqst | .vpnReleaseCmd | .lowVsim | .logout | .cfmd =>
    [⟨.tempBuf, frameSize buf⟩, ⟨.sn, 15⟩]
  | .localSta => [⟨.imsi, 9⟩, ⟨.tempBuf, frameSize buf⟩]
  | .hb => [⟨.tempBuf, frameSize buf⟩, ⟨.sn, 15⟩]
  | .autonet | .getApnInfo | .adn | .ip => []

/-- The writes of `Coding_With_Recv_Data` on a message. Behind a copy that leaves `TempBuf`
nothing is defined. -/
def recvWrites (msg : List UInt8) : List BufferWrite :=
  if msg = [] then []
  else ⟨.tempBuf, msg.length⟩ ::
    if h : msg.length ≤ 256 then
      match routeOf msg with
      | some (.device cmd) =>
        deviceWrites before (recvBuf msg h) ((CArray.zero 256).overlay msg h) para cmd
      | _ => []
    else []

end Writes

/-! ## The lengths of serial numbers -/

/-- The number fits nine places, a minus included. -/
def NinePlaces (number : ℕ) : Prop := number < 10 ^ 9 ∨ 2 ^ 32 - 10 ^ 8 < number

instance (number : ℕ) : Decidable (NinePlaces number) := inferInstanceAs (Decidable (_ ∨ _))

theorem length_trailerSN_iff {number : ℕ} (h : number < 2 ^ 32) :
    (trailerSN number).length + 1 ≤ 16 ↔ NinePlaces number := by
  have hplaces : ∀ (maker : List UInt8) (v : ℤ), maker.length = 6 →
      ((maker ++ decimalPadded 9 v).length + 1 ≤ 16 ↔ -10 ^ 8 < v ∧ v < 10 ^ 9) := by
    intro maker v hlen
    have hnine := length_decimal_le_iff v.natAbs 8
    have height := length_decimal_le_iff v.natAbs 7
    rw [List.length_append, hlen, length_decimalPadded]
    split <;> omega
  unfold trailerSN NinePlaces
  split
  · rw [hplaces _ _ (by decide)]
    omega
  · rw [hplaces _ _ (by decide), toSigned]
    split <;> omega

theorem trailerNumber_lt (before : CArray 10) (buf : CArray 512) :
    trailerNumber before buf < 2 ^ 32 := by
  have hlen : ((((before.bytes ++ buf.bytes).drop (frameSize buf)).take 12).drop 8).length ≤ 4 := by
    rw [List.length_drop, List.length_take]
    omega
  exact (leNat_lt _).trans_le (Nat.pow_le_pow_right (by decide) hlen)

/-- A trailer that begins inside the buffer does not depend on what stands before it. -/
theorem leNat_trailerOf (before : CArray 10) {buf : CArray 512} {data : List UInt8}
    (h : trailerOf buf = some data) : leNat (data.drop 8) = trailerNumber before buf := by
  unfold trailerOf at h
  split at h
  · cases h
  · have hsize := before.size
    have hpast : before.bytes.drop (frameSize buf) = [] := List.drop_eq_nil_of_le (by omega)
    obtain rfl := Option.some.inj h
    rw [trailerNumber, List.drop_append, hpast, List.nil_append, hsize]

/-! ## Messages -/

section Messages
variable (before : CArray 10) (para : Session)

/-- Only the printed serial numbers may leave their destination. -/
theorem deviceWrites_inside_iff (buf : CArray 512) (tempBuf : CArray 256) (cmd : Cmd) :
    (∀ write ∈ deviceWrites before buf tempBuf para cmd, write.Inside) ↔
      (cmd = .deal → leNat (frameData buf 0 8) < 10 ^ 15) ∧
        (cmd = .cmdTT → readsTrailer buf tempBuf para → NinePlaces (trailerNumber before buf)) := by
  have hsize := frameSize_lt buf
  have hnum := frameNum_lt buf
  have hpayload : frameSize buf ≤ 256 := Nat.le_of_lt hsize
  have hrest : frameNum buf ≤ 256 := Nat.le_of_lt hnum
  have hdeal := length_decimal_le_iff (leNat (frameData buf 0 8)) 14
  have htrailer := length_trailerSN_iff (trailerNumber_lt before buf)
  cases cmd with
  | deal =>
    have hprinted : BufferWrite.Inside ⟨.sn, (decimal (leNat (frameData buf 0 8))).length + 1⟩ ↔
        leNat (frameData buf 0 8) < 10 ^ 15 := Nat.add_le_add_iff_right.trans hdeal
    rw [and_iff_left (by nofun), forall_prop_of_true rfl, deviceWrites, List.forall_mem_cons,
      List.forall_mem_singleton, hprinted]
    exact and_iff_right hpayload
  | cmdTT =>
    by_cases hreads : readsTrailer buf tempBuf para
    · simp [deviceWrites, ttDataWrites, BufferWrite.Inside, Dest.size, hrest, hreads, ← htrailer]
    · simp [deviceWrites, ttDataWrites, BufferWrite.Inside, Dest.size, hrest, hreads]
  | _ => simp [deviceWrites, BufferWrite.Inside, Dest.size, hpayload]

/-- The message fits, and so do the printed serial numbers. -/
theorem recvWrites_inside_iff (msg : List UInt8) :
    (∀ write ∈ recvWrites before para msg, write.Inside) ↔
      ∃ h : msg.length ≤ 256,
        (routeOf msg = some (.device .deal) →
          leNat (frameData (recvBuf msg h) 0 8) < 10 ^ 15) ∧
        (routeOf msg = some (.device .cmdTT) →
          readsTrailer (recvBuf msg h) ((CArray.zero 256).overlay msg h) para →
          NinePlaces (trailerNumber before (recvBuf msg h))) := by
  by_cases hnil : msg = []
  · -- a failed `read` writes nothing
    subst hnil
    have hroute : routeOf [] = some .unknown := by decide
    exact iff_of_true (fun _ h => absurd h List.not_mem_nil)
      ⟨Nat.zero_le _, by simp [hroute], by simp [hroute]⟩
  unfold recvWrites
  rw [if_neg hnil, List.forall_mem_cons]
  by_cases hfit : msg.length ≤ 256
  · have hmessage : BufferWrite.Inside ⟨.tempBuf, msg.length⟩ := hfit
    rw [dif_pos hfit, and_iff_right hmessage, exists_prop_of_true hfit]
    split
    · rename_i cmd hroute
      rw [deviceWrites_inside_iff, hroute]
      simp only [Option.some.injEq, Route.device.injEq]
    · rename_i hroute
      exact iff_of_true (fun _ h => absurd h List.not_mem_nil)
        ⟨fun h => absurd h (hroute _), fun h => absurd h (hroute _)⟩
  · exact iff_of_false (fun h => hfit h.1) fun h => hfit h.choose

/-- A message that is decoded was received inside its buffers. -/
theorem recvWrites_inside_of_decoded {r : Registry} {fd : ℤ} {w : World} {msg : List UInt8}
    {received : Received} (h : codingWithRecvData r para fd w msg = some received) :
    ∀ write ∈ recvWrites before para msg, write.Inside := by
  rw [recvWrites_inside_iff]
  by_cases hfit : msg.length ≤ 256
  · -- in both branches the copy of the printed number to `SN` has succeeded
    refine ⟨hfit, fun hroute => ?_, fun hroute hreads => ?_⟩
    · rw [codingWithRecvData_of_device _ _ _ _ hfit hroute,
        deviceBranch_of_packed _ _ _ _ _ _ (by decide)] at h
      obtain ⟨para', hpara, -⟩ := Option.map_eq_some_iff.mp h
      obtain ⟨sn, hsn, -⟩ := Option.bind_eq_some_iff.mp hpara
      obtain ⟨hlen, -⟩ := CArray.memcpy_eq_some.mp hsn
      rw [List.length_append, List.length_singleton] at hlen
      exact (length_decimal_le_iff _ 14).mp (Nat.le_of_succ_le_succ hlen)
    · rw [codingWithRecvData_of_device _ _ _ _ hfit hroute] at h
      obtain ⟨⟨para', tempBuf'⟩, hdata, -⟩ := Option.bind_eq_some_iff.mp h
      simp only [codingWithTTData] at hdata
      split at hdata
      · obtain ⟨data, htrailer, hrest⟩ := Option.bind_eq_some_iff.mp hdata
        obtain ⟨sn, hsn, -⟩ := Option.bind_eq_some_iff.mp hrest
        obtain ⟨hlen, -⟩ := CArray.memcpy_eq_some.mp hsn
        rw [List.length_append, List.length_singleton, leNat_trailerOf before htrailer] at hlen
        exact (length_trailerSN_iff (trailerNumber_lt _ _)).mp hlen
      · rename_i hnot
        exact absurd hreads hnot
  · exfalso
    unfold codingWithRecvData at h
    rw [if_neg (by rintro rfl; exact hfit (Nat.zero_le _)), dif_neg hfit] at h
    cases h

/-- For every message, record and whatever stands before the buffer: all writes stay inside
exactly if the message fits `TempBuf`, the number of a `Deal_t` has at most 15 digits and that of
a trailer, if one is looked for, has at most nine places. No message is decoded for which this
is not so. -/
theorem receiving_inside_iff (msg : List UInt8) :
    ((∀ write ∈ recvWrites before para msg, write.Inside) ↔
      ∃ h : msg.length ≤ 256,
        (routeOf msg = some (.device .deal) →
          leNat (frameData (recvBuf msg h) 0 8) < 10 ^ 15) ∧
        (routeOf msg = some (.device .cmdTT) →
          readsTrailer (recvBuf msg h) ((CArray.zero 256).overlay msg h) para →
          NinePlaces (trailerNumber before (recvBuf msg h)))) ∧
    ∀ (r : Registry) (fd : ℤ) (w : World), (codingWithRecvData r para fd w msg).isSome = true →
      ∀ write ∈ recvWrites before para msg, write.Inside := by
  refine ⟨recvWrites_inside_iff before para msg, fun r fd w h => ?_⟩
  obtain ⟨received, hreceived⟩ := Option.isSome_iff_exists.mp h
  exact recvWrites_inside_of_decoded before para hreceived

end Messages

/-- A `Deal_t` whose number has 15 digits, with its writes. -/
theorem receiving_inside_iff_deal :
    recvWrites (.zero 10) anonymous
        ([0xB0, 19] ++ leBytes 8 172150210000937 ++ List.replicate 11 0x11) =
      [⟨.tempBuf, 21⟩, ⟨.tempBuf, 19⟩, ⟨.sn, 16⟩] ∧
    ∀ write ∈ recvWrites (.zero 10) anonymous
      ([0xB0, 19] ++ leBytes 8 172150210000937 ++ List.replicate 11 0x11), write.Inside := by
  refine ⟨by decide +kernel, (receiving_inside_iff (.zero 10) anonymous _).1.mpr
    ⟨by decide, fun _ => by decide +kernel, fun h => ?_⟩⟩
  exact absurd h (by decide +kernel)

/-- A read of 257 bytes, a `Deal_t` whose number has 16 digits and a trailer whose number has
ten. -/
theorem recvWrites_outside :
    (∃ write ∈ recvWrites (.zero 10) anonymous (0x81 :: List.replicate 256 0x11),
      ¬ write.Inside) ∧
    (∃ write ∈ recvWrites (.zero 10) anonymous
        ([0xB0, 19] ++ leBytes 8 (10 ^ 15) ++ List.replicate 11 0x11), ¬ write.Inside) ∧
    ∃ write ∈ recvWrites (.zero 10) anonymous
      ([0x83, 29, 0x80, 0x91] ++ List.replicate 7 0x11 ++ [0, 0xA4, 0, 0, 2, 2, 0x3F, 0] ++
        List.replicate 8 0x11 ++ leBytes 4 (10 ^ 9)), ¬ write.Inside := by
  decide +kernel

end Tdm.Device
