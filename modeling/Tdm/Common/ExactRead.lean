import Tdm.Lib.Loop
import Mathlib.Algebra.Order.Ring.Int

/-!
# Reading a message of known length

`GetMsgFromSock` reads `iLen` bytes from a socket, or what is there when `iLen` is 0: it waits for
the socket with `select`, asks with `FIONREAD` how much has come in and calls `recv` for that much
until the position has reached the length. A `recv` that does not deliver is an error, except when
nothing was asked for and a timeout was given. Then its value 0 or -1 is added to the position and
the loop goes on.

What a round stores is recorded byte by byte with its index into `sBuf`. The system may answer
anything: `recv` delivers at most what is asked for, whatever `FIONREAD` said. The type `int` is taken
without its bounds, which a read in order stays within.
-/

namespace Tdm.Common

open Tdm.Lib

def errSelect : ℤ := -10
def errIoctl : ℤ := -11
def errRecv : ℤ := -17
def errTimeOut : ℤ := -19

/-- What the system answers in one round. -/
structure SockRound where
  select : ℤ
  ioctl : ℤ
  /-- what `FIONREAD` reports -/
  available : ℕ
  /-- what `recv` can deliver; none when it fails -/
  arrived : Option (List UInt8)

/-- The bytes `recv` stores when it is asked for `size`. -/
def SockRound.recv (o : SockRound) (size : ℤ) : List UInt8 := (o.arrived.getD []).take size.toNat

/-- The value of `recv`. -/
def SockRound.recvValue (o : SockRound) (size : ℤ) : ℤ :=
  match o.arrived with
  | some _ => (o.recv size).length
  | none => -1

/-- The variables of the loop, and the bytes stored so far with their indices into `sBuf`. -/
structure Reading where
  iLen : ℤ
  iPos : ℤ
  stores : List (ℤ × UInt8)
deriving DecidableEq

/-- `iLen` when a round has looked at it. -/
def Reading.wanted (s : Reading) (o : SockRound) : ℤ := if s.iLen = 0 then o.available else s.iLen

/-- `iCurDataLen` in the call of `recv`. -/
def Reading.asked (s : Reading) (o : SockRound) : ℤ := min o.available (s.wanted o - s.iPos)

/-- Bytes stored from `sBuf + iPos` on. -/
def storesAt (iPos : ℤ) (bytes : List UInt8) : List (ℤ × UInt8) :=
  bytes.zipIdx.map fun p => (iPos + p.2, p.1)

/-- The state in which a round has received. -/
def Reading.receive (s : Reading) (o : SockRound) : Reading where
  iLen := s.wanted o
  iPos := s.iPos + o.recvValue (s.asked o)
  stores := s.stores ++ storesAt s.iPos (o.recv (s.asked o))

/-- How the function returns: its value, what was read and the index of the final `'\0'`. -/
structure ReadResult where
  value : ℤ
  reading : Reading
  terminator : Option ℤ
deriving DecidableEq

/-- A round of the loop of `GetMsgFromSock`. -/
def getMsgFromSock (iTimeOut : ℤ) : Loop Reading SockRound ReadResult := fun s o =>
  if o.select < 0 then .inr ⟨errSelect, s, none⟩
  else if o.select = 0 then .inr ⟨errTimeOut, s, none⟩
  else if o.ioctl < 0 then .inr ⟨errIoctl, s, none⟩
  -- with a timeout, a `recv` of nothing may return 0 or -1 without being an error
  else if o.recvValue (s.asked o) ≤ 0 ∧ (0 < s.asked o ∨ iTimeOut = 0) then
    .inr ⟨errRecv, { s with iLen := s.wanted o }, none⟩
  else if (s.receive o).iPos < s.wanted o then .inl (s.receive o)
  else .inr ⟨s.wanted o, s.receive o, some (s.wanted o)⟩

/-- The variables before the first round. -/
def Reading.start (iLen : ℕ) : Reading := ⟨iLen, 0, []⟩

/-! ## What an exact read is -/

/-- The position counts the bytes received, and they stand in `sBuf` one behind the other. -/
structure Reading.InOrder (s : Reading) : Prop where
  le : s.iPos ≤ s.iLen
  count : s.iPos = s.stores.length
  index : ∀ (i : ℕ) (p : ℤ × UInt8), s.stores[i]? = some p → p.1 = i

/-- From round `n` on nothing can be received any more. -/
def PeerGone (env : ℕ → SockRound) (n : ℕ) : Prop := ∀ k, n ≤ k → (env k).arrived.getD [] = []

/-- The number of bytes the caller asked for. -/
def target (iLen : ℕ) (env : ℕ → SockRound) : ℤ := if iLen = 0 then (env 0).available else iLen

/-- `GetMsgFromSock` against one sequence of answers. -/
structure ExactRead (iLen : ℕ) (iTimeOut : ℤ) (env : ℕ → SockRound) : Prop where
  running : ∀ k s, Loop.after (getMsgFromSock iTimeOut) env (.start iLen) k = .inl s → s.InOrder
  returned : ∀ r, Loop.Returns (getMsgFromSock iTimeOut) env (.start iLen) r → r.reading.InOrder
  value : ∀ r, Loop.Returns (getMsgFromSock iTimeOut) env (.start iLen) r → 0 ≤ r.value →
    r.value = target iLen env ∧ r.value = r.reading.stores.length
  gone : ∀ n, PeerGone env n → ∃ r, Loop.Returns (getMsgFromSock iTimeOut) env (.start iLen) r

/-! ## One round -/

/-- A positive value counts the bytes stored, and they are no more than was asked for. -/
theorem recvValue_of_pos {o : SockRound} {size : ℤ} (h : 0 < o.recvValue size) :
    o.recvValue size = (o.recv size).length ∧ ((o.recv size).length : ℤ) ≤ size := by
  have hle : (o.recv size).length ≤ size.toNat := List.length_take_le ..
  unfold SockRound.recvValue at h ⊢
  cases harrived : o.arrived with
  | some bytes =>
    simp only [harrived] at h ⊢
    exact ⟨trivial, by omega⟩
  | none =>
    rw [harrived] at h
    exact absurd h (by simp)

theorem recvValue_of_gone {o : SockRound} (h : o.arrived.getD [] = []) (size : ℤ) :
    o.recvValue size ≤ 0 := by
  unfold SockRound.recvValue SockRound.recv
  rw [h]
  cases o.arrived <;> simp

theorem length_storesAt (iPos : ℤ) (bytes : List UInt8) :
    (storesAt iPos bytes).length = bytes.length := by
  rw [storesAt, List.length_map, List.length_zipIdx]

theorem getElem?_storesAt (iPos : ℤ) (bytes : List UInt8) (i : ℕ) :
    (storesAt iPos bytes)[i]? = bytes[i]?.map fun b => (iPos + i, b) := by
  unfold storesAt
  rw [List.getElem?_map, List.getElem?_zipIdx, Option.map_map, Nat.zero_add]
  rfl

/-- Bytes received at the position keep the order. -/
theorem Reading.InOrder.append {s : Reading} (h : s.InOrder) {iLen : ℤ} {bytes : List UInt8}
    (hle : s.iPos + bytes.length ≤ iLen) :
    Reading.InOrder ⟨iLen, s.iPos + bytes.length, s.stores ++ storesAt s.iPos bytes⟩ := by
  refine ⟨hle, ?_, ?_⟩
  · rw [List.length_append, length_storesAt, h.count, Nat.cast_add]
  · intro i p hp
    rw [List.getElem?_append] at hp
    split at hp
    · exact h.index i p hp
    · rename_i hi
      rw [getElem?_storesAt, Option.map_eq_some_iff] at hp
      obtain ⟨b, -, rfl⟩ := hp
      have hcount := h.count
      show s.iPos + ((i - s.stores.length : ℕ) : ℤ) = i
      omega

section Round
variable {iLen : ℕ} {iTimeOut : ℤ} {env : ℕ → SockRound}

/-- The variables at the start of round `k`: in the first round as they were passed, later with
some bytes received and some still missing. -/
structure Pending (iLen : ℕ) (env : ℕ → SockRound) (k : ℕ) (s : Reading) : Prop where
  order : s.InOrder
  wanted : s.wanted (env k) = target iLen env
  missing : k = 0 ∧ s = .start iLen ∨ s.iPos < target iLen env

theorem pending_start (iLen : ℕ) (env : ℕ → SockRound) : Pending iLen env 0 (.start iLen) where
  order := ⟨Int.natCast_nonneg iLen, rfl, fun i p hp => by cases hp⟩
  wanted := by
    unfold Reading.wanted target Reading.start
    simp only [Nat.cast_eq_zero]
  missing := .inl ⟨rfl, rfl⟩

/-- When there is something to read, `recv` is asked for something. -/
theorem Pending.asked_pos {k : ℕ} {s : Reading} (h : Pending iLen env k s)
    (hpos : 0 < (env k).available) : 0 < s.asked (env k) := by
  have hmissing : s.iPos < target iLen env := by
    rcases h.missing with ⟨rfl, rfl⟩ | hlt
    · unfold target
      show (0 : ℤ) < _
      split <;> omega
    · exact hlt
  unfold Reading.asked
  rw [h.wanted]
  omega

/-- So a `recv` that does not deliver is an error. -/
theorem Pending.checked {k : ℕ} {s : Reading} (h : Pending iLen env k s)
    (hcheck : iTimeOut = 0 ∨ 0 < (env k).available) : 0 < s.asked (env k) ∨ iTimeOut = 0 :=
  hcheck.symm.imp_left h.asked_pos

/-- The states and results a checked round leads to. -/
def RoundDone (iLen : ℕ) (env : ℕ → SockRound) (k : ℕ) : Reading ⊕ ReadResult → Prop :=
  Sum.elim (fun s => Pending iLen env (k + 1) s)
    fun r => r.reading.InOrder ∧
      (0 ≤ r.value → r.value = target iLen env ∧ r.value = r.reading.stores.length)

/-- A failed call leaves the bytes received before. -/
theorem roundDone_of_error {k : ℕ} {code : ℤ} {s : Reading} (h : s.InOrder) (hcode : code < 0) :
    RoundDone iLen env k (.inr ⟨code, s, none⟩) :=
  ⟨h, fun hvalue => absurd hvalue (not_le.mpr hcode)⟩

theorem Reading.InOrder.iPos_nonneg {s : Reading} (h : s.InOrder) : 0 ≤ s.iPos := by
  rw [h.count]
  exact Int.natCast_nonneg _

theorem Pending.iPos_le {k : ℕ} {s : Reading} (h : Pending iLen env k s) :
    s.iPos ≤ target iLen env := by
  rcases h.missing with ⟨rfl, rfl⟩ | hlt
  · unfold target
    show (0 : ℤ) ≤ _
    split <;> omega
  · exact hlt.le

theorem Pending.receive {k : ℕ} {s : Reading} (h : Pending iLen env k s)
    (hvalue : 0 < (env k).recvValue (s.asked (env k))) : (s.receive (env k)).InOrder := by
  obtain ⟨hlen, hle⟩ := recvValue_of_pos hvalue
  unfold Reading.receive
  rw [hlen]
  refine h.order.append ?_
  have hasked : s.asked (env k) ≤ s.wanted (env k) - s.iPos := min_le_right ..
  omega

/-- A round in which a failed `recv` is an error adds what it received behind the rest. -/
theorem Pending.round {k : ℕ} {s : Reading} (h : Pending iLen env k s)
    (hcheck : iTimeOut = 0 ∨ 0 < (env k).available) :
    RoundDone iLen env k (getMsgFromSock iTimeOut s (env k)) := by
  unfold getMsgFromSock
  split
  · exact roundDone_of_error h.order (by decide)
  split
  · exact roundDone_of_error h.order (by decide)
  split
  · exact roundDone_of_error h.order (by decide)
  split
  · refine roundDone_of_error ⟨?_, h.order.count, h.order.index⟩ (by decide)
    rw [h.wanted]
    exact h.iPos_le
  -- past the error test something has been received
  rename_i hnoerror
  have hvalue : 0 < (env k).recvValue (s.asked (env k)) := by
    by_contra hfail
    exact hnoerror ⟨not_lt.mp hfail, h.checked hcheck⟩
  have horder := h.receive hvalue
  have hwanted : (s.receive (env k)).iLen = target iLen env := h.wanted
  split
  · rename_i hmore
    rw [h.wanted] at hmore
    refine ⟨horder, ?_, .inr hmore⟩
    -- the length is positive now, so the next round does not look at `FIONREAD` for it
    have hpos := horder.iPos_nonneg
    rw [Reading.wanted, if_neg (by omega), hwanted]
  · rename_i hfull
    have hle := horder.le
    have hcount := horder.count
    rw [h.wanted] at hfull ⊢
    refine ⟨horder, fun _ => ⟨rfl, ?_⟩⟩
    show target iLen env = (s.receive (env k)).stores.length
    omega

/-- Once the peer is gone, a round in which a failed `recv` is an error is the last one. -/
theorem Pending.round_of_gone {k : ℕ} {s : Reading} (h : Pending iLen env k s)
    (hcheck : iTimeOut = 0 ∨ 0 < (env k).available) (hgone : (env k).arrived.getD [] = []) :
    ∃ r, getMsgFromSock iTimeOut s (env k) = .inr r := by
  unfold getMsgFromSock
  split
  · exact ⟨_, rfl⟩
  split
  · exact ⟨_, rfl⟩
  split
  · exact ⟨_, rfl⟩
  · exact ⟨_, if_pos ⟨recvValue_of_gone hgone _, h.checked hcheck⟩⟩

end Round

/-! ## Whole reads -/

/-- In every round that is reached, `recv` is asked for something or no timeout is given. -/
def Checked (iLen : ℕ) (iTimeOut : ℤ) (env : ℕ → SockRound) : Prop :=
  ∀ k s, Loop.after (getMsgFromSock iTimeOut) env (.start iLen) k = .inl s →
    iTimeOut = 0 ∨ 0 < (env k).available

section Runs
variable {iLen : ℕ} {iTimeOut : ℤ} {env : ℕ → SockRound}

theorem Checked.pending (h : Checked iLen iTimeOut env) {k : ℕ} {s : Reading}
    (hrun : Loop.after (getMsgFromSock iTimeOut) env (.start iLen) k = .inl s) :
    Pending iLen env k s := by
  refine Loop.invariant (pending_start iLen env) ?_ hrun
  intro k s s' hrun hs hround
  have hdone := hs.round (h k s hrun)
  rwa [hround] at hdone

theorem Checked.result (h : Checked iLen iTimeOut env) {r : ReadResult}
    (hret : Loop.Returns (getMsgFromSock iTimeOut) env (.start iLen) r) :
    r.reading.InOrder ∧
      (0 ≤ r.value → r.value = target iLen env ∧ r.value = r.reading.stores.length) := by
  obtain ⟨k, s, hrun, hround⟩ := hret.round
  have hdone := (h.pending hrun).round (h k s hrun)
  rwa [hround] at hdone

theorem Checked.exactRead (h : Checked iLen iTimeOut env) : ExactRead iLen iTimeOut env where
  running _ _ hrun := (h.pending hrun).order
  returned _ hret := (h.result hret).1
  value _ hret := (h.result hret).2
  gone n hgone :=
    Loop.exists_returns fun s hrun =>
      (h.pending hrun).round_of_gone (h n s hrun) (hgone n le_rfl)

end Runs

/-! ## Rounds without data -/

/-- A round that finds the socket ready and nothing to read. -/
def idleRound (arrived : Option (List UInt8)) : SockRound := ⟨1, 0, 0, arrived⟩

/-- With a timeout such a round adds what `recv` returns, 0 or -1, to the position. -/
theorem getMsgFromSock_idleRound (iLen : ℕ) {iTimeOut : ℤ} (h : iTimeOut ≠ 0)
    (arrived : Option (List UInt8)) (hlt : (idleRound arrived).recvValue 0 < iLen) :
    getMsgFromSock iTimeOut (.start iLen) (idleRound arrived) =
      .inl ⟨iLen, (idleRound arrived).recvValue 0, []⟩ := by
  have hwanted : (Reading.start iLen).wanted (idleRound arrived) = iLen := by
    unfold Reading.wanted
    split
    · rename_i hzero
      exact hzero.symm
    · rfl
  have hasked : (Reading.start iLen).asked (idleRound arrived) = 0 := by
    unfold Reading.asked
    rw [hwanted]
    show min (0 : ℤ) (iLen - 0) = 0
    omega
  have hreceive : (Reading.start iLen).receive (idleRound arrived) =
      ⟨iLen, (idleRound arrived).recvValue 0, []⟩ := by
    unfold Reading.receive
    rw [hwanted, hasked]
    simp [Reading.start, SockRound.recv, storesAt]
  have hready : ¬ (1 : ℤ) < 0 ∧ ¬ (1 : ℤ) = 0 ∧ ¬ (0 : ℤ) < 0 := by decide
  have hnoerror : ¬ ((idleRound arrived).recvValue 0 ≤ 0 ∧ ((0 : ℤ) < 0 ∨ iTimeOut = 0)) := by
    rintro ⟨-, hpos | hzero⟩
    · exact hready.2.2 hpos
    · exact h hzero
  unfold getMsgFromSock
  rw [hasked, hreceive, hwanted]
  exact (if_neg hready.1).trans <| (if_neg hready.2.1).trans <| (if_neg hready.2.2).trans <|
    (if_neg hnoerror).trans (if_pos hlt)

/-- A failed `recv` moves the position in front of the buffer. -/
theorem after_failed_recv (iLen : ℕ) {iTimeOut : ℤ} (h : iTimeOut ≠ 0) :
    Loop.after (getMsgFromSock iTimeOut) (fun _ => idleRound none) (.start iLen) 1 =
      .inl ⟨iLen, -1, []⟩ :=
  getMsgFromSock_idleRound iLen h none (by show (-1 : ℤ) < iLen; omega)

/-- When the peer has closed the connection, the loop turns without receiving anything. -/
theorem not_returns_of_closed {iLen : ℕ} (hlen : 0 < iLen) {iTimeOut : ℤ} (h : iTimeOut ≠ 0)
    (r : ReadResult) :
    ¬ Loop.Returns (getMsgFromSock iTimeOut) (fun _ => idleRound (some [])) (.start iLen) r := by
  refine Loop.not_returns_of_rounds (I := (· = Reading.start iLen)) (n := 0) rfl rfl ?_ r
  rintro k s - rfl
  exact ⟨_, getMsgFromSock_idleRound iLen h (some []) (by show (0 : ℤ) < iLen; omega), rfl⟩

/-! ## Exactness -/

/-- `GetMsgFromSock` is an exact read against every sequence of answers if and only if it is called
without a timeout; with one it is exact as long as every round finds something to read. -/
theorem exact_read_iff (iLen : ℕ) (iTimeOut : ℤ) :
    ((∀ env, ExactRead iLen iTimeOut env) ↔ iTimeOut = 0) ∧
    ∀ env, (∀ k s, Loop.after (getMsgFromSock iTimeOut) env (.start iLen) k = .inl s →
      0 < (env k).available) → ExactRead iLen iTimeOut env := by
  refine ⟨⟨fun hall => ?_, fun hzero env => ?_⟩, fun env hfound => ?_⟩
  · by_contra htimeout
    -- the position -1 after the first round is out of order
    have horder := (hall _).running 1 _ (after_failed_recv iLen htimeout)
    have hnonneg : (0 : ℤ) ≤ -1 := horder.iPos_nonneg
    exact absurd hnonneg (by decide)
  · exact Checked.exactRead fun _ _ _ => .inl hzero
  · exact Checked.exactRead fun k s hrun => .inr (hfound k s hrun)

/-- A socket whose first `recv` fails, with the connection reset while nothing is there, and that
then delivers four bytes. -/
def resetThenData : ℕ → SockRound
  | 0 => idleRound none
  | 1 => ⟨1, 0, 3, some [65, 66, 67]⟩
  | _ => ⟨1, 0, 1, some [68]⟩

/-- Called as `Data_Coding_Spm` does, with length 0 and a timeout of 2 seconds, the function stores
the first byte in front of the buffer and returns 3 when it has received 4 bytes; and asked for 4
bytes it never returns when the peer closes the connection. -/
theorem read_beside_buffer :
    Loop.Returns (getMsgFromSock 2) resetThenData (.start 0)
      ⟨3, ⟨3, 3, [(-1, 65), (0, 66), (1, 67), (2, 68)]⟩, some 3⟩ ∧
    PeerGone (fun _ => idleRound (some [])) 0 ∧
    ¬ ∃ r, Loop.Returns (getMsgFromSock 2) (fun _ => idleRound (some [])) (.start 4) r := by
  refine ⟨⟨3, by decide +kernel⟩, fun _ _ => rfl, ?_⟩
  rintro ⟨r, hret⟩
  exact not_returns_of_closed (by decide) (by decide) r hret

end Tdm.Common
