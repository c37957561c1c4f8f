import Tdm.Common.ExactRead

/-!
# Sending a message of known length

`PutMsgToSock` waits with `select` until the socket can be written to and calls `send` for what is
left of the message, until the position has reached the length; `PutMsgToProcess` does the same with
`write` and without waiting. An interrupted wait is not an error, the round goes on with `send`.

What the kernel takes is recorded byte by byte with its index into `sBuf`. It may take any part of
what is offered, also nothing.
-/

namespace Tdm.Common

open Tdm.Lib

def errSend : ℤ := -18

/-- What the system answers in one round of `PutMsgToSock`. -/
structure SendRound where
  select : ℤ
  /-- `errno` is `EINTR` after `select` -/
  interrupted : Bool
  /-- how many bytes `send` can take; none when it fails -/
  taken : Option ℕ

/-- The position, and the bytes the kernel has accepted so far with their indices into `sBuf`. -/
structure Sending where
  iPos : ℕ
  sent : List (UInt8 × ℕ)
deriving DecidableEq

def Sending.start : Sending := ⟨0, []⟩

/-- `n` bytes from `sBuf+iPos` on are accepted. -/
def Sending.accept (s : Sending) (sBuf : List UInt8) (n : ℕ) : Sending :=
  ⟨s.iPos + n, s.sent ++ ((sBuf.drop s.iPos).take n).zipIdx s.iPos⟩

/-- How the functions return. -/
structure SendResult where
  value : ℤ
  sending : Sending
deriving DecidableEq

/-- The end of a round: `send` or `write` takes at most `iLen - iPos` bytes. -/
def sendRest (sBuf : List UInt8) (iLen : ℕ) : Loop Sending (Option ℕ) SendResult := fun s taken =>
  match taken with
  | none => .inr ⟨errSend, s⟩
  | some n =>
    let s := s.accept sBuf (min n (iLen - s.iPos))
    if s.iPos < iLen then .inl s else .inr ⟨iLen, s⟩

/-- A round of the loop of `PutMsgToSock`. -/
def putMsgToSock (sBuf : List UInt8) (iLen : ℕ) : Loop Sending SendRound SendResult := fun s o =>
  if o.select < 0 ∧ ¬ o.interrupted then .inr ⟨errSelect, s⟩
  else if o.select = 0 then .inr ⟨errTimeOut, s⟩
  else sendRest sBuf iLen s o.taken

/-- A round of the loop of `PutMsgToProcess`. -/
def putMsgToProcess (sBuf : List UInt8) (iLen : ℕ) : Loop Sending (Option ℕ) SendResult :=
  sendRest sBuf iLen

/-! ## What a complete send is -/

/-- The bytes accepted are the first ones of the message, each of them taken once. -/
structure Sending.InOrder (sBuf : List UInt8) (iLen : ℕ) (s : Sending) : Prop where
  bytes : s.sent.map Prod.fst <+: sBuf.take iLen
  index : s.sent.map Prod.snd = List.range s.sent.length

/-- A loop against one sequence of answers of the system. -/
structure CompleteSend {o : Type} (body : Loop Sending o SendResult) (sBuf : List UInt8) (iLen : ℕ)
    (env : ℕ → o) : Prop where
  running : ∀ k s, Loop.after body env .start k = .inl s → s.InOrder sBuf iLen
  returned : ∀ r, Loop.Returns body env .start r → r.sending.InOrder sBuf iLen
  value : ∀ r, Loop.Returns body env .start r →
    if r.sending.sent.length = iLen then r.value = iLen else r.value < 0

/-! ## One round -/

section Round
variable {sBuf : List UInt8} {iLen : ℕ} {s : Sending}

/-- Exactly the bytes before the position have been accepted. -/
def Sending.UpTo (sBuf : List UInt8) (s : Sending) : Prop := s.sent = (sBuf.take s.iPos).zipIdx

theorem Sending.UpTo.accept (h : s.UpTo sBuf) {n : ℕ} (hle : s.iPos + n ≤ sBuf.length) :
    (s.accept sBuf n).UpTo sBuf := by
  have hlen : (sBuf.take s.iPos).length = s.iPos := by
    rw [List.length_take]
    omega
  unfold Sending.UpTo Sending.accept
  simp only
  rw [h, List.take_add, List.zipIdx_append, hlen, Nat.zero_add]

theorem Sending.UpTo.length_sent (h : s.UpTo sBuf) (hle : s.iPos ≤ sBuf.length) :
    s.sent.length = s.iPos := by
  rw [h, List.length_zipIdx, List.length_take]
  omega

theorem Sending.UpTo.inOrder (h : s.UpTo sBuf) (hle : s.iPos ≤ iLen) : s.InOrder sBuf iLen := by
  refine ⟨?_, ?_⟩
  · rw [h, List.zipIdx_map_fst]
    exact List.take_prefix_take_left hle
  · rw [h, List.zipIdx_map_snd, List.length_zipIdx, List.range_eq_range']

/-- At the start of a round some bytes are still missing. -/
structure Sending.Unsent (sBuf : List UInt8) (iLen : ℕ) (s : Sending) : Prop where
  upTo : s.UpTo sBuf
  missing : s.iPos < iLen

/-- The states and results a round leads to. -/
def SendDone (sBuf : List UInt8) (iLen : ℕ) : Sending ⊕ SendResult → Prop :=
  Sum.elim (Sending.Unsent sBuf iLen) fun r =>
    r.sending.UpTo sBuf ∧ r.sending.iPos ≤ iLen ∧
      if r.sending.iPos = iLen then r.value = iLen else r.value < 0

/-- An error leaves the bytes accepted before, which were not all. -/
theorem sendDone_of_error {code : ℤ} (h : s.Unsent sBuf iLen) (hcode : code < 0) :
    SendDone sBuf iLen (.inr ⟨code, s⟩) := by
  have hmissing := h.missing
  refine ⟨h.upTo, hmissing.le, ?_⟩
  rw [if_neg hmissing.ne]
  exact hcode

theorem sendDone_sendRest (hlen : iLen ≤ sBuf.length) (h : s.Unsent sBuf iLen) (taken : Option ℕ) :
    SendDone sBuf iLen (sendRest sBuf iLen s taken) := by
  have hmissing := h.missing
  cases taken with
  | none => exact sendDone_of_error h (by decide)
  | some n =>
    have hupTo : (s.accept sBuf (min n (iLen - s.iPos))).UpTo sBuf := h.upTo.accept (by omega)
    -- the position never passes the length
    have hle : s.iPos + min n (iLen - s.iPos) ≤ iLen := by omega
    unfold sendRest
    simp only
    split
    · rename_i hlt
      exact ⟨hupTo, hlt⟩
    · rename_i hge
      have hall : s.iPos + min n (iLen - s.iPos) = iLen := le_antisymm hle (not_lt.mp hge)
      refine ⟨hupTo, hle, ?_⟩
      show if s.iPos + min n (iLen - s.iPos) = iLen then (iLen : ℤ) = iLen else (iLen : ℤ) < 0
      rw [if_pos hall]

theorem sendDone_putMsgToSock (hlen : iLen ≤ sBuf.length) (h : s.Unsent sBuf iLen) (o : SendRound) :
    SendDone sBuf iLen (putMsgToSock sBuf iLen s o) := by
  unfold putMsgToSock
  split
  · exact sendDone_of_error h (by decide)
  · split
    · exact sendDone_of_error h (by decide)
    · exact sendDone_sendRest hlen h o.taken

/-- A loop whose rounds all keep to the message sends completely. -/
theorem completeSend_of_rounds {o : Type} {body : Loop Sending o SendResult} (hpos : 1 ≤ iLen)
    (hlen : iLen ≤ sBuf.length)
    (hround : ∀ s o, s.Unsent sBuf iLen → SendDone sBuf iLen (body s o)) (env : ℕ → o) :
    CompleteSend body sBuf iLen env := by
  have hrunning : ∀ {k : ℕ} {s : Sending}, Loop.after body env .start k = .inl s →
      s.Unsent sBuf iLen := by
    intro k s hs
    refine Loop.invariant (I := fun _ s => s.Unsent sBuf iLen) ⟨rfl, hpos⟩ ?_ hs
    intro k t u _ ht hu
    have hdone := hround t (env k) ht
    rwa [hu] at hdone
  -- the last round starts like every other one
  have hreturned : ∀ {r : SendResult}, Loop.Returns body env .start r →
      SendDone sBuf iLen (.inr r) := by
    intro r hr
    obtain ⟨k, s, hs, hlast⟩ := hr.round
    have hdone := hround s (env k) (hrunning hs)
    rwa [hlast] at hdone
  refine ⟨?_, ?_, ?_⟩
  · intro k s hs
    have hunsent := hrunning hs
    exact hunsent.upTo.inOrder hunsent.missing.le
  · intro r hr
    obtain ⟨hupTo, hle, -⟩ := hreturned hr
    exact hupTo.inOrder hle
  · intro r hr
    obtain ⟨hupTo, hle, hvalue⟩ := hreturned hr
    rwa [hupTo.length_sent (hle.trans hlen)]

end Round

/-- Against every sequence of answers both functions send the bytes of the message in order, each of
them once, and tell by their value whether all of them were accepted. -/
theorem sends_complete (sBuf : List UInt8) (iLen : ℕ) (hpos : 1 ≤ iLen) (hlen : iLen ≤ sBuf.length) :
    (∀ env, CompleteSend (putMsgToSock sBuf iLen) sBuf iLen env) ∧
    ∀ env, CompleteSend (putMsgToProcess sBuf iLen) sBuf iLen env :=
  ⟨completeSend_of_rounds hpos hlen fun _ o h => sendDone_putMsgToSock hlen h o,
    completeSend_of_rounds hpos hlen fun _ o h => sendDone_sendRest hlen h o⟩

/-- A message of three bytes that is taken in two parts, with an interrupted wait between them. -/
theorem sends_complete_parts :
    CompleteSend (putMsgToSock [1, 2, 3] 3) [1, 2, 3] 3
      (fun k => if k = 0 then ⟨1, false, some 2⟩ else ⟨-1, true, some 1⟩) ∧
    Loop.Returns (putMsgToSock [1, 2, 3] 3)
      (fun k => if k = 0 then ⟨1, false, some 2⟩ else ⟨-1, true, some 1⟩) .start
      ⟨3, ⟨3, [(1, 0), (2, 1), (3, 2)]⟩⟩ :=
  ⟨(sends_complete [1, 2, 3] 3 (by decide) (by decide)).1 _, 2, by decide⟩

end Tdm.Common
