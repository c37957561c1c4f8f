import Tdm.Common.Sockets
import Tdm.Lib.Critical
import Mathlib.Data.Set.Insert
import Mathlib.Data.List.Infix

/-!
# The log connections

A log record goes to the log server over one of `SOCKET_NUM` connections that all threads share.
`Send_Logs_Data` locks the connection's mutex, connects when there is no connection, sends the record
and waits for the answer. If the record cannot be sent it reconnects and tries once more.

`sendLogsData` is one call, as the source runs it. The machine (`logChannel`) has any number of
calls at the same time, which stop at every call of the operating system. What happens on one
connection is then a sequence of whole calls, so that a request and its answer always belong
together.
-/

namespace Tdm.Common.Log

open Tdm.Lib

/-- `SOCKET_NUM`. -/
def socketNum : ℕ := 10

instance : NeZero socketNum := ⟨by decide⟩

/-! ## One call -/

/-- A call of the operating system, with its result. -/
inductive LogIo
  /-- `ConnectToServerTimeOut` -/
  | connect (c : Connect)
  | send (fd ret : ℤ)
  | recv (fd ret : ℤ)
  | close (fd : ℤ)
deriving DecidableEq

/-- How the calls of the operating system between the label `lk` and `recv` end. -/
structure Round where
  connect : Connect
  send : ℤ
deriving DecidableEq

/-- How the calls of the operating system end: with `count` 0, with `count` 1, and `recv`. -/
structure LogCalls where
  first : Round
  second : Round
  recv : ℤ
deriving DecidableEq

/-- `ReConectJavaServer`: what it does, its result, and `*Fd`. -/
def reConectJavaServer (fd : ℤ) (c : Connect) : Option LogIo × ℤ × ℤ :=
  if fd ≤ 0 then
    let fd := connectToServerTimeOut c
    (some (.connect c), if fd ≤ 0 then -1 else 0, fd)
  else (none, 0, fd)

/-- `Close_Socket_Fd`: what it does, and `*Fd`. -/
def closeSocketFd (fd : ℤ) : Option LogIo × ℤ := if 0 < fd then (some (.close fd), 0) else (none, fd)

/-- `Send_Logs_Data` behind a successful `send`. -/
def receiveAnswer (recv : ℤ) (fd : ℤ) : List LogIo × ℤ :=
  if recv ≤ 0 then (.recv fd recv :: (closeSocketFd fd).1.toList, (closeSocketFd fd).2)
  else ([.recv fd recv], fd)

/-- `Send_Logs_Data` from the label `lk` on. `again` is what follows when nothing could be sent: `goto lk`
when `count` is 0, and otherwise the end. -/
def sendLogsDataFrom (o : Round) (recv : ℤ) (again : ℤ → List LogIo × ℤ) (fd : ℤ) :
    List LogIo × ℤ :=
  let (connecting, failed, fd) := reConectJavaServer fd o.connect
  if failed ≠ 0 then (connecting.toList, fd)
  else if o.send ≤ 0 then
    let (closing, fd') := closeSocketFd fd
    let (rest, fd'') := again fd'
    (connecting.toList ++ .send fd o.send :: (closing.toList ++ rest), fd'')
  else
    let (rest, fd') := receiveAnswer recv fd
    (connecting.toList ++ .send fd o.send :: rest, fd')

section Round

variable {o : Round} {recv : ℤ} {again : ℤ → List LogIo × ℤ} {fd : ℤ}

theorem sendLogsDataFrom_of_unconnected (h : (reConectJavaServer fd o.connect).2.1 ≠ 0) :
    sendLogsDataFrom o recv again fd = ((reConectJavaServer fd o.connect).1.toList,
      (reConectJavaServer fd o.connect).2.2) := if_pos h

theorem sendLogsDataFrom_of_connected (h : (reConectJavaServer fd o.connect).2.1 = 0) :
    let f := (reConectJavaServer fd o.connect).2.2
    let rest := if o.send ≤ 0 then ((closeSocketFd f).1.toList ++ (again (closeSocketFd f).2).1,
      (again (closeSocketFd f).2).2) else receiveAnswer recv f
    sendLogsDataFrom o recv again fd =
      ((reConectJavaServer fd o.connect).1.toList ++ .send f o.send :: rest.1, rest.2) := by
  unfold sendLogsDataFrom
  generalize reConectJavaServer fd o.connect = x at h
  obtain ⟨connecting, failed, f⟩ := x
  subst h
  by_cases hsend : o.send ≤ 0 <;> simp only [hsend, ne_eq, not_true_eq_false, if_true, if_false]

end Round

/-- `Send_Logs_Data`: what it does, and `*Fd`. -/
def sendLogsData (calls : LogCalls) (fd : ℤ) : List LogIo × ℤ :=
  sendLogsDataFrom calls.first calls.recv
    (sendLogsDataFrom calls.second calls.recv fun fd => ([], fd)) fd

/-- Several calls, one after the other, on one connection. -/
def sendAll : List (ℕ × LogCalls) → ℤ → List (ℕ × LogIo) × ℤ
  | [], fd => ([], fd)
  | (c, calls) :: rest, fd =>
    let (es, fd) := sendLogsData calls fd
    let (es', fd) := sendAll rest fd
    (es.map (c, ·) ++ es', fd)

/-! ## The steps of a call -/

/-- Where a call is between its calls of the operating system. -/
inductive LogPc
  /-- at the label `lk` -/
  | lk (count : ℕ)
  | send (count : ℕ)
  /-- nothing was sent -/
  | closeUnsent (count : ℕ)
  | recv
  /-- nothing was received -/
  | closeUnanswered
deriving DecidableEq

/-- What the operating system answers next. -/
structure Answer where
  connect : Connect
  ret : ℤ

/-- A step of `Send_Logs_Data`: what it does, `*Fd`, and where it goes. -/
def LogPc.next (p : LogPc) (fd : ℤ) (a : Answer) : Option LogIo × ℤ × Option LogPc :=
  match p with
  | .lk count =>
    let (o, failed, fd) := reConectJavaServer fd a.connect
    (o, fd, if failed ≠ 0 then none else some (.send count))
  | .send count =>
    (some (.send fd a.ret), fd, some (if a.ret ≤ 0 then .closeUnsent count else .recv))
  | .closeUnsent count =>
    let (o, fd) := closeSocketFd fd
    (o, fd, if count = 0 then some (.lk 1) else none)
  | .recv => (some (.recv fd a.ret), fd, if a.ret ≤ 0 then some .closeUnanswered else none)
  | .closeUnanswered =>
    let (o, fd) := closeSocketFd fd
    (o, fd, none)

/-- `Send_Logs_Data` between the lock and the unlock. -/
def logSection : Section ℤ LogPc LogIo where
  entry := .lk 0
  step p fd o fd' q := ∃ a, p.next fd a = (o, fd', q)

/-! ## The descriptors of the process -/

/-- The open descriptors: those that the log connections have opened, and all others. -/
structure Fds where
  mine : Set ℤ
  others : Set ℤ

/-- The system may hand out a descriptor that is not open. -/
def Fds.Fresh (w : Fds) (fd : ℤ) : Prop := 0 ≤ fd ∧ fd ∉ w.mine ∧ fd ∉ w.others

/-- What a call of the operating system does to the descriptors. A refused connection keeps its
descriptor. -/
def Fds.Allows (w : Fds) : LogIo → Fds → Prop
  | .connect .socketFailed, w' => w' = w
  | .connect (.refused fd), w' | .connect (.connected fd), w' =>
    w.Fresh fd ∧ w' = { w with mine := insert fd w.mine }
  | .send _ _, w' | .recv _ _, w' => w' = w
  | .close fd, w' => w' = ⟨w.mine \ {fd}, w.others \ {fd}⟩

/-- The rest of the process opens and closes descriptors of its own. -/
inductive Fds.Drifts (w : Fds) : Fds → Prop
  | opens (fd : ℤ) (h : w.Fresh fd) : Fds.Drifts w { w with others := insert fd w.others }
  | closes (fd : ℤ) (h : fd ∈ w.others) : Fds.Drifts w { w with others := w.others \ {fd} }

def logService : Service ℤ LogPc LogIo Fds where
  body := logSection
  allows := Fds.Allows
  drifts := Fds.Drifts

abbrev LogState := Locks ℕ (Fin socketNum) ℤ LogPc LogIo Fds

/-! ## The machine -/

/-- The log connections `fd` belong to the process and are different from each other. -/
structure Fds.Owns (w : Fds) (fd : Fin socketNum → ℤ) : Prop where
  mine : ∀ k, 0 < fd k → fd k ∈ w.mine
  distinct : ∀ k k', 0 < fd k → fd k = fd k' → k = k'
  disjoint : ∀ x, x ∈ w.mine → x ∉ w.others

/-- `Logs_Fd` before the first call. -/
structure Start where
  fd : Fin socketNum → ℤ
  world : Fds
  owns : world.Owns fd

/-- Without `ConnectToMysqlInit` the array has its initial value. -/
def Start.zeroed (others : Set ℤ) : Start where
  fd _ := 0
  world := ⟨∅, others⟩
  owns := ⟨fun _ h => absurd h (lt_irrefl 0), fun _ _ h => absurd h (lt_irrefl 0), fun _ h => h.elim⟩

/-- Any number of calls of `Send_Logs_Data` at the same time. -/
def logChannel (start : Start) : System LogState (LockLabel ℕ (Fin socketNum)) :=
  lockSystem ℕ logService start.fd start.world

/-! ## A whole run is a call -/

section Runs

variable {p : LogPc} {fd fd' : ℤ} {es : List LogIo}

/-- The first step of the way to the end. -/
theorem finish_cases (h : logSection.Finish p fd es fd') :
    ∃ a, (p.next fd a).2.2 = none ∧ es = (p.next fd a).1.toList ∧ fd' = (p.next fd a).2.1 ∨
      ∃ q es', (p.next fd a).2.2 = some q ∧ logSection.Finish q (p.next fd a).2.1 es' fd' ∧
        es = (p.next fd a).1.toList ++ es' := by
  cases h with
  | last hstep =>
    obtain ⟨a, ha⟩ := hstep
    exact ⟨a, .inl (by rw [ha]; exact ⟨rfl, rfl, rfl⟩)⟩
  | step hstep hrest =>
    obtain ⟨a, ha⟩ := hstep
    exact ⟨a, .inr ⟨_, _, by rw [ha], by rw [ha]; exact hrest, by rw [ha]⟩⟩

theorem finish_closeUnanswered (h : logSection.Finish .closeUnanswered fd es fd') :
    (es, fd') = ((closeSocketFd fd).1.toList, (closeSocketFd fd).2) := by
  obtain ⟨a, ⟨-, rfl, rfl⟩ | ⟨q, es', hq, -⟩⟩ := finish_cases h
  · rfl
  · cases hq

theorem finish_recv (h : logSection.Finish .recv fd es fd') :
    ∃ recv, (es, fd') = receiveAnswer recv fd := by
  obtain ⟨a, ⟨hq, rfl, rfl⟩ | ⟨q, es', hq, hrest, rfl⟩⟩ := finish_cases h
  all_goals
    refine ⟨a.ret, ?_⟩
    unfold receiveAnswer
    simp only [LogPc.next] at hq
    split at hq
  · cases hq
  · rw [if_neg ‹_›]
    rfl
  · injection hq with hq
    subst hq
    rw [if_pos ‹_›]
    exact congrArg (fun x => (LogIo.recv fd a.ret :: x.1, x.2)) (finish_closeUnanswered hrest)
  · cases hq

theorem finish_send {count : ℕ} (h : logSection.Finish (.send count) fd es fd') :
    (∃ ret rest, ret ≤ 0 ∧ logSection.Finish (.closeUnsent count) fd rest fd' ∧
      es = .send fd ret :: rest) ∨
    ∃ ret recv, 0 < ret ∧ (es, fd') = (.send fd ret :: (receiveAnswer recv fd).1,
      (receiveAnswer recv fd).2) := by
  obtain ⟨a, ⟨hq, -, -⟩ | ⟨q, rest, hq, hrest, rfl⟩⟩ := finish_cases h
  · cases hq
  · simp only [LogPc.next, Option.some.injEq] at hq
    split at hq
    · subst hq
      exact .inl ⟨a.ret, rest, ‹_›, hrest, rfl⟩
    · subst hq
      obtain ⟨recv, hr⟩ := finish_recv hrest
      refine .inr ⟨a.ret, recv, by omega, ?_⟩
      exact congrArg (fun x => (LogIo.send fd a.ret :: x.1, x.2)) hr

theorem finish_closeUnsent {count : ℕ} (h : logSection.Finish (.closeUnsent count) fd es fd') :
    if count = 0 then ∃ rest, logSection.Finish (.lk 1) (closeSocketFd fd).2 rest fd' ∧
      es = (closeSocketFd fd).1.toList ++ rest
    else (es, fd') = ((closeSocketFd fd).1.toList, (closeSocketFd fd).2) := by
  obtain ⟨a, ⟨hq, rfl, rfl⟩ | ⟨q, rest, hq, hrest, rfl⟩⟩ := finish_cases h
  all_goals
    simp only [LogPc.next] at hq
    split at hq
  · cases hq
  · rw [if_neg ‹_›]
    rfl
  · injection hq with hq
    subst hq
    rw [if_pos ‹_›]
    exact ⟨rest, hrest, rfl⟩
  · cases hq

/-- From the label `lk` on: as one round of `Send_Logs_Data`, whatever follows a failed `send`; or
with the rest after the failed `send`. -/
theorem finish_lk {count : ℕ} (h : logSection.Finish (.lk count) fd es fd') :
    ∃ o, (∃ recv, ∀ again, (es, fd') = sendLogsDataFrom o recv again fd) ∨
      ∃ f rest, logSection.Finish (.closeUnsent count) f rest fd' ∧
        ∀ recv again, (rest, fd') = ((closeSocketFd f).1.toList ++ (again (closeSocketFd f).2).1,
          (again (closeSocketFd f).2).2) → (es, fd') = sendLogsDataFrom o recv again fd := by
  obtain ⟨a, ⟨hq, rfl, rfl⟩ | ⟨q, rest, hq, hrest, rfl⟩⟩ := finish_cases h
  · refine ⟨⟨a.connect, 0⟩, .inl ⟨0, fun again => ?_⟩⟩
    simp only [LogPc.next] at hq
    split at hq
    · exact (sendLogsDataFrom_of_unconnected (o := ⟨a.connect, 0⟩) ‹_›).symm
    · cases hq
  · simp only [LogPc.next] at hq hrest
    split at hq
    · cases hq
    · rename_i hok
      have hok := not_not.mp hok
      injection hq with hq
      subst hq
      rcases finish_send hrest with ⟨ret, rest', hret, hrest', rfl⟩ | ⟨ret, recv, hret, hr⟩
      · refine ⟨⟨a.connect, ret⟩, .inr ⟨_, rest', hrest', fun recv again hagain => ?_⟩⟩
        rw [sendLogsDataFrom_of_connected (o := ⟨a.connect, ret⟩) hok, if_pos hret, ← hagain]
        rfl
      · refine ⟨⟨a.connect, ret⟩, .inl ⟨recv, fun again => ?_⟩⟩
        rw [sendLogsDataFrom_of_connected (o := ⟨a.connect, ret⟩) hok, if_neg (not_le.mpr hret)]
        exact congrArg (fun x : List LogIo × ℤ => (_ ++ x.1, x.2)) hr

/-- What a call does between the lock and the unlock is what `Send_Logs_Data` does. -/
theorem finish_entry (h : logSection.Finish logSection.entry fd es fd') :
    ∃ calls, (es, fd') = sendLogsData calls fd := by
  obtain ⟨o, ⟨recv, hall⟩ | ⟨f, rest, hrest, hall⟩⟩ := finish_lk h
  · exact ⟨⟨o, o, recv⟩, hall _⟩
  · -- the record was not sent: the second round
    obtain ⟨rest', hlk, rfl⟩ := finish_closeUnsent hrest
    obtain ⟨o', ⟨recv, hall'⟩ | ⟨f', rest'', hrest'', hall'⟩⟩ := finish_lk hlk
    · refine ⟨⟨o, o', recv⟩, hall recv _ ?_⟩
      rw [← hall' fun fd => ([], fd)]
    · have hend : (rest'', fd') = _ := finish_closeUnsent hrest''
      refine ⟨⟨o, o', 0⟩, hall 0 _ ?_⟩
      rw [← hall' 0 (fun fd => ([], fd)) (by rw [hend, List.append_nil])]

end Runs

/-! ## The calls end -/

/-- The steps a call has left at most before it unlocks. -/
def LogPc.turns : LogPc → ℕ
  | .lk count => if count = 0 then 6 else 3
  | .send count => if count = 0 then 5 else 2
  | .closeUnsent count => if count = 0 then 4 else 0
  | .recv => 1
  | .closeUnanswered => 0

theorem turns_lt {p q : LogPc} {fd fd' : ℤ} {o : Option LogIo}
    (h : logSection.step p fd o fd' (some q)) : q.turns < p.turns := by
  obtain ⟨a, ha⟩ := h
  have hq : (p.next fd a).2.2 = some q := by rw [ha]
  cases p with
  | lk count =>
    simp only [LogPc.next] at hq
    split at hq
    · cases hq
    · injection hq with hq
      subst hq
      simp only [LogPc.turns]
      split <;> omega
  | send count =>
    simp only [LogPc.next, Option.some.injEq] at hq
    subst hq
    by_cases hret : a.ret ≤ 0
    · rw [if_pos hret]
      simp only [LogPc.turns]
      split <;> omega
    · rw [if_neg hret]
      simp only [LogPc.turns]
      split <;> omega
  | closeUnsent count =>
    simp only [LogPc.next] at hq
    split at hq
    · rename_i hcount
      injection hq with hq
      subst hq hcount
      exact Nat.lt_succ_self 3
    · cases hq
  | recv =>
    simp only [LogPc.next] at hq
    split at hq
    · injection hq with hq
      subst hq
      exact Nat.zero_lt_one
    · cases hq
  | closeUnanswered => cases hq

theorem exists_closed (fd : ℤ) (w : Fds) : ∃ w', logService.World w (closeSocketFd fd).1 w' := by
  unfold closeSocketFd
  split
  · exact ⟨_, rfl⟩
  · exact ⟨w, rfl⟩

/-- Every step has an answer: `socket` may always fail. -/
theorem exists_step (p : LogPc) (fd : ℤ) (w : Fds) :
    ∃ o fd' q w', logSection.step p fd o fd' q ∧ logService.World w o w' := by
  obtain ⟨w', hw'⟩ : ∃ w', logService.World w (p.next fd ⟨.socketFailed, 0⟩).1 w' := by
    cases p with
    | lk count =>
      simp only [LogPc.next, reConectJavaServer]
      split <;> exact ⟨w, rfl⟩
    | send count | recv => exact ⟨w, rfl⟩
    | closeUnsent count | closeUnanswered => exact exists_closed fd w
  exact ⟨_, _, _, w', ⟨_, rfl⟩, hw'⟩

/-! ## One call after the other -/

theorem sendAll_snoc (done : List (ℕ × LogCalls)) (c : ℕ) (calls : LogCalls) (fd : ℤ) :
    sendAll (done ++ [(c, calls)]) fd =
      ((sendAll done fd).1 ++ (sendLogsData calls (sendAll done fd).2).1.map (c, ·),
        (sendLogsData calls (sendAll done fd).2).2) := by
  induction done generalizing fd with
  | nil => simp [sendAll]
  | cons d done ih =>
    simp only [List.cons_append, sendAll, ih, List.append_assoc]

/-- Whole runs are calls of `Send_Logs_Data`. -/
theorem serial_sendAll {fd fd' : ℤ} {runs : List (ℕ × List LogIo)}
    (h : logSection.Serial fd runs fd') :
    ∃ done, done.map Prod.fst = runs.map Prod.fst ∧ sendAll done fd = (events runs, fd') := by
  induction h with
  | nil => exact ⟨[], rfl, rfl⟩
  | @snoc runs r₁ r₂ es c hruns hrun ih =>
    obtain ⟨done, hids, hall⟩ := ih
    obtain ⟨calls, hcalls⟩ := finish_entry (hrun.finish.1 rfl)
    refine ⟨done ++ [(c, calls)], ?_, ?_⟩
    · rw [List.map_append, List.map_append, hids]
      rfl
    · rw [sendAll_snoc, hall, ← hcalls, events_append, events_single]

/-- For every interleaving of calls of `Send_Logs_Data`, what happens on a connection is a sequence
of whole calls, one after the other, each call once; and a part of one more call while it has the
lock. -/
theorem log_calls_serialized (start : Start) (s : LogState) (h : (logChannel start).Reachable s)
    (k : Fin socketNum) :
    ∃ done : List (ℕ × LogCalls), (done.map Prod.fst).Nodup ∧
      (∀ c, s.call c = .returned k ↔ c ∈ done.map Prod.fst) ∧
      (s.owner k = none → (s.history k, s.resource k) = sendAll done (start.fd k)) ∧
      ∀ c, s.owner k = some c →
        ∃ calls, s.history k <+: (sendAll (done ++ [(c, calls)]) (start.fd k)).1 := by
  obtain ⟨runs, r₁, hk⟩ := Locks.serialized h k
  obtain ⟨done, hids, hall⟩ := serial_sendAll hk.serial
  refine ⟨done, hids ▸ hk.once, fun c => hids ▸ hk.returned c, ?_, ?_⟩
  · intro hfree
    obtain ⟨hresource, hhistory⟩ := hk.free hfree
    rw [hall, hresource, hhistory]
  · intro c hc
    obtain ⟨p, es, -, hrun, hhistory⟩ := hk.held c hc
    -- the call can go on to its end
    obtain ⟨es', fd', hfinish⟩ : ∃ es' fd', logSection.Finish logSection.entry r₁ (es ++ es') fd' := by
      cases p with
      | none => exact ⟨[], _, (List.append_nil es).symm ▸ hrun.finish.1 rfl⟩
      | some p =>
        obtain ⟨es', fd', hrest⟩ := logSection.exists_finish (fun _ _ _ _ _ => turns_lt)
          (fun p fd => by
            obtain ⟨o, fd', q, -, hstep, -⟩ := exists_step p fd ⟨∅, ∅⟩
            exact ⟨o, fd', q, hstep⟩) p (s.resource k)
        exact ⟨es', fd', hrun.finish.2 p es' fd' rfl hrest⟩
    obtain ⟨calls, hcalls⟩ := finish_entry hfinish
    refine ⟨calls, es'.map (c, ·), ?_⟩
    rw [sendAll_snoc, hall, ← hcalls, hhistory, List.map_append, List.append_assoc]

/-- A call has connected and has not sent its record yet; the next one waits for the lock. -/
theorem exists_connected :
    ∃ s, (logChannel (.zeroed ∅)).Reachable s ∧ s.owner 3 = some 0 ∧
      s.call 0 = .inside 3 (some (.send 0)) ∧ s.call 1 = .waiting 3 ∧ s.resource 3 = 7 ∧
      s.history 3 = [(0, .connect (.connected 7))] := by
  have hstart := System.Reachable.start (M := logChannel (.zeroed ∅)) rfl
  have hcalls := (hstart.next (.call 0 3 rfl)).next (.call 1 3 rfl)
  have hlock := hcalls.next (.lock 0 3 rfl rfl)
  have hfresh : Fds.Fresh ⟨∅, ∅⟩ 7 := ⟨by decide, id, id⟩
  have hworld : logService.World ⟨∅, ∅⟩ (some (.connect (.connected 7))) ⟨insert 7 ∅, ∅⟩ :=
    ⟨hfresh, rfl⟩
  exact ⟨_, hlock.next (.body 0 3 (.lk 0) _ 7 (some (.send 0)) _ rfl ⟨⟨.connected 7, 0⟩, rfl⟩ hworld),
    rfl, rfl, rfl, rfl, rfl⟩

theorem log_calls_serialized_waiting :
    ∃ s, (logChannel (.zeroed ∅)).Reachable s ∧ s.call 1 = .waiting 3 ∧
      s.history 3 = [(0, .connect (.connected 7))] ∧
      ∃ done calls, s.history 3 <+: (sendAll (done ++ [(0, calls)]) 0).1 := by
  obtain ⟨s, hs, howner, -, hwaiting, -, hhistory⟩ := exists_connected
  obtain ⟨done, -, -, -, hheld⟩ := log_calls_serialized (.zeroed ∅) s hs 3
  obtain ⟨calls, hpart⟩ := hheld 0 howner
  exact ⟨s, hs, hwaiting, hhistory, done, calls, hpart⟩

end Tdm.Common.Log
