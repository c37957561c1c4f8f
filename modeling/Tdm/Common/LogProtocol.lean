import Tdm.Common.LogChannel

/-!
# What happens on a log connection

The rules that the log server and the callers rely on, for every interleaving of the calls: on one
connection a request is sent only when the last one has been answered, the answer is read by the
call that sent the request, and a connection on which something failed is closed and not used again
(`log_protocol_kept`). A record is put on at most one connection (`log_record_sent_once`). The calls
return (`log_calls_return`).
-/

namespace Tdm.Common.Log

open Tdm.Lib

/-! ## The protocol -/

/-- A connection to the log server. -/
inductive Line
  | closed
  | ready (fd : ℤ)
  /-- the call `c` has sent a request that is not answered -/
  | awaiting (c : ℕ) (fd : ℤ)
  /-- something failed -/
  | dead (fd : ℤ)
deriving DecidableEq

/-- What a call may do. A descriptor that is not positive is not used. -/
def Line.next : Line → ℕ × LogIo → Option Line
  | .closed, (_, .connect c) =>
    let fd := connectToServerTimeOut c
    some (if 0 < fd then .ready fd else .closed)
  | .ready fd, (c, .send fd' ret) =>
    if fd' = fd then some (if 0 < ret then .awaiting c fd else .dead fd) else none
  | .awaiting c fd, (c', .recv fd' ret) =>
    if c' = c ∧ fd' = fd then some (if 0 < ret then .ready fd else .dead fd) else none
  | .dead fd, (_, .close fd') => if fd' = fd then some .closed else none
  | _, _ => none

def Line.run (line : Line) (es : List (ℕ × LogIo)) : Option Line := es.foldlM Line.next line

/-- The connection while nobody uses it. -/
def Line.of (fd : ℤ) : Line := if 0 < fd then .ready fd else .closed

theorem Line.run_append {line line' : Line} {es es' : List (ℕ × LogIo)}
    (h : line.run es = some line') : line.run (es ++ es') = line'.run es' := by
  unfold run at h ⊢
  rw [List.foldlM_append, h]
  rfl

theorem Line.run_single (line : Line) (e : ℕ × LogIo) : line.run [e] = line.next e := by
  simp [run]

theorem Line.of_pos {fd : ℤ} (h : 0 < fd) : Line.of fd = .ready fd := if_pos h

theorem Line.of_nonpos {fd : ℤ} (h : fd ≤ 0) : Line.of fd = .closed := if_neg (not_lt.mpr h)

theorem Line.of_ne_awaiting (fd : ℤ) (c : ℕ) (fd' : ℤ) : Line.of fd ≠ .awaiting c fd' := by
  unfold Line.of
  split <;> nofun

/-- There is a connection. -/
def LogPc.Connected : Option LogPc → Prop
  | none | some (.lk _) => False
  | some (.send _) | some (.closeUnsent _) | some .recv | some .closeUnanswered => True

/-- The connection while the call `c` uses it. -/
def Line.during (c : ℕ) (fd : ℤ) : Option LogPc → Line
  | none | some (.lk _) | some (.send _) => .of fd
  | some (.closeUnsent _) | some .closeUnanswered => .dead fd
  | some .recv => .awaiting c fd

theorem run_close {fd : ℤ} (h : 0 < fd) (c : ℕ) :
    (Line.dead fd).run ((closeSocketFd fd).1.toList.map (c, ·)) =
      some (.of (closeSocketFd fd).2) := by
  unfold closeSocketFd
  rw [if_pos h]
  exact (Line.run_single _ _).trans (if_pos rfl)

theorem run_connect (fd : ℤ) (c : ℕ) (a : Connect) :
    (Line.of fd).run ((reConectJavaServer fd a).1.toList.map (c, ·)) =
        some (.of (reConectJavaServer fd a).2.2) ∧
      ((reConectJavaServer fd a).2.1 = 0 → 0 < (reConectJavaServer fd a).2.2) := by
  unfold reConectJavaServer
  by_cases hfd : fd ≤ 0
  · rw [if_pos hfd, Line.of_nonpos hfd]
    refine ⟨Line.run_single _ _, fun hok => ?_⟩
    have hok : (if connectToServerTimeOut a ≤ 0 then (-1 : ℤ) else 0) = 0 := hok
    by_contra hno
    rw [if_pos (not_lt.mp hno)] at hok
    exact absurd hok (by decide)
  · rw [if_neg hfd]
    exact ⟨rfl, fun _ => not_le.mp hfd⟩

/-- One step of a call. -/
theorem run_step {p : LogPc} {fd : ℤ} (h : LogPc.Connected (some p) → 0 < fd) (c : ℕ) (a : Answer) :
    (Line.during c fd (some p)).run ((p.next fd a).1.toList.map (c, ·)) =
        some (.during c (p.next fd a).2.1 (p.next fd a).2.2) ∧
      (LogPc.Connected (p.next fd a).2.2 → 0 < (p.next fd a).2.1) := by
  cases p with
  | lk count =>
    obtain ⟨hrun, hpos⟩ := run_connect fd c a.connect
    simp only [LogPc.next]
    by_cases hok : (reConectJavaServer fd a.connect).2.1 = 0
    · rw [if_neg (not_not.mpr hok)]
      exact ⟨hrun, fun _ => hpos hok⟩
    · rw [if_pos hok]
      exact ⟨hrun, False.elim⟩
  | send count =>
    have hfd := h trivial
    simp only [LogPc.next]
    refine ⟨?_, fun _ => hfd⟩
    rw [Line.during, Line.of_pos hfd]
    refine (Line.run_single _ _).trans ((if_pos rfl).trans ?_)
    by_cases hret : a.ret ≤ 0
    · rw [if_neg (not_lt.mpr hret), if_pos hret]
      rfl
    · rw [if_pos (not_le.mp hret), if_neg hret]
      rfl
  | closeUnsent count =>
    have hrun := run_close (h trivial) c
    simp only [LogPc.next]
    by_cases hcount : count = 0
    · rw [if_pos hcount]
      exact ⟨hrun, False.elim⟩
    · rw [if_neg hcount]
      exact ⟨hrun, False.elim⟩
  | recv =>
    have hfd := h trivial
    simp only [LogPc.next]
    refine ⟨?_, fun _ => hfd⟩
    refine (Line.run_single _ _).trans ((if_pos ⟨rfl, rfl⟩).trans ?_)
    by_cases hret : a.ret ≤ 0
    · rw [if_neg (not_lt.mpr hret), if_pos hret]
      rfl
    · rw [if_pos (not_le.mp hret), if_neg hret]
      exact congrArg some (Line.of_pos hfd).symm
  | closeUnanswered => exact ⟨run_close (h trivial) c, False.elim⟩

/-- A call that has started with the connection `fd`. -/
theorem run_of_run {fd fd' : ℤ} {es : List LogIo} {q : Option LogPc}
    (h : logSection.Run fd es fd' q) (c : ℕ) :
    (Line.of fd).run (es.map (c, ·)) = some (.during c fd' q) ∧ (LogPc.Connected q → 0 < fd') := by
  induction h with
  | start => exact ⟨rfl, False.elim⟩
  | @snoc es r₁ r₂ p o q hrun hstep ih =>
    obtain ⟨a, ha⟩ := hstep
    have hnext := run_step ih.2 c a
    rw [ha] at hnext
    rw [List.map_append, Line.run_append ih.1]
    exact hnext

/-- Calls one after the other. -/
theorem run_of_serial {fd fd' : ℤ} {runs : List (ℕ × List LogIo)}
    (h : logSection.Serial fd runs fd') : (Line.of fd).run (events runs) = some (.of fd') := by
  induction h with
  | nil => rfl
  | @snoc runs r₁ r₂ es c hruns hrun ih =>
    rw [events_append, events_single, Line.run_append ih]
    exact (run_of_run hrun c).1

/-- A call has sent its record and waits for the answer, the next one waits for the lock. -/
theorem exists_sent :
    ∃ s, (logChannel (.zeroed ∅)).Reachable s ∧ s.call 0 = .inside 3 (some .recv) ∧
      s.call 1 = .waiting 3 ∧
      s.history 3 = [(0, .connect (.connected 7)), (0, .send 7 120)] := by
  obtain ⟨s, hs, -, hinside, hwaiting, hresource, hhistory⟩ := exists_connected
  have hstep : logService.body.step (.send 0) (s.resource 3) (some (.send 7 120)) 7 (some .recv) := by
    rw [hresource]
    exact ⟨⟨.socketFailed, 120⟩, rfl⟩
  have hworld : logService.World s.world (some (.send 7 120)) s.world := rfl
  refine ⟨_, hs.next (.body 0 3 (.send 0) _ 7 (some .recv) s.world hinside hstep hworld),
    Function.update_self 0 _ s.call, ?_, ?_⟩
  · show Function.update s.call 0 (.inside 3 (some .recv)) 1 = _
    rw [Function.update_of_ne Nat.one_ne_zero]
    exact hwaiting
  · refine (Function.update_self 3 _ s.history).trans ?_
    rw [hhistory]
    rfl

/-- The results of the calls of `send`. -/
def sends (es : List LogIo) : List ℤ :=
  es.filterMap fun
    | .send _ ret => some ret
    | _ => none

theorem sends_append (es es' : List LogIo) : sends (es ++ es') = sends es ++ sends es' :=
  List.filterMap_append ..

/-- At most `n` attempts, which all failed. -/
def Unsent (n : ℕ) (rets : List ℤ) : Prop := rets.length ≤ n ∧ ∀ ret ∈ rets, ret ≤ 0

/-- The last attempt succeeded, and there was at most one before. -/
def SentOnce (rets : List ℤ) : Prop := ∃ before ret, rets = before ++ [ret] ∧ Unsent 1 before ∧ 0 < ret

/-- The last thing that happened is that the log server could not be reached. -/
def Unreachable (es : List LogIo) : Prop :=
  ∃ c, es.getLast? = some (.connect c) ∧ connectToServerTimeOut c ≤ 0

/-- What has become of the record of a call at a program point. -/
def Tally (es : List LogIo) : Option LogPc → Prop
  | some (.lk count) | some (.send count) =>
    count ≤ 1 ∧ (sends es).length = count ∧ Unsent count (sends es)
  | some (.closeUnsent count) =>
    count ≤ 1 ∧ (sends es).length = count + 1 ∧ Unsent (count + 1) (sends es)
  | some .recv | some .closeUnanswered => SentOnce (sends es)
  | none => SentOnce (sends es) ∨ ((sends es).length = 2 ∧ Unsent 2 (sends es)) ∨
      (Unreachable es ∧ Unsent 1 (sends es))

theorem Unsent.mono {n n' : ℕ} {rets : List ℤ} (h : Unsent n rets) (hn : n ≤ n') : Unsent n' rets :=
  ⟨h.1.trans hn, h.2⟩

theorem Unsent.snoc {n : ℕ} {rets : List ℤ} (h : Unsent n rets) {ret : ℤ} (hret : ret ≤ 0) :
    Unsent (n + 1) (rets ++ [ret]) := by
  refine ⟨?_, fun x hx => ?_⟩
  · rw [List.length_append]
    exact Nat.add_le_add_right h.1 1
  · rcases List.mem_append.mp hx with hx | hx
    · exact h.2 x hx
    · exact List.mem_singleton.mp hx ▸ hret

theorem sends_close (fd : ℤ) : sends (closeSocketFd fd).1.toList = [] := by
  unfold closeSocketFd
  split <;> rfl

theorem sends_connect (fd : ℤ) (c : Connect) : sends (reConectJavaServer fd c).1.toList = [] := by
  unfold reConectJavaServer
  split <;> rfl

/-- `ReConectJavaServer` fails only when it cannot connect. -/
theorem unreachable_of_failed {fd : ℤ} {c : Connect} (h : (reConectJavaServer fd c).2.1 ≠ 0)
    (es : List LogIo) : Unreachable (es ++ (reConectJavaServer fd c).1.toList) := by
  unfold reConectJavaServer at h ⊢
  by_cases hfd : fd ≤ 0
  · rw [if_pos hfd] at h ⊢
    refine ⟨c, List.getLast?_concat .., ?_⟩
    by_contra hno
    exact h (if_neg hno)
  · rw [if_neg hfd] at h
    exact absurd rfl h

/-- One step of a call. -/
theorem Tally.step {es : List LogIo} {p : LogPc} (h : Tally es (some p)) (fd : ℤ) (a : Answer) :
    Tally (es ++ (p.next fd a).1.toList) (p.next fd a).2.2 := by
  cases p with
  | lk count =>
    obtain ⟨hcount, hlen, hunsent⟩ := h
    have hsame : sends (es ++ (reConectJavaServer fd a.connect).1.toList) = sends es := by
      rw [sends_append, sends_connect, List.append_nil]
    simp only [LogPc.next]
    by_cases hok : (reConectJavaServer fd a.connect).2.1 = 0
    · rw [if_neg (not_not.mpr hok), Tally, hsame]
      exact ⟨hcount, hlen, hunsent⟩
    · rw [if_pos hok, Tally, hsame]
      exact .inr (.inr ⟨unreachable_of_failed hok es, hunsent.mono hcount⟩)
  | send count =>
    obtain ⟨hcount, hlen, hunsent⟩ := h
    have hmore : sends (es ++ [.send fd a.ret]) = sends es ++ [a.ret] := sends_append ..
    simp only [LogPc.next, Option.toList_some]
    by_cases hret : a.ret ≤ 0
    · rw [if_pos hret, Tally, hmore]
      refine ⟨hcount, ?_, hunsent.snoc hret⟩
      rw [List.length_append, hlen]
      rfl
    · rw [if_neg hret, Tally, hmore]
      exact ⟨sends es, a.ret, rfl, hunsent.mono hcount, not_le.mp hret⟩
  | closeUnsent count =>
    obtain ⟨hcount, hlen, hunsent⟩ := h
    have hsame : sends (es ++ (closeSocketFd fd).1.toList) = sends es := by
      rw [sends_append, sends_close, List.append_nil]
    simp only [LogPc.next]
    by_cases hzero : count = 0
    · rw [if_pos hzero, Tally, hsame]
      subst hzero
      exact ⟨Nat.le_refl 1, hlen, hunsent⟩
    · obtain rfl : count = 1 := by omega
      rw [if_neg hzero, Tally, hsame]
      exact .inr (.inl ⟨hlen, hunsent⟩)
  | recv =>
    have hsame : sends (es ++ [.recv fd a.ret]) = sends es := (sends_append ..).trans (List.append_nil _)
    simp only [LogPc.next, Option.toList_some]
    by_cases hret : a.ret ≤ 0
    · rw [if_pos hret, Tally, hsame]
      exact h
    · rw [if_neg hret, Tally, hsame]
      exact .inl h
  | closeUnanswered =>
    have hsame : sends (es ++ (closeSocketFd fd).1.toList) = sends es := by
      rw [sends_append, sends_close, List.append_nil]
    simp only [LogPc.next]
    rw [Tally, hsame]
    exact .inl h

theorem tally_of_run {fd fd' : ℤ} {es : List LogIo} {q : Option LogPc}
    (h : logSection.Run fd es fd' q) : Tally es q := by
  induction h with
  | start => exact ⟨Nat.zero_le 1, rfl, Nat.le_refl 0, nofun⟩
  | @snoc es r₁ r₂ p o q hrun hstep ih =>
    obtain ⟨a, ha⟩ := hstep
    have hnext := ih.step r₁ a
    rw [ha] at hnext
    exact hnext

theorem Unsent.filter_eq_nil {n : ℕ} {rets : List ℤ} (h : Unsent n rets) :
    rets.filter (0 < ·) = [] :=
  List.filter_eq_nil_iff.mpr fun ret hret => by simpa using h.2 ret hret

theorem SentOnce.counts {rets : List ℤ} (h : SentOnce rets) :
    rets.length ≤ 2 ∧ (rets.filter (0 < ·)).length ≤ 1 := by
  obtain ⟨before, ret, rfl, hbefore, hret⟩ := h
  rw [List.length_append, List.filter_append, hbefore.filter_eq_nil, List.nil_append]
  exact ⟨Nat.add_le_add_right hbefore.1 1, List.length_filter_le ..⟩

theorem Unsent.counts {rets : List ℤ} (h : Unsent 2 rets) :
    rets.length ≤ 2 ∧ (rets.filter (0 < ·)).length ≤ 1 :=
  ⟨h.1, by rw [h.filter_eq_nil]; exact Nat.zero_le 1⟩

theorem Tally.counts {es : List LogIo} {q : Option LogPc} (h : Tally es q) :
    (sends es).length ≤ 2 ∧ ((sends es).filter (0 < ·)).length ≤ 1 := by
  cases q with
  | none =>
    rcases h with h | ⟨-, h⟩ | ⟨-, h⟩
    · exact h.counts
    · exact h.counts
    · exact (h.mono (by decide)).counts
  | some p =>
    cases p with
    | lk count | send count => exact (h.2.2.mono (h.1.trans (by decide))).counts
    | closeUnsent count => exact (h.2.2.mono (Nat.add_le_add_right h.1 1)).counts
    | recv | closeUnanswered => exact SentOnce.counts h

/-- A record is put on at most one connection, and `send` is called at most twice for it, with at most
one success. When the call has returned, the record has been sent by its last attempt, or `send` has
failed twice, or the log server could not be reached. -/
theorem log_record_sent_once (start : Start) (s : LogState) (h : (logChannel start).Reachable s)
    (c : ℕ) :
    (∀ k k', own c (s.history k) ≠ [] → own c (s.history k') ≠ [] → k = k') ∧
      ∀ k, (sends (own c (s.history k))).length ≤ 2 ∧
        ((sends (own c (s.history k))).filter (0 < ·)).length ≤ 1 ∧
        (s.call c = .returned k → SentOnce (sends (own c (s.history k))) ∨
          ((sends (own c (s.history k))).length = 2 ∧ Unsent 2 (sends (own c (s.history k)))) ∨
          (Unreachable (own c (s.history k)) ∧ Unsent 1 (sends (own c (s.history k))))) := by
  have hplace : ∀ k, own c (s.history k) ≠ [] → (∃ q, s.call c = .inside k q) ∨ s.call c = .returned k := by
    intro k hk
    rcases Locks.own_run h c k with ⟨hnone, -⟩ | ⟨-, -, q, -, hin | ⟨hout, -⟩⟩
    · exact absurd hnone hk
    · exact .inl ⟨q, hin⟩
    · exact .inr hout
  refine ⟨fun k k' hk hk' => ?_, fun k => ?_⟩
  · rcases hplace k hk with ⟨q, hin⟩ | hout <;> rcases hplace k' hk' with ⟨q', hin'⟩ | hout'
    · rw [hin] at hin'
      injection hin'
    · rw [hin] at hout'
      cases hout'
    · rw [hout] at hin'
      cases hin'
    · rw [hout] at hout'
      injection hout'
  · rcases Locks.own_run h c k with ⟨hnone, -, hnot⟩ | ⟨_, _, q, hrun, hq⟩
    · rw [hnone]
      exact ⟨Nat.zero_le 2, Nat.zero_le 1, fun hret => absurd hret hnot⟩
    · have htally := tally_of_run hrun
      refine ⟨htally.counts.1, htally.counts.2, fun hret => ?_⟩
      rcases hq with hin | ⟨-, rfl⟩
      · rw [hret] at hin
        cases hin
      · exact htally

/-- A record that is on its way, on one connection. -/
theorem log_record_sent_once_waiting :
    ∃ s, (logChannel (.zeroed ∅)).Reachable s ∧ sends (own 0 (s.history 3)) = [120] ∧
      own 0 (s.history 4) = [] := by
  obtain ⟨s, hs, -, -, hhistory⟩ := exists_sent
  have hown : own 0 (s.history 3) = [.connect (.connected 7), .send 7 120] := by
    rw [hhistory]
    rfl
  refine ⟨s, hs, by rw [hown]; rfl, ?_⟩
  by_contra hother
  have hsame := (log_record_sent_once (.zeroed ∅) s hs 0).1 3 4 (by rw [hown]; nofun) hother
  exact absurd hsame (by decide)

/-! ## The calls return -/

/-- As long as no new call begins, the calls cannot go on for ever in any order; and when none can go
on, all have returned and no lock is held. -/
theorem log_calls_return (start : Start) (s : LogState) (h : (logChannel start).Reachable s) :
    (∀ run : ℕ → LogState, run 0 = s →
      ¬ ∀ n, (Locks.working ℕ logService start.fd start.world).Next (run n) (run (n + 1))) ∧
    ∀ t, Relation.ReflTransGen (Locks.working ℕ logService start.fd start.world).Next s t →
      (∀ u, ¬ (Locks.working ℕ logService start.fd start.world).Next t u) →
      (∀ c, t.call c = .idle ∨ ∃ k, t.call c = .returned k) ∧ ∀ k, t.owner k = none := by
  have hsettles := Locks.settles (fun _ _ _ _ _ => turns_lt) exists_step h
  refine ⟨fun run h₀ => hsettles.no_infinite_run h₀, fun t hrun hend => ?_⟩
  obtain ⟨hreach, hall⟩ := hsettles.of_stuck hrun hend
  refine ⟨hall, fun k => ?_⟩
  cases howner : t.owner k with
  | none => rfl
  | some c =>
    obtain ⟨runs, r₁, hk⟩ := Locks.serialized hreach k
    obtain ⟨p, es, hc, -⟩ := hk.held c howner
    rcases hall c with hidle | ⟨l, hret⟩
    · rw [hidle] at hc
      cases hc
    · rw [hret] at hc
      cases hc

/-- From a state in which one call waits for its answer and one for the lock, the calls can return. -/
theorem log_calls_return_both :
    ∃ s t, (logChannel (.zeroed ∅)).Reachable s ∧ s.call 0 = .inside 3 (some .recv) ∧
      s.call 1 = .waiting 3 ∧
      Relation.ReflTransGen (Locks.working ℕ logService (Start.zeroed ∅).fd
        (Start.zeroed ∅).world).Next s t ∧
      (∀ c, t.call c = .idle ∨ ∃ k, t.call c = .returned k) ∧ t.owner 3 = none := by
  obtain ⟨s, hs, hinside, hwaiting, -⟩ := exists_sent
  obtain ⟨t, hrun, hend, -⟩ :=
    (Locks.settles (fun _ _ _ _ _ => turns_lt) exists_step hs).exists_end
  obtain ⟨hall, hfree⟩ := (log_calls_return (.zeroed ∅) s hs).2 t hrun hend
  exact ⟨s, t, hs, hinside, hwaiting, hrun, hall, hfree 3⟩

end Tdm.Common.Log
