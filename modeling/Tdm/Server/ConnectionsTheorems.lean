import Tdm.Server.Connections
import Tdm.Thread.WorkersProgress

/-!
# Every connection is in one place

The invariant (`Tidy`): every descriptor the server has open is in exactly one place, with the main
thread, in the queue or the hands of one worker, or registered with one base, and `conns` leads from
a descriptor to its own `conn`. The kernel gives a descriptor out again only when the server has
closed it, and the server closes it only when it is nowhere else; so `conn_new` never meets an event
that is still added, and the event of a connection always reports the connection's own descriptor.
-/

namespace Tdm.Server

open Tdm.Lib Tdm.Thread Tdm.Device

variable {maxFds listener : ℤ} {s s' : Connections}

/-! ## What `conn_new` does -/

theorem connNew_eq_some {conns conns' : Conns} {sfd : ℤ} {initState : ConnStates} {base : Base}
    {calloc eventAdd ok : Bool} (hsfd : ∀ c, conns sfd = some c → c.sfd = sfd)
    (h : connNew maxFds conns sfd initState base calloc eventAdd = some (conns', ok)) :
    registered (conns sfd) = [] ∧ ((conns' = conns ∧ ok = false) ∨
      conns' = Function.update conns sfd (some ⟨sfd, initState, sfd, base, ok⟩)) := by
  unfold connNew at h
  split at h
  · cases hconn : conns sfd with
    | none =>
      rw [hconn] at h
      refine ⟨rfl, ?_⟩
      cases calloc with
      | false =>
        obtain ⟨rfl, rfl⟩ := Prod.mk.inj (Option.some.inj h)
        exact .inl ⟨rfl, rfl⟩
      | true =>
        obtain ⟨rfl, rfl⟩ := Prod.mk.inj (Option.some.inj h)
        exact .inr rfl
    | some c =>
      rw [hconn] at h
      cases hadded : c.added with
      | true =>
        simp only [hadded, if_true] at h
        cases h
      | false =>
        simp only [hadded, Bool.false_eq_true, if_false] at h
        obtain ⟨rfl, rfl⟩ := Prod.mk.inj (Option.some.inj h)
        refine ⟨by simp [registered, hadded], .inr ?_⟩
        rw [hsfd c hconn]
  · cases h

theorem connNew_eq_none {conns : Conns} {sfd : ℤ} {initState : ConnStates} {base : Base}
    {calloc eventAdd : Bool} (hrange : 0 ≤ sfd ∧ sfd < maxFds)
    (h : connNew maxFds conns sfd initState base calloc eventAdd = none) :
    ∃ c, conns sfd = some c ∧ c.added = true := by
  unfold connNew at h
  rw [if_pos hrange] at h
  cases hconn : conns sfd with
  | none =>
    rw [hconn] at h
    cases calloc <;> cases h
  | some c =>
    refine ⟨c, rfl, ?_⟩
    by_contra hadded
    rw [hconn] at h
    simp only [hadded] at h
    cases h

/-! ## The invariant -/

/-- A connection that is handed over. -/
def Handed (m : Msg) : Prop := ∃ sfd, m = .conn sfd .connNewCmd (evRead + evPersist)

/-- The `conn` at index `i` is that of descriptor `i`: the listening one, or one of a worker. -/
structure Own (listener i : ℤ) (c : Conn) : Prop where
  sfd : c.sfd = i
  eventFd : c.eventFd = i
  role : (i = listener ∧ c.base = .main ∧ c.state = .connListening) ∨
    ∃ idx < rtPoolNum, c.base = .worker idx ∧ c.state = .connNewCmd

structure Tidy (maxFds listener : ℤ) (s : Connections) : Prop where
  threads : (machine {0}).Reachable s.threads
  range : ∀ fd ∈ s.mine, 0 ≤ fd ∧ fd < maxFds
  apart : Disjoint s.mine s.others
  conn : ∀ i c, s.conns i = some c → Own listener i c
  dispatching : ∀ m ∈ s.dispatching, Handed m
  waiting : ∀ idx, ∀ m ∈ s.waiting idx, Handed m
  placed : Placed s.mine s.place

theorem place_start (listener : ℤ) :
    placeOf [] (fun _ => []) (Function.update (fun _ => none) listener
      (some ⟨listener, .connListening, listener, .main, true⟩)) =
      Function.update (fun _ => []) (.registered listener) [listener] := by
  rw [placeOf_conns]
  congr 1
  funext o
  cases o <;> rfl

theorem tidy_start (h : (server maxFds listener).init s) : Tidy maxFds listener s := by
  obtain ⟨hthreads, hrun, hmine, hapart⟩ := h
  have hrange : 0 ≤ listener ∧ listener < maxFds := by
    by_contra hrange
    rw [connNew, if_neg hrange] at hrun
    cases hrun
  obtain ⟨-, ⟨-, hfalse⟩ | hconns⟩ := connNew_eq_some (by nofun) hrun
  · cases hfalse
  have hdispatching : s.dispatching = [] := by
    rw [Connections.dispatching, hthreads]
    rfl
  have hwaiting : s.waiting = fun _ => [] := by
    funext idx
    rw [Connections.waiting, hthreads]
    rfl
  refine ⟨hthreads ▸ .start rfl, ?_, hapart, ?_, ?_, ?_, ?_⟩
  · rw [hmine]
    rintro fd rfl
    exact hrange
  · rw [hconns]
    intro i c hc
    by_cases hi : i = listener
    · subst hi
      rw [Function.update_self] at hc
      obtain rfl := Option.some.inj hc
      exact ⟨rfl, rfl, .inl ⟨rfl, rfl, rfl⟩⟩
    · rw [Function.update_of_ne hi] at hc
      cases hc
  · rw [hdispatching]
    nofun
  · rw [hwaiting]
    nofun
  · rw [Connections.place, hdispatching, hwaiting, hconns, hmine, place_start]
    exact Placed.single _ listener

namespace Tidy

/-- The descriptor of a connection whose event is added is registered. -/
theorem mem_registered (h : Tidy maxFds listener s) {i : ℤ} {c : Conn} (hc : s.conns i = some c)
    (hadded : c.added = true) : i ∈ s.place (.registered i) := by
  show i ∈ registered (s.conns i)
  rw [hc, registered, if_pos hadded, (h.conn i c hc).sfd]
  exact List.mem_singleton_self i

/-- Nothing changes for the descriptors. -/
theorem still (h : Tidy maxFds listener s) {t : State} (hreach : (machine {0}).Reachable t)
    (hdispatching : connOf (t.calls 0) = s.dispatching)
    (hwaiting : (fun idx => t.waiting ⟨.conn, idx⟩) = s.waiting) :
    Tidy maxFds listener { s with threads := t } := by
  refine ⟨hreach, h.range, h.apart, h.conn, ?_, ?_, ?_⟩
  · show ∀ m ∈ connOf (t.calls 0), Handed m
    rw [hdispatching]
    exact h.dispatching
  · show ∀ idx, ∀ m ∈ (fun idx => t.waiting ⟨.conn, idx⟩) idx, Handed m
    rw [hwaiting]
    exact h.waiting
  · show Placed s.mine (placeOf (connOf (t.calls 0)) (fun idx => t.waiting ⟨.conn, idx⟩) s.conns)
    rw [hdispatching, hwaiting]
    exact h.placed

/-- The main thread is the only one that hands connections over. -/
theorem main_calls (h : Tidy maxFds listener s) {i : ℕ} {c : Call} (hcall : s.threads.calls i = some c)
    (hkind : c.kind = .conn) : i = 0 :=
  (reachable_rotation h.threads).alone i c hcall hkind

theorem connOf_work {calls : ℕ → Option Call} {i : ℕ} {c : Call} (hcall : calls i = some c)
    (hkind : c.kind = .work) : connOf (Function.update calls i none 0) = connOf (calls 0) := by
  by_cases hi : 0 = i
  · subst hi
    rw [Function.update_self, hcall]
    cases c with
    | dispatchConnNew => cases hkind
    | connNewFuncWorker => rfl
  · rw [Function.update_of_ne hi]

/-- The main thread pushes the connection it has to a worker. -/
theorem push (h : Tidy maxFds listener s) {t : State} (m : Msg) (idx : ℕ)
    (hreach : (machine {0}).Reachable t) (hbefore : s.dispatching = [m])
    (hdispatching : connOf (t.calls 0) = [])
    (hwaiting : (fun j => t.waiting ⟨.conn, j⟩) =
      Function.update s.waiting idx (s.waiting idx ++ [m])) :
    Tidy maxFds listener { s with threads := t } := by
  have hm : Handed m := h.dispatching m (by rw [hbefore]; exact List.mem_singleton_self m)
  refine ⟨hreach, h.range, h.apart, h.conn, ?_, ?_, ?_⟩
  · show ∀ m ∈ connOf (t.calls 0), Handed m
    rw [hdispatching]
    nofun
  · show ∀ j, ∀ m ∈ (fun j => t.waiting ⟨.conn, j⟩) j, Handed m
    rw [hwaiting]
    refine (Function.forall_update_iff s.waiting fun _ l => ∀ m ∈ l, Handed m).mpr
      ⟨fun m' hm' => ?_, fun j _ => h.waiting j⟩
    rcases List.mem_append.mp hm' with hold | hnew
    · exact h.waiting idx m' hold
    · rw [List.mem_singleton.mp hnew]
      exact hm
  · obtain ⟨sfd, rfl⟩ := hm
    show Placed s.mine (placeOf (connOf (t.calls 0)) (fun j => t.waiting ⟨.conn, j⟩) s.conns)
    rw [hdispatching, hwaiting, placeOf_waiting, placeOf_dispatching s.dispatching]
    refine h.placed.pass (o := .dispatching) (a := sfd) (fun heq => by cases heq) ?_ ?_
    · show (s.dispatching.filterMap msgSfd).Perm _
      rw [hbefore]
      exact List.Perm.refl _
    · rw [List.filterMap_append]
      exact List.perm_append_comm

/-- A step inside `thread.c`. -/
theorem thread (h : Tidy maxFds listener s) {l : Label} {t : State} (hstep : Step {0} s.threads l t)
    (hinternal : Internal s.threads t l) : Tidy maxFds listener { s with threads := t } := by
  obtain ⟨place, hinv⟩ := reachable_inv h.threads
  have hreach := h.threads.next hstep
  cases hstep.traffic hinv with
  | call i c hpc => exact absurd hpc hinternal.1
  | giveUp i c hgrow hpc hcalls hwaiting =>
    have hcall : s.threads.calls i = some c := by
      rw [State.calls, hgrow]
      rfl
    have hkind : c.kind = .work := by
      cases hk : c.kind with
      | work => rfl
      | conn => exact absurd hpc (hinternal.2 c hcall hk)
    refine h.still hreach ?_ ?_
    · rw [hcalls]
      exact connOf_work hcall hkind
    · rw [hwaiting]
      rfl
  | push i c w hcall hkind hw hcalls hwaiting =>
    obtain ⟨k, idx⟩ := w
    cases k with
    | work =>
      refine h.still hreach ?_ ?_
      · rw [hcalls]
        exact connOf_work hcall hkind.symm
      · rw [hwaiting]
        exact waiting_update_work ..
    | conn =>
      obtain rfl := h.main_calls hcall hkind.symm
      refine h.push c.msg idx hreach ?_ ?_ ?_
      · rw [Connections.dispatching, hcall]
        cases c with
        | dispatchConnNew => rfl
        | connNewFuncWorker => cases hkind
      · rw [hcalls, Function.update_self]
        rfl
      · rw [hwaiting]
        exact waiting_update_conn ..
  | process w m rest _ hfirst hcalls hwaiting hprocessed =>
    obtain ⟨k, idx⟩ := w
    cases k with
    | work =>
      refine h.still hreach ?_ ?_
      · rw [hcalls]
        rfl
      · rw [hwaiting]
        exact waiting_update_work ..
    | conn =>
      -- a connection worker that works on a message is seen
      have hsame := (hinternal rfl).2
      rw [hprocessed] at hsame
      simp at hsame
  | unseen _ hcalls hwaiting =>
    refine h.still hreach ?_ ?_
    · rw [hcalls]
      rfl
    · rw [hwaiting]
      rfl

/-! ## What is seen of `thread.c` -/

/-- The connection that is served is the first that waits for its worker. -/
theorem first (h : Tidy maxFds listener s) {idx : ℕ} {sfd : ℤ} {initState : ConnStates} {t : State}
    (hserves : s.Serves idx sfd initState t) :
    ∃ rest, s.waiting idx = .conn sfd .connNewCmd (evRead + evPersist) :: rest ∧
      initState = .connNewCmd ∧ idx < rtPoolNum ∧ connOf (t.calls 0) = s.dispatching ∧
      (fun j => t.waiting ⟨.conn, j⟩) = Function.update s.waiting idx rest := by
  obtain ⟨hstep, -, eventFlags, hmessage⟩ := hserves
  obtain ⟨place, hinv⟩ := reachable_inv h.threads
  cases hstep.traffic hinv with
  | process w m rest hpc hfirst hcalls hwaiting hprocessed =>
    obtain rfl : m = .conn sfd initState eventFlags := by
      rw [hprocessed] at hmessage
      exact List.singleton_inj.mp (List.append_cancel_left hmessage)
    obtain ⟨sfd', hhanded⟩ := h.waiting idx _ (by rw [Connections.waiting, hfirst]; exact List.mem_cons_self)
    obtain ⟨-, rfl, rfl⟩ := Msg.conn.inj hhanded
    refine ⟨rest, hfirst, rfl, mem_workers.mp ((reachable_housed h.threads).handler _ hpc), ?_, ?_⟩
    · rw [hcalls]
      rfl
    · rw [hwaiting]
      exact waiting_update_conn ..
  | unseen _ _ _ hprocessed =>
    rw [hprocessed _ rfl] at hmessage
    simp at hmessage

/-- The descriptor that is served is nowhere registered. -/
theorem not_registered (h : Tidy maxFds listener s) {idx : ℕ} {sfd : ℤ} {m : Msg} {rest : List Msg}
    (hfirst : s.waiting idx = m :: rest) (hm : msgSfd m = some sfd) :
    sfd ∈ s.mine ∧ ∀ c, s.conns sfd = some c → c.added = false := by
  have hat : sfd ∈ s.place (.waiting idx) := by
    show sfd ∈ (s.waiting idx).filterMap msgSfd
    rw [hfirst, List.filterMap_cons, hm]
    exact List.mem_cons_self
  refine ⟨h.placed.mem_held hat, fun c hc => ?_⟩
  by_contra hadded
  have hsame := h.placed.same_station hat (h.mem_registered hc (by simpa using hadded))
  cases hsame

/-- `conn_new` is always called as it should be. -/
theorem defined (h : Tidy maxFds listener s) : ¬ Undefined maxFds s := by
  rintro ⟨idx, sfd, initState, t, calloc, eventAdd, hserves, hnone⟩
  obtain ⟨rest, hfirst, -⟩ := h.first hserves
  obtain ⟨hmine, hfree⟩ := h.not_registered hfirst rfl
  obtain ⟨c, hc, hadded⟩ := connNew_eq_none (h.range sfd hmine) hnone
  rw [hfree c hc] at hadded
  cases hadded

/-- A call for a log worker begins. -/
theorem read (h : Tidy maxFds listener s) {i : ℤ} {c : Conn} (hfires : s.Fires i c)
    (hstate : c.state = .connNewCmd) (buff : Text) :
    Tidy maxFds listener (s.begin c.base (.connNewFuncWorker buff)) := by
  obtain ⟨-, -, hlisten⟩ | ⟨idx, -, hbase, -⟩ := (h.conn i c hfires.conn).role
  · rw [hstate] at hlisten
    cases hlisten
  · have hidle := hfires.waits.1
    rw [hbase] at hidle ⊢
    refine h.still (h.threads.next (.call (idx + 1) _ hidle nofun)) ?_ rfl
    rw [calls_update rfl rfl, Function.update_of_ne
      (show 0 ≠ (Base.worker idx).thread from (Nat.succ_ne_zero idx).symm)]
    rfl

/-- The main thread accepts a descriptor. -/
theorem accept (h : Tidy maxFds listener s) {i : ℤ} {c : Conn} {o : AcceptRound}
    (hfires : s.Fires i c) (hstate : c.state = .connListening)
    (husable : setnonblocking o.sfd o.fcntl = 0) (hfree : o.sfd ∉ s.mine ∪ s.others)
    (hlimit : o.sfd < maxFds) :
    Tidy maxFds listener
      { s.begin c.base (.dispatchConnNew o.sfd .connNewCmd (evRead + evPersist)) with
        mine := insert o.sfd s.mine } := by
  obtain ⟨-, hbase, -⟩ | ⟨idx, -, -, hnew⟩ := (h.conn i c hfires.conn).role
  · have hidle : s.threads.dispatcher 0 = .idle := by
      have hidle := hfires.waits.1
      rwa [hbase] at hidle
    rw [hbase]
    have hempty : s.dispatching = [] := by
      rw [Connections.dispatching, State.calls, hidle]
      rfl
    have hcalls : connOf ((s.begin .main
        (.dispatchConnNew o.sfd .connNewCmd (evRead + evPersist))).threads.calls 0) =
        [.conn o.sfd .connNewCmd (evRead + evPersist)] := by
      show connOf ((Function.update s.threads.dispatcher 0 _ 0).call) = _
      rw [Function.update_self]
      rfl
    refine ⟨h.threads.next (.call 0 _ hidle fun _ => rfl), ?_, ?_, h.conn, ?_, h.waiting, ?_⟩
    · rintro fd (rfl | hfd)
      · refine ⟨?_, hlimit⟩
        by_contra hneg
        rw [setnonblocking, if_neg (fun hboth => hneg hboth.1)] at husable
        cases husable
      · exact h.range fd hfd
    · refine Set.disjoint_insert_left.mpr ⟨fun hother => hfree (.inr hother), h.apart⟩
    · show ∀ m ∈ connOf _, Handed m
      rw [hcalls]
      intro m hm
      exact ⟨o.sfd, List.mem_singleton.mp hm⟩
    · show Placed _ (placeOf (connOf _) s.waiting s.conns)
      rw [hcalls, placeOf_dispatching s.dispatching]
      refine h.placed.enter ?_ fun hmine => hfree (.inl hmine)
      show s.dispatching.filterMap msgSfd = []
      rw [hempty]
      rfl
  · rw [hstate] at hnew
    cases hnew

theorem disjoint_close (h : Tidy maxFds listener s) (fd : ℤ) :
    Disjoint (s.mine \ {fd}) (s.others \ {fd}) :=
  h.apart.mono Set.sdiff_subset Set.sdiff_subset

/-- The main thread gives its connection up. -/
theorem giveUp (h : Tidy maxFds listener s) {i : ℕ} {sfd : ℤ} {initState : ConnStates}
    {eventFlags : ℤ}
    (hpc : s.threads.dispatcher i = .grow (.dispatchConnNew sfd initState eventFlags)) :
    Tidy maxFds listener (Connections.close { s with threads := { s.threads with
      dispatcher := Function.update s.threads.dispatcher i .idle } } sfd) := by
  have hcall : s.threads.calls i = some (.dispatchConnNew sfd initState eventFlags) := by
    rw [State.calls, hpc]
    rfl
  obtain rfl := h.main_calls hcall rfl
  have hnone : connOf ((Function.update s.threads.dispatcher 0 .idle 0).call) = [] := by
    rw [Function.update_self]
    rfl
  refine ⟨h.threads.next (.mallocFail 0 _ hpc), fun fd hfd => h.range fd hfd.1,
    h.disjoint_close sfd, h.conn, ?_, h.waiting, ?_⟩
  · show ∀ m ∈ connOf ((Function.update s.threads.dispatcher 0 .idle 0).call), Handed m
    rw [hnone]
    exact List.forall_mem_nil Handed
  · show Placed (s.mine \ {sfd})
      (placeOf (connOf ((Function.update s.threads.dispatcher 0 .idle 0).call)) s.waiting s.conns)
    rw [hnone, placeOf_dispatching s.dispatching]
    refine h.placed.leave ?_
    show (s.dispatching.filterMap msgSfd).Perm _
    rw [Connections.dispatching, hcall]
    exact List.Perm.refl _

/-- A worker takes the first connection that waits for it, whatever becomes of the table. -/
theorem take (h : Tidy maxFds listener s) {idx : ℕ} {m : Msg} {rest : List Msg}
    (hfirst : s.waiting idx = m :: rest) :
    ∀ j, ∀ m' ∈ Function.update s.waiting idx rest j, Handed m' := by
  refine (Function.forall_update_iff s.waiting fun _ l => ∀ m ∈ l, Handed m).mpr
    ⟨fun m' hm' => h.waiting idx m' ?_, fun j _ => h.waiting j⟩
  rw [hfirst]
  exact List.mem_cons_of_mem m hm'

/-- A table with a new entry for a connection worker. -/
theorem conn_update (h : Tidy maxFds listener s) {sfd : ℤ} {idx : ℕ} (hidx : idx < rtPoolNum)
    (added : Bool) (i : ℤ) (c : Conn)
    (hc : Function.update s.conns sfd
      (some ⟨sfd, .connNewCmd, sfd, .worker idx, added⟩) i = some c) : Own listener i c := by
  by_cases hi : i = sfd
  · subst hi
    rw [Function.update_self] at hc
    obtain rfl := Option.some.inj hc
    exact ⟨rfl, rfl, .inr ⟨idx, hidx, rfl, rfl⟩⟩
  · rw [Function.update_of_ne hi] at hc
    exact h.conn i c hc

theorem serve (h : Tidy maxFds listener s) {idx : ℕ} {sfd : ℤ} {initState : ConnStates} {t : State}
    {calloc eventAdd : Bool} {conns : Conns} (hserves : s.Serves idx sfd initState t)
    (hrun : connNew maxFds s.conns sfd initState (.worker idx) calloc eventAdd =
      some (conns, true)) :
    Tidy maxFds listener { s with threads := t, conns := conns } ∧
      conns = Function.update s.conns sfd (some ⟨sfd, .connNewCmd, sfd, .worker idx, true⟩) := by
  obtain ⟨rest, hfirst, rfl, hidx, hdispatching, hwaiting⟩ := h.first hserves
  obtain ⟨hfree, ⟨-, hfalse⟩ | rfl⟩ :=
    connNew_eq_some (fun c hc => (h.conn sfd c hc).sfd) hrun
  · cases hfalse
  refine ⟨⟨h.threads.next hserves.step, h.range, h.apart, h.conn_update hidx true, ?_, ?_, ?_⟩, rfl⟩
  · show ∀ m ∈ connOf (t.calls 0), Handed m
    rw [hdispatching]
    exact h.dispatching
  · show ∀ j, ∀ m ∈ (fun j => t.waiting ⟨.conn, j⟩) j, Handed m
    rw [hwaiting]
    exact h.take hfirst
  · show Placed s.mine (placeOf (connOf (t.calls 0)) (fun j => t.waiting ⟨.conn, j⟩)
      (Function.update s.conns sfd _))
    rw [hdispatching, hwaiting, placeOf_conns, placeOf_waiting]
    refine h.placed.pass (o := .waiting idx) (a := sfd) (fun heq => by cases heq) ?_ ?_
    · show ((s.waiting idx).filterMap msgSfd).Perm _
      rw [hfirst]
      exact List.Perm.refl _
    · show [sfd].Perm (sfd :: registered (s.conns sfd))
      rw [hfree]

theorem serveFailed (h : Tidy maxFds listener s) {idx : ℕ} {sfd : ℤ} {initState : ConnStates}
    {t : State} {calloc eventAdd : Bool} {conns : Conns} (hserves : s.Serves idx sfd initState t)
    (hrun : connNew maxFds s.conns sfd initState (.worker idx) calloc eventAdd =
      some (conns, false)) :
    Tidy maxFds listener (Connections.close { s with threads := t, conns := conns } sfd) ∧
      ∀ i, i ≠ sfd → conns i = s.conns i := by
  obtain ⟨rest, hfirst, rfl, hidx, hdispatching, hwaiting⟩ := h.first hserves
  obtain ⟨hfree, hconns⟩ := connNew_eq_some (fun c hc => (h.conn sfd c hc).sfd) hrun
  -- the descriptor is registered neither before nor after
  have hplace : ∀ dispatching waiting, placeOf dispatching waiting conns =
      placeOf dispatching waiting s.conns := by
    intro dispatching waiting
    rcases hconns with ⟨rfl, -⟩ | rfl
    · rfl
    · have hnone : registered (some ⟨sfd, .connNewCmd, sfd, .worker idx, false⟩) =
          registered (s.conns sfd) := hfree.symm
      rw [placeOf_conns, hnone]
      exact Function.update_eq_self (Station.registered sfd) (placeOf dispatching waiting s.conns)
  refine ⟨⟨h.threads.next hserves.step, fun fd hfd => h.range fd hfd.1, h.disjoint_close sfd, ?_, ?_,
    ?_, ?_⟩, fun i hi => ?_⟩
  · rcases hconns with ⟨rfl, -⟩ | rfl
    · exact h.conn
    · exact h.conn_update hidx false
  · show ∀ m ∈ connOf (t.calls 0), Handed m
    rw [hdispatching]
    exact h.dispatching
  · show ∀ j, ∀ m ∈ (fun j => t.waiting ⟨.conn, j⟩) j, Handed m
    rw [hwaiting]
    exact h.take hfirst
  · show Placed (s.mine \ {sfd})
      (placeOf (connOf (t.calls 0)) (fun j => t.waiting ⟨.conn, j⟩) conns)
    rw [hplace, hdispatching, hwaiting, placeOf_waiting]
    refine h.placed.leave ?_
    show ((s.waiting idx).filterMap msgSfd).Perm _
    rw [hfirst]
    exact List.Perm.refl _
  · rcases hconns with ⟨rfl, -⟩ | rfl
    · rfl
    · exact Function.update_of_ne hi _ _

/-! ## Every step -/

theorem step (h : Tidy maxFds listener s) {a : Move} (hstep : ServerStep maxFds s a s') :
    Tidy maxFds listener s' := by
  cases hstep with
  | mismatch i c hfires hfd =>
    have hown := h.conn i c hfires.conn
    exact absurd (hown.eventFd.trans hown.sfd.symm) hfd
  | accept i c o hfires hfd hstate husable hfree hlimit =>
    exact h.accept hfires hstate husable hfree hlimit
  | read i c buff hfires hfd hstate => exact h.read hfires hstate buff
  | ignore => exact h
  | thread l t hstep hinternal => exact h.thread hstep hinternal
  | giveUp i sfd initState eventFlags hpc => exact h.giveUp hpc
  | serve idx sfd initState t calloc eventAdd conns hserves hrun => exact (h.serve hserves hrun).1
  | serveFailed idx sfd initState t calloc eventAdd conns hserves hrun =>
    exact (h.serveFailed hserves hrun).1
  | outside others hapart =>
    exact ⟨h.threads, h.range, hapart, h.conn, h.dispatching, h.waiting, h.placed⟩
  | undef idx s' hundefined => exact absurd hundefined h.defined

end Tidy

theorem reachable_tidy (h : (server maxFds listener).Reachable s) : Tidy maxFds listener s :=
  h.invariant (fun _ hs => tidy_start hs) fun _ _ _ _ hi hstep => hi.step hstep

/-- In every reachable state, for every interleaving: a descriptor the server has open is in exactly
one place; `conns` leads from a descriptor to its own connection, so that no event reports another
descriptor than that of its connection; a connection whose event is added is open; and `conn_new` is
never called for a descriptor outside the table or an event that is still added. -/
theorem connections_in_one_place (maxFds listener : ℤ) (s : Connections)
    (h : (server maxFds listener).Reachable s) :
    (∀ fd ∈ s.mine, ∃! o, fd ∈ s.place o) ∧
      (∀ o, (s.place o).Nodup ∧ ∀ fd ∈ s.place o, fd ∈ s.mine) ∧
      (∀ i c, s.conns i = some c →
        c.sfd = i ∧ c.eventFd = i ∧ (c.added = true → i ∈ s.place (.registered i))) ∧
      ¬ Undefined maxFds s := by
  have htidy := reachable_tidy h
  refine ⟨fun fd hfd => htidy.placed.existsUnique hfd,
    fun o => ⟨htidy.placed.nodup o, fun fd hfd => htidy.placed.mem_held hfd⟩, fun i c hc => ?_,
    htidy.defined⟩
  have hown := htidy.conn i c hc
  exact ⟨hown.sfd, hown.eventFd, fun hadded => htidy.mem_registered hc hadded⟩

/-- The server before the first event, with the listening socket on descriptor 3. -/
def started : Connections where
  threads := initial
  conns := Function.update (fun _ => none) 3 (some ⟨3, .connListening, 3, .main, true⟩)
  mine := {3}
  others := ∅

theorem reachable_started : (server 1024 3).Reachable started :=
  .start ⟨rfl, rfl, rfl, Set.disjoint_empty _⟩

/-- The main thread has accepted descriptor 7. -/
def acceptedSeven : Connections :=
  { started.begin .main (.dispatchConnNew 7 .connNewCmd (evRead + evPersist)) with mine := {7, 3} }

theorem reachable_acceptedSeven : (server 1024 3).Reachable acceptedSeven := by
  refine reachable_started.next (ServerStep.accept 3 ⟨3, .connListening, 3, .main, true⟩
    ⟨some 7, true, true⟩ ⟨rfl, rfl, rfl, nofun⟩ rfl rfl rfl ?_ (by decide))
  show (7 : ℤ) ∉ ({3} : Set ℤ) ∪ ∅
  simp

/-- The new descriptor is with the main thread, and nowhere else. -/
theorem connections_in_one_place_accepted :
    (server 1024 3).Reachable acceptedSeven ∧ 7 ∈ acceptedSeven.place .dispatching ∧
      (∃! o, 7 ∈ acceptedSeven.place o) ∧ ¬ Undefined 1024 acceptedSeven := by
  obtain ⟨hplace, -, -, hdefined⟩ := connections_in_one_place 1024 3 _ reachable_acceptedSeven
  exact ⟨reachable_acceptedSeven, List.mem_singleton_self 7, hplace 7 (.inl rfl), hdefined⟩

/-! ## Connections that are served -/

/-- A step leaves a connection that is served as it is, and open. -/
theorem Tidy.stays (h : Tidy maxFds listener s) {a : Move} (hstep : ServerStep maxFds s a s') {i : ℤ}
    {c : Conn} (hc : s.conns i = some c) (hadded : c.added = true) : s'.conns i = some c := by
  -- a descriptor that a worker takes is another one
  have hother : ∀ {idx sfd initState t}, s.Serves idx sfd initState t → i ≠ sfd := by
    rintro idx sfd initState t hserves rfl
    obtain ⟨rest, hfirst, -⟩ := h.first hserves
    have hfree := (h.not_registered hfirst rfl).2 c hc
    rw [hadded] at hfree
    cases hfree
  cases hstep with
  | mismatch j d hfires hfd =>
    have hown := h.conn j d hfires.conn
    exact absurd (hown.eventFd.trans hown.sfd.symm) hfd
  | accept | read | ignore | thread | giveUp | outside => exact hc
  | serve idx sfd initState t calloc eventAdd conns hserves hrun =>
    rw [(h.serve hserves hrun).2]
    exact (Function.update_of_ne (hother hserves) _ _).trans hc
  | serveFailed idx sfd initState t calloc eventAdd conns hserves hrun =>
    exact ((h.serveFailed hserves hrun).2 i (hother hserves)).trans hc
  | undef idx s' hundefined => exact absurd hundefined h.defined

/-- A connection that a worker serves is served by this worker for ever: no run closes its
descriptor, takes its event away or gives it to another worker. -/
theorem served_for_ever (maxFds listener : ℤ) (s s' : Connections)
    (h : (server maxFds listener).Reachable s)
    (hrun : Relation.ReflTransGen (server maxFds listener).Next s s') (i : ℤ) (c : Conn)
    (hc : s.conns i = some c) (hadded : c.added = true) :
    s'.conns i = some c ∧ i ∈ s'.mine := by
  have hall : (server maxFds listener).Reachable s' ∧ s'.conns i = some c := by
    induction hrun with
    | refl => exact ⟨h, hc⟩
    | tail _ hlast ih =>
      obtain ⟨a, ha⟩ := hlast
      exact ⟨ih.1.next ha, (reachable_tidy ih.1).stays ha ih.2 hadded⟩
  have htidy := reachable_tidy hall.1
  exact ⟨hall.2, htidy.placed.mem_held (htidy.mem_registered hall.2 hadded)⟩

/-- A step of the main thread that does not end its call. -/
theorem reachable_main {t : State} (h : (server maxFds listener).Reachable s)
    (hstep : Step {0} s.threads (.dispatcher 0) t) (hpc : s.threads.dispatcher 0 ≠ .idle)
    (hpc' : t.dispatcher 0 ≠ .idle ∨ s.threads.calls 0 = none) :
    (server maxFds listener).Reachable { s with threads := t } := by
  refine h.next (ServerStep.thread _ t hstep ⟨hpc, fun c hcall _ => hpc'.resolve_right ?_⟩)
  rw [hcall]
  nofun

/-- Worker 0 serves descriptor 7. -/
theorem exists_served : ∃ s, (server 1024 3).Reachable s ∧
    s.conns 7 = some ⟨7, .connNewCmd, 7, .worker 0, true⟩ := by
  have hgrow := reachable_main reachable_acceptedSeven (.takeFree 0 _ none none rfl rfl) nofun
    (.inl nofun)
  have hblock := reachable_main hgrow
    (.malloc 0 _ 1000 (fun _ => CqItem.zero) rfl (fun _ _ => rfl)) nofun (.inl nofun)
  -- the block is not evaluated: all the run needs is that its items are allocated
  have hlive : ∀ a ∈ block 1000, cqiNewBlock (fun _ => none) 1000 (fun _ => CqItem.zero) a ≠
      none := fun a ha => cqiNewBlock_ne_none ha
  generalize hheap : cqiNewBlock (fun _ => none) 1000 (fun _ => CqItem.zero) = heap at hlive
  simp only [acceptedSeven, started, Connections.begin, initial, hheap] at hblock
  have hgot := reachable_main hblock (.splice 0 _ 1000 _ _ rfl
    (cqiNewSplice_of_live (hlive 1127 (mem_block.mpr (by decide))))) nofun (.inl nofun)
  obtain ⟨old, hold⟩ := Option.ne_none_iff_exists'.mp (hlive 1000 (mem_block.mpr (by decide)))
  have hloaded := reachable_main hgot (.load 0 _ 1000 old rfl
    ((writeNext_of_ne (show 1000 ≠ 1127 by decide) none).trans hold)) nofun (.inl nofun)
  have hfilled := reachable_main hloaded (.store 0 _ 1000 _ _ rfl rfl) nofun (.inl nofun)
  have hpushed := reachable_main hfilled (.push 0
    (.dispatchConnNew 7 .connNewCmd (evRead + evPersist)) 1000 0 _ _ rfl (by decide) rfl) nofun
    (.inl nofun)
  have hsent := reachable_main hpushed (.notify 0 ⟨.conn, 0⟩ rfl) nofun (.inr rfl)
  have hread := hsent.next (ServerStep.thread _ _
    (.read ⟨.conn, 0⟩ 99 [] (by decide) rfl rfl) fun _ => ⟨rfl, rfl⟩)
  have hpopped := hread.next (ServerStep.thread _ _
    (.pop ⟨.conn, 0⟩ 99 _ _ rfl rfl rfl) fun _ => ⟨rfl, rfl⟩)
  have hserved := hpopped.next (ServerStep.serve 0 7 .connNewCmd _ true true _
    ⟨.process ⟨.conn, 0⟩ 99 1000 _ _ rfl rfl rfl, rfl, evRead + evPersist, rfl⟩ rfl)
  exact ⟨_, hserved, rfl⟩

/-- Worker 0 goes on serving descriptor 7. -/
theorem served_for_ever_seven :
    ∃ s, (server 1024 3).Reachable s ∧
      s.conns 7 = some ⟨7, .connNewCmd, 7, .worker 0, true⟩ ∧
      ∀ s', Relation.ReflTransGen (server 1024 3).Next s s' →
        s'.conns 7 = some ⟨7, .connNewCmd, 7, .worker 0, true⟩ ∧ 7 ∈ s'.mine := by
  obtain ⟨s, hs, hconn⟩ := exists_served
  exact ⟨s, hs, hconn, fun s' hrun => served_for_ever 1024 3 s s' hs hrun 7 _ hconn rfl⟩

end Tdm.Server
