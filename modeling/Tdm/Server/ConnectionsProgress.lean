import Tdm.Server.ConnectionsTheorems

/-!
# Every accepted connection gets served

While no further event arrives, the threads cannot run for ever, and when they have nothing left to
do every descriptor that is open is registered with an event loop: a connection is either served or
closed, and never forgotten in a queue.
-/

namespace Tdm.Server

open Tdm.Lib Tdm.Thread Tdm.Device

variable {maxFds listener : ℤ} {s s' : Connections}

/-- No event arrives and the rest of the process is left out. -/
def settling (maxFds listener : ℤ) : System Connections Move :=
  (server maxFds listener).restrict fun _ a => ∃ l, a = .thread l

/-! ## The steps of the threads -/

/-- A step of the threads is one of `thread.c`, of a call that has begun. -/
theorem Tidy.thread_step (h : Tidy maxFds listener s) {l : Label}
    (hstep : ServerStep maxFds s (.thread l) s') :
    Step {0} s.threads l s'.threads ∧ ∀ i, l = .dispatcher i → s.threads.dispatcher i ≠ .idle := by
  cases hstep with
  | thread _ t hstep hinternal =>
    refine ⟨hstep, ?_⟩
    rintro i rfl
    exact hinternal.1
  | giveUp i sfd initState eventFlags hpc =>
    refine ⟨.mallocFail i _ hpc, ?_⟩
    rintro _ ⟨rfl⟩
    rw [hpc]
    nofun
  | serve idx sfd initState t calloc eventAdd conns hserves => exact ⟨hserves.step, nofun⟩
  | serveFailed idx sfd initState t calloc eventAdd conns hserves => exact ⟨hserves.step, nofun⟩
  | undef idx _ hundefined => exact absurd hundefined h.defined

/-- A call that ends before its push was given up. -/
theorem grow_of_idle {t : State} {place : Owner → List ℕ} (hinv : Inv s.threads place) {i : ℕ}
    (hstep : Step {0} s.threads (.dispatcher i) t) {c : Call} (hcall : s.threads.calls i = some c)
    (hidle : t.dispatcher i = .idle) : s.threads.dispatcher i = .grow c := by
  cases hstep.traffic hinv with
  | call _ _ hpc =>
    rw [State.calls, hpc] at hcall
    cases hcall
  | giveUp _ d hgrow =>
    rw [State.calls, hgrow] at hcall
    rw [hgrow, Option.some.inj hcall]
  | push _ _ w _ _ hpc =>
    rw [hpc] at hidle
    cases hidle
  | unseen _ hcalls =>
    rw [← hcalls, State.calls, hidle] at hcall
    cases hcall

theorem Tidy.exists_dispatcher_step (h : Tidy maxFds listener s) {i : ℕ}
    (hpc : s.threads.dispatcher i ≠ .idle) :
    ∃ s', ServerStep maxFds s (.thread (.dispatcher i)) s' := by
  by_cases hgrow : ∃ sfd initState eventFlags,
      s.threads.dispatcher i = .grow (.dispatchConnNew sfd initState eventFlags)
  · obtain ⟨sfd, initState, eventFlags, hgrow⟩ := hgrow
    exact ⟨_, .giveUp i sfd initState eventFlags hgrow⟩
  · obtain ⟨t, ht⟩ := Thread.exists_dispatcher_step {0} hpc
    refine ⟨_, .thread _ t ht ⟨hpc, fun c hcall hkind hidle => hgrow ?_⟩⟩
    obtain ⟨place, hinv⟩ := reachable_inv h.threads
    rw [grow_of_idle hinv ht hcall hidle]
    cases c with
    | dispatchConnNew sfd initState eventFlags => exact ⟨sfd, initState, eventFlags, rfl⟩
    | connNewFuncWorker => cases hkind

/-- Whatever `conn_new` returns. -/
theorem exists_serve {idx : ℕ} {sfd : ℤ} {initState : ConnStates} {t : State}
    (hserves : s.Serves idx sfd initState t) :
    ∃ s', ServerStep maxFds s (.thread (.handler ⟨.conn, idx⟩)) s' := by
  cases hrun : connNew maxFds s.conns sfd initState (.worker idx) true true with
  | none => exact ⟨s, .undef idx s ⟨idx, sfd, initState, t, true, true, hserves, hrun⟩⟩
  | some r =>
    obtain ⟨conns, ok⟩ := r
    cases ok with
    | true => exact ⟨_, .serve idx sfd initState t true true conns hserves hrun⟩
    | false => exact ⟨_, .serveFailed idx sfd initState t true true conns hserves hrun⟩

/-- With all calls ended, a step of a handler is one of the server. -/
theorem Tidy.exists_handler_step (h : Tidy maxFds listener s)
    (hcalls : ∀ i, s.threads.dispatcher i = .idle) {w : Worker} {t : State}
    (hstep : Step {0} s.threads (.handler w) t) :
    ∃ s', ServerStep maxFds s (.thread (.handler w)) s' := by
  obtain ⟨place, hinv⟩ := reachable_inv h.threads
  obtain ⟨k, idx⟩ := w
  cases k with
  | work => exact ⟨_, .thread _ t hstep nofun⟩
  | conn =>
    cases hstep.traffic hinv with
    | process _ m rest hpc hfirst hcalls' hwaiting hprocessed =>
      obtain ⟨sfd, rfl⟩ := h.waiting idx m (by rw [Connections.waiting, hfirst]; exact List.mem_cons_self)
      exact exists_serve ⟨hstep, hcalls _, _, hprocessed⟩
    | unseen _ _ _ hprocessed =>
      exact ⟨_, .thread _ t hstep fun _ => ⟨hcalls _, hprocessed _ rfl⟩⟩

/-! ## The end of a run -/

/-- Nothing waits for a worker that does not exist. -/
theorem pushed_of_notMem {t : State} (h : (machine {0}).Reachable t) {idx : ℕ}
    (hidx : ⟨.conn, idx⟩ ∉ workers) : t.pushed ⟨.conn, idx⟩ = [] := by
  unfold State.pushed
  rw [List.map_eq_nil_iff, List.filter_eq_nil_iff]
  intro p hp
  obtain ⟨k, hk⟩ := List.mem_iff_getElem?.mp hp
  have horder := (reachable_rotation h).order k p hk
  have hlt : k % rtPoolNum < rtPoolNum := Nat.mod_lt k (by decide)
  rw [mem_workers] at hidx
  simp only [decide_eq_true_eq, horder]
  rintro rfl
  exact hidx hlt

/-- When the threads are at rest, what is open is registered. -/
theorem Tidy.registered_of_rest (h : Tidy maxFds listener s) (hrest : AtRest s.threads) {fd : ℤ}
    (hfd : fd ∈ s.mine) : ∃ c, s.conns fd = some c ∧ c.added = true := by
  obtain ⟨o, ho, -⟩ := h.placed.existsUnique hfd
  cases o with
  | dispatching =>
    have hempty : s.dispatching = [] := by
      rw [Connections.dispatching, State.calls, hrest.calls 0]
      rfl
    rw [show s.place .dispatching = s.dispatching.filterMap msgSfd from rfl, hempty] at ho
    cases ho
  | waiting idx =>
    have hempty : s.waiting idx = [] := by
      by_cases hidx : ⟨.conn, idx⟩ ∈ workers
      · rw [Connections.waiting, State.waiting, hrest.processed _ hidx, List.drop_length]
      · rw [Connections.waiting, State.waiting, pushed_of_notMem h.threads hidx, List.drop_nil]
    rw [show s.place (.waiting idx) = (s.waiting idx).filterMap msgSfd from rfl, hempty] at ho
    cases ho
  | registered i =>
    have hmem : fd ∈ registered (s.conns i) := ho
    cases hc : s.conns i with
    | none =>
      rw [hc] at hmem
      cases hmem
    | some c =>
      rw [hc] at hmem
      cases hadded : c.added with
      | false =>
        simp only [registered, hadded, Bool.false_eq_true, if_false] at hmem
        cases hmem
      | true =>
        simp only [registered, hadded, if_true, List.mem_singleton] at hmem
        rw [(h.conn i c hc).sfd] at hmem
        subst hmem
        exact ⟨c, hc, hadded⟩

theorem Tidy.rest_of_stuck (h : Tidy maxFds listener s)
    (hend : ∀ t, ¬ (settling maxFds listener).Next s t) : AtRest s.threads := by
  have hnone : ∀ l s', ¬ ServerStep maxFds s (.thread l) s' :=
    fun l s' hstep => hend s' ⟨.thread l, hstep, l, rfl⟩
  have hcalls : ∀ i, s.threads.dispatcher i = .idle := by
    intro i
    by_contra hpc
    obtain ⟨s', hstep⟩ := h.exists_dispatcher_step hpc
    exact hnone _ s' hstep
  have hhandlers : ∀ w t, ¬ Step {0} s.threads (.handler w) t := by
    intro w t hstep
    obtain ⟨s', hstep'⟩ := h.exists_handler_step hcalls hstep
    exact hnone _ s' hstep'
  have hidle : ∀ w, s.threads.handler w = .idle := by
    intro w
    by_contra hpc
    obtain ⟨t, ht⟩ := Thread.exists_handler_step {0} hpc
    exact hhandlers w t ht
  refine atRest_of_quiet h.threads hcalls hidle fun w hw => ?_
  cases hpipe : s.threads.pipe w with
  | nil => rfl
  | cons b rest => exact absurd (.read w b rest (mem_workers.mp hw) (hidle w) hpipe) (hhandlers w _)

theorem settling_settles (h : (server maxFds listener).Reachable s) :
    Settles (settling maxFds listener).Next
      (fun t => ∀ fd ∈ t.mine, ∃ c, t.conns fd = some c ∧ c.added = true) s := by
  have hhoused := reachable_housed (reachable_tidy h).threads
  refine Settles.of_rank wellFounded_lt (fun t => toDo hhoused.calls.toFinset t.threads)
    (I := fun t => Tidy maxFds listener t ∧
      ∀ i, t.threads.dispatcher i ≠ .idle → i ∈ hhoused.calls.toFinset) ?_ ?_ ?_
    ⟨reachable_tidy h, fun i hi => hhoused.calls.mem_toFinset.mpr hi⟩
  · rintro t t' ⟨ht, hbusy⟩ ⟨_, hstep, l, rfl⟩
    obtain ⟨place, hinv⟩ := reachable_inv ht.threads
    obtain ⟨hthread, hbegun⟩ := ht.thread_step hstep
    refine ⟨ht.step hstep, fun i hi => hbusy i fun hidle => hi ?_⟩
    exact (hthread.advance hinv).stays_idle (fun hl => hbegun i hl hidle) hidle
  · rintro t t' ⟨ht, hbusy⟩ ⟨_, hstep, l, rfl⟩
    obtain ⟨place, hinv⟩ := reachable_inv ht.threads
    obtain ⟨hthread, hbegun⟩ := ht.thread_step hstep
    exact toDo_lt (reachable_housed ht.threads) hbusy (hthread.advance hinv) hbegun
  · rintro t ⟨ht, -⟩ hend fd hfd
    exact ht.registered_of_rest (ht.rest_of_stuck hend) hfd

end Tdm.Server
