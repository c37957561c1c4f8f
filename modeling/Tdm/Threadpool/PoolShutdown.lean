import Tdm.Threadpool.PoolFifo

/-!
# Wake-ups and shutdown of the thread pool

Two consequences of the invariant. Nobody sleeps on a condition that already holds, so a
queued job, a blocked caller and a waiting destroyer always find a worker that is awake
(`no_lost_wakeup`). And when `threadpool_destroy` has joined the workers, everything that
was ever accepted has been handed to the callback once (`graceful_shutdown`).
-/

namespace Tdm.Threadpool

open Tdm.Lib

variable {n : ℕ} {s s' : State n}

/-! ## Wake-ups -/

/-- After both broadcasts nobody sleeps: the workers were woken and find the pool closed,
the callers would need a full queue, and the only destroyer that could sleep is the one
that issued the broadcasts. -/
theorem Control.nobody_asleep (h : Control s) (hmax : 1 ≤ s.pool.queueMaxNum) {d : ℕ}
    (hd : (s.destroyer d).issued = true) :
    (∀ w, s.worker w ≠ .asleep) ∧ (∀ i arg, s.producer i ≠ .asleep arg) ∧
      ∀ d', s.destroyer d' ≠ .asleep := by
  have hsent := DestroyerPc.issuedNotEmpty_of_issued hd
  have hclosing := DestroyerPc.closing_of_issuedNotEmpty hsent
  have hzero := (h.closedEmpty (h.closing d hclosing)).1
  refine ⟨h.awake d hsent, fun i arg hi => ?_, fun d' hd' => ?_⟩
  · have hfull := h.producerAsleep i arg hi
    omega
  · exact h.destroyerAsleep d' hd' hzero

/-- No lost wake-up: who sleeps un-notified sleeps for a reason that still holds, nobody
sleeps once the broadcasts of the shutdown are out, and there is no state in which all
workers sleep while a job is queued or somebody waits for them. -/
theorem no_lost_wakeup (n : ℕ) (queueMaxNum : ℤ) (hn : 1 ≤ n) (hmax : 1 ≤ queueMaxNum)
    (s : State n) (h : (machine n queueMaxNum).Reachable s) :
    (0 < s.pool.queueCurNum → ∀ w, s.worker w ≠ .asleep) ∧
      (∀ i arg, s.producer i = .asleep arg → s.pool.queueCurNum = queueMaxNum) ∧
      (∀ d, s.destroyer d = .asleep → 0 < s.pool.queueCurNum) ∧
      ((∃ d, (s.destroyer d).issued = true) →
        (∀ w, s.worker w ≠ .asleep) ∧ (∀ i arg, s.producer i ≠ .asleep arg) ∧
          ∀ d, s.destroyer d ≠ .asleep) ∧
      ¬ ((∀ w, s.worker w = .asleep) ∧
        (0 < s.pool.queueCurNum ∨ (∃ i arg, s.producer i = .asleep arg) ∨
          ∃ d, s.destroyer d = .asleep)) := by
  obtain ⟨hC, as, hJ⟩ := reachable_inv h
  have hcap := reachable_max h
  have hworker : 0 < s.pool.queueCurNum → ∀ w, s.worker w ≠ .asleep := by
    intro hpos w hw
    have := hC.workerAsleep w hw
    omega
  have hproducer : ∀ i arg, s.producer i = .asleep arg →
      s.pool.queueCurNum = queueMaxNum := fun i arg hi =>
    hcap ▸ hC.producerAsleep i arg hi
  have hdestroyer : ∀ d, s.destroyer d = .asleep → 0 < s.pool.queueCurNum := by
    intro d hd
    have hne := hC.destroyerAsleep d hd
    have hcount := hJ.count
    omega
  refine ⟨hworker, hproducer, hdestroyer, ?_, ?_⟩
  · rintro ⟨d, hd⟩
    exact hC.nobody_asleep (by omega) hd
  · -- each of the three reasons to wait means that the queue is not empty
    rintro ⟨hall, hwait⟩
    have hpos : 0 < s.pool.queueCurNum := by
      rcases hwait with hpos | ⟨i, arg, hi⟩ | ⟨d, hd⟩
      · exact hpos
      · have := hproducer i arg hi
        omega
      · exact hdestroyer d hd
    exact hworker hpos ⟨0, hn⟩ (hall _)

/-- A caller blocked on a full queue, and a worker that is not asleep. -/
theorem no_lost_wakeup_blocked :
    ∃ s : State 1, (machine 1 1).Reachable s ∧
      s.producer 1 = .asleep ⟨[66], by decide⟩ ∧ ¬ ∀ w, s.worker w = .asleep := by
  have hcalled := (System.Reachable.start (M := machine 1 1) rfl).next
    (Step.call 0 ⟨[65], by decide⟩ rfl (Or.inl rfl))
  have hfull := hcalled.next (Step.addJobRet 0 ⟨[65], by decide⟩ (some 7) _ _ 0 true rfl
    (Or.inl rfl) (fun _ _ => rfl) rfl)
  have hagain := hfull.next (Step.call 1 ⟨[66], by decide⟩ rfl (Or.inl rfl))
  have hs := hagain.next (Step.addJobWait 1 ⟨[66], by decide⟩ none _ _ rfl (Or.inl rfl) rfl)
  refine ⟨_, hs, rfl, fun hall => ?_⟩
  obtain ⟨-, -, -, -, hnot⟩ := no_lost_wakeup 1 1 (by decide) (by decide) _ hs
  exact hnot ⟨hall, Or.inr (Or.inl ⟨1, _, rfl⟩)⟩

/-! ## Shutdown -/

/-- With the list empty and no worker on its way to the callback, the callback has been
called once for each buffer accepted. -/
theorem Jobs.all_handed {as : List Addr} (h : Jobs s as) (hempty : s.pool.queueCurNum = 0)
    (hexit : ∀ w, s.worker w = .exited) :
    (s.handed.map Prod.fst).Perm (List.range s.accepted.length) ∧
      ∀ p ∈ s.handed, s.accepted[p.1]? = some p.2 := by
  obtain rfl := h.count_eq_zero.mp hempty
  have hdeq : s.dequeued = s.accepted :=
    h.dequeued_prefix.eq_of_length (by simpa using h.length_accepted.symm)
  have hbuff := h.handedBuff
  have hhanded := h.handed
  rw [hdeq] at hbuff hhanded
  refine ⟨(List.perm_ext_iff_of_nodup h.handedNodup List.nodup_range).mpr fun k => ?_, hbuff⟩
  rw [List.mem_range]
  constructor
  · intro hk
    obtain ⟨p, hp, rfl⟩ := List.mem_map.mp hk
    exact (List.getElem?_eq_some_iff.mp (hbuff p hp)).1
  · intro hk
    refine (hhanded k hk).mpr fun w a hw => ?_
    rw [hexit w] at hw
    cases hw

/-- Behind a destroyer that is past the closed check, every other call returns -1. -/
theorem Control.rival_returns (h : Control s) {d d' : ℕ} (hpassed : (s.destroyer d').passed = true)
    (hd : s.destroyer d = .entry) (hstep : Step s (.destroyer d) s') :
    s'.destroyer d = .returned (-1) := by
  have hclosed := h.passedClosed d' hpassed
  cases hstep with
  | destroyRet _ pool r hlive hpc hrun =>
    obtain ⟨-, rfl, -⟩ := threadpoolDestroy_ret hrun
    exact Function.update_self ..
  | destroyCall _ hlive hpc => rw [hd] at hpc; rcases hpc with hpc | hpc <;> cases hpc
  | destroyWait _ pool hlive hrun =>
    rcases hrun with ⟨-, hrun⟩ | ⟨hpc, -⟩
    · obtain ⟨-, -, hq, -⟩ := threadpoolDestroy_wait hrun
      rw [hclosed] at hq
      cases hq
    · rw [hd] at hpc
      cases hpc
  | destroyClosed _ pool hlive hrun =>
    rcases hrun with ⟨-, hrun⟩ | ⟨hpc, -⟩
    · obtain ⟨-, -, hq, -⟩ := threadpoolDestroy_closed hrun
      rw [hclosed] at hq
      cases hq
    · rw [hd] at hpc
      cases hpc
  | destroyerSpurious _ hpc => rw [hd] at hpc; cases hpc
  | broadcastNotEmpty _ hpc => rw [hd] at hpc; cases hpc
  | broadcastNotFull _ hpc => rw [hd] at hpc; cases hpc
  | join _ i hpc hexit => rw [hd] at hpc; cases hpc
  | joined _ hpc => rw [hd] at hpc; cases hpc
  | freeJob _ p job hpc hhead hjob => rw [hd] at hpc; cases hpc
  | freeJobUndef _ p _ hpc hhead hjob => rw [hd] at hpc; cases hpc
  | freePool _ hpc hhead => rw [hd] at hpc; cases hpc

/-- A closed queue refuses whoever takes the mutex, also a caller that was blocked on the
full queue when it was closed. -/
theorem closed_refuses {i : ℕ} {arg : Arg} (hclosed : s.pool.queueClose = true)
    (hi : s.producer i = .entry arg ∨ s.producer i = .woken arg)
    (hstep : Step s (.producer i) s') :
    s'.producer i = .returned (-1) ∧ s'.pool = s.pool ∧ s'.heap = s.heap ∧
      s'.accepted = s.accepted := by
  cases hstep with
  | addJobRet _ _ malloc pool heap r b hlive hpc hmalloc hrun =>
    rw [threadpoolAddJob_closed hclosed] at hrun
    simp only [Option.some.injEq, Prod.mk.injEq, AddOutcome.ret.injEq] at hrun
    obtain ⟨rfl, rfl, rfl, rfl⟩ := hrun
    exact ⟨Function.update_self .., rfl, rfl, rfl⟩
  | call _ _ hlive hpc =>
    rcases hi with e | e <;> rw [e] at hpc <;> rcases hpc with hpc | ⟨r, hpc⟩ <;> cases hpc
  | addJobWait _ _ malloc pool heap hlive hpc hrun =>
    rw [threadpoolAddJob_closed hclosed] at hrun
    simp at hrun
  | addJobUndef _ _ malloc _ hlive hpc hmalloc hrun =>
    rw [threadpoolAddJob_closed hclosed] at hrun
    cases hrun
  | producerSpurious _ _ hpc => rcases hi with e | e <;> rw [e] at hpc <;> cases hpc

/-- Graceful shutdown: one destroyer gets past the closed check and all others return -1;
when it has joined the workers the list is empty and the callback has been called once for
each buffer ever accepted; and a closed queue refuses every caller and stays as it is. -/
theorem graceful_shutdown (n : ℕ) (queueMaxNum : ℤ) (s : State n)
    (h : (machine n queueMaxNum).Reachable s) :
    (∀ d d', (s.destroyer d).passed = true → (s.destroyer d').passed = true → d = d') ∧
      (∀ d d' s', (s.destroyer d').passed = true → s.destroyer d = .entry →
        Step s (.destroyer d) s' → s'.destroyer d = .returned (-1)) ∧
      (∀ d, s.destroyer d = .joining n ∨ (s.destroyer d).joined = true →
        s.pool.head = none ∧ (∀ w, s.worker w = .exited) ∧
        (s.handed.map Prod.fst).Perm (List.range s.accepted.length) ∧
        ∀ p ∈ s.handed, s.accepted[p.1]? = some p.2) ∧
      (s.pool.queueClose = true → ∀ i arg s',
        (s.producer i = .entry arg ∨ s.producer i = .woken arg) →
        Step s (.producer i) s' →
        s'.producer i = .returned (-1) ∧ s'.pool = s.pool ∧ s'.heap = s.heap ∧
          s'.accepted = s.accepted) := by
  obtain ⟨hC, as, hJ⟩ := reachable_inv h
  refine ⟨hC.passedUnique, fun d d' s' hp hd hstep => hC.rival_returns hp hd hstep,
    fun d hd => ?_, fun hclosed i arg s' hi hstep => closed_refuses hclosed hi hstep⟩
  have hexit : ∀ w, s.worker w = .exited := by
    rcases hd with hd | hd
    · exact fun w => hC.joining d n hd w w.isLt
    · exact hC.joined d hd
  have hclosing : (s.destroyer d).closing = true := by
    rcases hd with hd | hd
    · rw [hd]
      rfl
    · exact DestroyerPc.closing_of_issuedNotEmpty
        (DestroyerPc.issuedNotEmpty_of_issued (DestroyerPc.issued_of_joined hd))
  have hempty := (hC.closedEmpty (hC.closing d hclosing)).1
  exact ⟨hC.closing_head hJ hclosing, hexit, hJ.all_handed hempty hexit⟩

/-- One job accepted, run and shut down after: the destroyer has joined the only worker. -/
theorem graceful_shutdown_one_job :
    ∃ s : State 1, (machine 1 1).Reachable s ∧ s.destroyer 0 = .joining 1 ∧
      s.accepted.length = 1 ∧ (s.handed.map Prod.fst).Perm (List.range s.accepted.length) := by
  have hcalled := (System.Reachable.start (M := machine 1 1) rfl).next
    (Step.call 0 ⟨[65], by decide⟩ rfl (Or.inl rfl))
  have hqueued := hcalled.next (Step.addJobRet 0 ⟨[65], by decide⟩ (some 7) _ _ 0 true rfl
    (Or.inl rfl) (fun _ _ => rfl) rfl)
  have htook := hqueued.next (Step.workJob 0 _ 7 _ true true _ rfl (Or.inl rfl) rfl rfl
    (Or.inr ⟨fun _ => nofun, rfl⟩))
  have hdone := (htook.next (Step.callback 0 7 0 _ rfl rfl)).next (Step.finish 0 7 0 rfl)
  have hclosed := (hdone.next (Step.destroyCall 0 rfl (Or.inl rfl))).next
    (Step.destroyClosed 0 _ rfl (Or.inl ⟨rfl, rfl⟩))
  have hsent := (hclosed.next (Step.broadcastNotEmpty 0 rfl)).next
    (Step.broadcastNotFull 0 rfl)
  have hs := (hsent.next (Step.workExit 0 _ rfl (Or.inl rfl) rfl)).next
    (Step.join 0 0 rfl rfl)
  exact ⟨_, hs, rfl, rfl, ((graceful_shutdown 1 1 _ hs).2.2.1 0 (Or.inl rfl)).2.2.1⟩

end Tdm.Threadpool
