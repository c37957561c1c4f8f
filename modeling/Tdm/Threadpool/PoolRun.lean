import Tdm.Threadpool.PoolJobs

/-!
# The invariant holds in every run

`Inv.step` assembles the step lemmas of `PoolControl` and `PoolJobs`, one case for each
step of the machine; `reachable_inv` is the invariant of every reachable state.
-/

namespace Tdm.Threadpool

open Tdm.Lib

variable {n : ℕ} {s s' : State n}

/-- A step of a caller that moves only its program point. -/
theorem Inv.set_producer (h : Inv s) {i : ℕ} {pc : ProducerPc}
    (hpc : ∀ arg, pc = .asleep arg → s.pool.queueCurNum = s.pool.queueMaxNum) :
    Inv { s with producer := Function.update s.producer i pc } := by
  obtain ⟨hC, as, hJ⟩ := h
  have hf := (Function.forall_update_iff s.producer
    fun _ q => ∀ arg, q = .asleep arg → s.pool.queueCurNum = s.pool.queueMaxNum).mpr
      ⟨hpc, fun j (_ : j ≠ i) => hC.producerAsleep j⟩
  exact ⟨hC.set_producer hf, as, hJ.frame rfl rfl rfl rfl rfl rfl rfl rfl (fun _ => rfl)
    (fun _ _ _ => Iff.rfl)⟩

/-- A worker without a job moves to a program point without a job. -/
theorem Inv.set_worker (h : Inv s) {w : Fin n} {pc : WorkerPc}
    (hfrom : (s.worker w).job = none) (hto : pc.job = none)
    (hgone : s.worker w ≠ .exited)
    (hasleep : pc = .asleep → s.pool.queueCurNum = 0 ∧ s.pool.poolClose = false)
    (hexit : pc = .exited → s.pool.poolClose = true) :
    Inv { s with worker := Function.update s.worker w pc } := by
  obtain ⟨hC, as, hJ⟩ := h
  refine ⟨hC.set_worker ?_ ?_ ?_, as, hJ.frame rfl rfl rfl rfl rfl rfl rfl rfl ?_ ?_⟩
  · refine (Function.forall_update_iff s.worker fun w' q => q = .asleep →
      s.worker w' = .asleep ∨ s.pool.queueCurNum = 0 ∧ s.pool.poolClose = false).mpr
        ⟨fun hq => Or.inr (hasleep hq), fun w' _ hw' => Or.inl hw'⟩
  · exact (Function.forall_update_iff s.worker fun _ q => q = .exited →
      s.pool.poolClose = true).mpr ⟨hexit, fun w' _ => hC.exited w'⟩
  · refine (Function.forall_update_iff s.worker fun w' q => s.worker w' = .exited →
      q = .exited).mpr ⟨fun hq => absurd hq hgone, fun w' _ hw' => hw'⟩
  · refine (Function.forall_update_iff s.worker fun w' q => q.job = (s.worker w').job).mpr
      ⟨hto.trans hfrom.symm, fun _ _ => rfl⟩
  · intro w' a k
    by_cases e : w' = w
    · subst e
      simp only [Function.update_self]
      constructor
      · rintro rfl
        cases hto
      · intro hw'
        rw [hw'] at hfrom
        cases hfrom
    · simp only [Function.update_of_ne e]

/-- The frame of a step that moves one caller of `threadpool_destroy`. -/
theorem Inv.set_destroyer (h : Inv s) {f : ℕ → DestroyerPc}
    (hC : Control { s with destroyer := f }) : Inv { s with destroyer := f } := by
  obtain ⟨-, as, hJ⟩ := h
  exact ⟨hC, as, hJ.frame rfl rfl rfl rfl rfl rfl rfl rfl (fun _ => rfl)
    (fun _ _ _ => Iff.rfl)⟩

/-- Once `pool_close` is set the list is empty, so the final loop has nothing to free. -/
theorem Control.closing_head (hC : Control s) {as : List Addr} (hJ : Jobs s as) {d : ℕ}
    (hd : (s.destroyer d).closing = true) : s.pool.head = none := by
  have hzero := (hC.closedEmpty (hC.closing d hd)).1
  exact hJ.queue.head_eq_none_iff.mpr (hJ.count_eq_zero.mp hzero)

/-- Every step keeps the invariant; in particular no step meets undefined behaviour. -/
theorem Inv.step {l : Label n} (h : Inv s) (hstep : Step s l s') : Inv s' := by
  obtain ⟨hC, as, hJ⟩ := h
  cases hstep with
  | call i arg hlive hpc =>
    exact Inv.set_producer ⟨hC, as, hJ⟩ nofun
  | addJobWait i arg malloc pool heap hlive hpc hrun =>
    obtain ⟨rfl, rfl, hfull, -, -⟩ := threadpoolAddJob_wait hrun
    exact Inv.set_producer ⟨hC, as, hJ⟩ (fun _ _ => hfull)
  | addJobRet i arg malloc pool heap r b hlive hpc hmalloc hrun =>
    rcases threadpoolAddJob_ret hrun with ⟨rfl, rfl, rfl, rfl⟩ |
      ⟨rfl, hroom, hq, hp, pjob, rfl, hl⟩
    · exact Inv.set_producer ⟨hC, as, hJ⟩ nofun
    · have hb : b = false → s.pool.head ≠ none := by
        rintro rfl
        cases hl
        assumption
      exact ⟨hC.accept hJ hroom hq hp hl.sameFlags hb _, as ++ [pjob],
        hJ.accept (hmalloc pjob rfl) hroom hl⟩
  | addJobUndef i arg malloc _ hlive hpc hmalloc hrun => exact absurd hrun hJ.addJob_defined
  | producerSpurious i arg hpc =>
    exact Inv.set_producer ⟨hC, as, hJ⟩ nofun
  | workWait w pool hlive hpc hrun =>
    obtain ⟨rfl, hzero, hopen⟩ := threadpoolFunction_wait hrun
    refine Inv.set_worker ⟨hC, as, hJ⟩ ?_ rfl ?_ (fun _ => ⟨hzero, hopen⟩) nofun
    · rcases hpc with e | e <;> rw [e] <;> rfl
    · rcases hpc with e | e <;> rw [e] <;> simp
  | workExit w pool hlive hpc hrun =>
    obtain ⟨rfl, hclose⟩ := threadpoolFunction_exit hrun
    refine Inv.set_worker ⟨hC, as, hJ⟩ ?_ rfl ?_ nofun (fun _ => hclose)
    · rcases hpc with e | e <;> rw [e] <;> rfl
    · rcases hpc with e | e <;> rw [e] <;> simp
  | workJob w pool pjob job b₁ b₂ f hlive hpc hrun hjob hsignal =>
    obtain ⟨hcur, hopen, hhead, job', hjob', hpool, rfl, rfl⟩ := threadpoolFunction_job hrun
    obtain rfl : job' = job := Option.some.inj (hjob'.symm.trans hjob)
    have hnone : (s.worker w).job = none := by
      rcases hpc with e | e <;> rw [e] <;> rfl
    have hflags : SameFlags s.pool pool := by
      rw [hpool]
      split <;> exact ⟨rfl, rfl, rfl⟩
    have hcount : pool.queueCurNum = s.pool.queueCurNum - 1 := by
      rw [hpool]
      split <;> rfl
    simp only [decide_eq_true_eq] at hsignal ⊢
    obtain ⟨rest, -, hJ'⟩ := hJ.take hnone hhead hjob hpool
    exact ⟨hC.take hcur hopen hflags hcount hsignal, rest, hJ'⟩
  | workUndef w _ hlive hpc hrun => exact absurd hrun hJ.work_defined
  | workerSpurious w hpc =>
    exact Inv.set_worker ⟨hC, as, hJ⟩ (by rw [hpc]; rfl) rfl (by rw [hpc]; simp) nofun nofun
  | callback w pjob k job hpc hjob =>
    have hbusy : Control
        { s with worker := Function.update s.worker w (.callback pjob k) } :=
      hC.busy_worker (by rw [hpc]; nofun) nofun nofun
    exact ⟨hbusy.frame rfl rfl rfl rfl, as, hJ.callback hpc hjob⟩
  | callbackUndef w pjob k _ hpc hjob => exact absurd hjob (hJ.took_defined hpc)
  | finish w pjob k hpc =>
    have hbusy : Control { s with worker := Function.update s.worker w .top } :=
      hC.busy_worker (by rw [hpc]; nofun) nofun nofun
    exact ⟨hbusy.frame rfl rfl rfl rfl, as, hJ.finish hpc⟩
  | destroyCall d hlive hpc =>
    exact Inv.set_destroyer ⟨hC, as, hJ⟩
      (hC.set_destroyer nofun nofun nofun nofun nofun nofun)
  | destroyRet d pool r hlive hpc hrun =>
    obtain ⟨rfl, rfl, -⟩ := threadpoolDestroy_ret hrun
    exact Inv.set_destroyer ⟨hC, as, hJ⟩
      (hC.set_destroyer nofun nofun nofun nofun nofun nofun)
  | destroyWait d pool hlive hrun =>
    rcases hrun with ⟨hpc, hrun⟩ | ⟨hpc, hrun⟩
    · -- the first destroyer to get here: nobody is past the check yet
      obtain ⟨rfl, hne, hq, -⟩ := threadpoolDestroy_wait hrun
      refine ⟨hC.close_queue.set_destroyer (fun _ => hne) (fun _ => ⟨rfl, fun d' hd' => ?_⟩)
        nofun nofun nofun nofun, as, ?_⟩
      · exact absurd hd' (hC.not_passed hq d')
      · exact hJ.frame rfl rfl rfl rfl rfl rfl rfl rfl (fun _ => rfl) (fun _ _ _ => Iff.rfl)
    · obtain ⟨rfl, hne⟩ := drain_wait hrun
      exact Inv.set_destroyer ⟨hC, as, hJ⟩ (hC.advance_destroyer (by rw [hpc]; rfl)
        (fun _ => hne) nofun nofun nofun nofun)
  | destroyClosed d pool hlive hrun =>
    rcases hrun with ⟨hpc, hrun⟩ | ⟨hpc, hrun⟩
    · obtain ⟨rfl, hzero, hq, -⟩ := threadpoolDestroy_closed hrun
      refine ⟨(hC.close_queue.close_pool hzero rfl).set_destroyer nofun
        (fun _ => ⟨rfl, fun d' hd' => ?_⟩) (fun _ => rfl) nofun nofun nofun, as, ?_⟩
      · exact absurd hd' (hC.not_passed hq d')
      · exact hJ.frame rfl rfl rfl rfl rfl rfl rfl rfl (fun _ => rfl) (fun _ _ _ => Iff.rfl)
    · obtain ⟨rfl, hzero⟩ := drain_closed hrun
      have hpassed : (s.destroyer d).passed = true := by rw [hpc]; rfl
      refine ⟨(hC.close_pool hzero (hC.passedClosed d hpassed)).advance_destroyer hpassed
        nofun (fun _ => rfl) nofun nofun nofun, as, ?_⟩
      exact hJ.frame rfl rfl rfl rfl rfl rfl rfl rfl (fun _ => rfl) (fun _ _ _ => Iff.rfl)
  | destroyerSpurious d hpc =>
    exact Inv.set_destroyer ⟨hC, as, hJ⟩ (hC.advance_destroyer (by rw [hpc]; rfl)
      nofun nofun nofun nofun nofun)
  | broadcastNotEmpty d hpc =>
    have hpassed : (s.destroyer d).passed = true := by rw [hpc]; rfl
    have hclose : s.pool.poolClose = true := hC.closing d (by rw [hpc]; rfl)
    have hwake : Control { s with worker := fun w => (s.worker w).wake } :=
      hC.set_worker (fun w hw => absurd hw (WorkerPc.wake_ne_asleep _)) (fun _ _ => hclose)
        (fun w hw => WorkerPc.wake_eq_exited.mpr hw)
    refine ⟨hwake.advance_destroyer hpassed nofun (fun _ => hclose)
      (fun _ w => WorkerPc.wake_ne_asleep _) nofun nofun, as, ?_⟩
    exact hJ.frame rfl rfl rfl rfl rfl rfl rfl rfl (fun w => WorkerPc.job_wake _)
      (fun _ _ _ => WorkerPc.wake_eq_took)
  | broadcastNotFull d hpc =>
    have hpassed : (s.destroyer d).passed = true := by rw [hpc]; rfl
    have hwake : Control { s with producer := fun i => (s.producer i).wake } :=
      hC.set_producer fun i arg hi => absurd hi (ProducerPc.wake_ne_asleep _ _)
    refine ⟨hwake.advance_destroyer hpassed nofun (fun _ => hC.closing d (by rw [hpc]; rfl))
      (fun _ => hC.awake d (by rw [hpc]; rfl)) ?_ nofun, as, ?_⟩
    · intro i hi w hw
      obtain rfl : 0 = i := by simpa using hi
      exact absurd hw (Nat.not_lt_zero _)
    · exact hJ.frame rfl rfl rfl rfl rfl rfl rfl rfl (fun _ => rfl) (fun _ _ _ => Iff.rfl)
  | join d i hpc hexit =>
    refine Inv.set_destroyer ⟨hC, as, hJ⟩ (hC.advance_destroyer (by rw [hpc]; rfl) nofun
      (fun _ => hC.closing d (by rw [hpc]; rfl)) (fun _ => hC.awake d (by rw [hpc]; rfl))
      ?_ nofun)
    intro j hj w hw
    obtain rfl : i.val + 1 = j := by simpa using hj
    rcases Nat.lt_succ_iff_lt_or_eq.mp hw with hlt | he
    · exact hC.joining d i hpc w hlt
    · rw [Fin.ext he]
      exact hexit
  | joined d hpc =>
    exact Inv.set_destroyer ⟨hC, as, hJ⟩ (hC.advance_destroyer (by rw [hpc]; rfl) nofun
      (fun _ => hC.closing d (by rw [hpc]; rfl)) (fun _ => hC.awake d (by rw [hpc]; rfl))
      nofun (fun _ w => hC.joining d n hpc w w.isLt))
  | freeJob d p job hpc hhead hjob =>
    rw [hC.closing_head hJ (d := d) (by rw [hpc]; rfl)] at hhead
    cases hhead
  | freeJobUndef d p _ hpc hhead hjob =>
    rw [hC.closing_head hJ (d := d) (by rw [hpc]; rfl)] at hhead
    cases hhead
  | freePool d hpc hhead =>
    have hC' : Control
        { s with destroyer := Function.update s.destroyer d (.returned 0) } :=
      hC.advance_destroyer (by rw [hpc]; rfl) nofun
        (fun _ => hC.closing d (by rw [hpc]; rfl)) (fun _ => hC.awake d (by rw [hpc]; rfl))
        nofun (fun _ => hC.joined d (by rw [hpc]; rfl))
    exact ⟨hC'.frame rfl rfl rfl rfl, as, hJ.frame rfl rfl rfl rfl rfl rfl rfl rfl (fun _ => rfl)
      (fun _ _ _ => Iff.rfl)⟩

/-- The invariant of every reachable state. -/
theorem reachable_inv {queueMaxNum : ℤ}
    (h : (machine n queueMaxNum).Reachable s) : Inv s := by
  refine h.invariant (fun s hs => ?_) (fun s l s' _ hi hstep => hi.step hstep)
  subst hs
  exact ⟨control_initial _, [], jobs_initial _⟩

end Tdm.Threadpool
