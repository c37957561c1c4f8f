import Tdm.Threadpool.Pool

/-!
# What one stretch under the mutex can do

One inversion lemma for each way a stretch of `threadpool_add_job`,
`threadpool_function` and `threadpool_destroy` can end. Everything proved about the
machine cites these; the functions themselves are not unfolded again.
-/

namespace Tdm.Threadpool

open Tdm.Lib

variable {pool pool' : Pool} {heap heap' : Heap} {arg : Arg} {malloc : Option Addr}

/-! ## `setNext` -/

theorem setNext_eq_some {p v : Option Addr} :
    setNext heap p v = some heap' ↔
      ∃ a job, p = some a ∧ heap a = some job ∧
        heap' = Function.update heap a (some { job with next := v }) := by
  unfold setNext
  constructor
  · intro h
    split at h
    · cases h
    · split at h
      · cases h
      · rename_i a _ job hjob
        exact ⟨a, job, rfl, hjob, (Option.some.inj h).symm⟩
  · rintro ⟨a, job, rfl, hjob, rfl⟩
    simp only [hjob]

theorem setNext_eq_none {p v : Option Addr} :
    setNext heap p v = none ↔ ∀ a, p = some a → heap a = none := by
  unfold setNext
  cases p with
  | none => simp
  | some a => cases hjob : heap a <;> simp [hjob]

/-! ## `threadpool_add_job` -/

theorem threadpoolAddJob_wait
    (h : threadpoolAddJob pool heap arg malloc = some (pool', heap', .wait)) :
    pool' = pool ∧ heap' = heap ∧ pool.queueCurNum = pool.queueMaxNum ∧
      pool.queueClose = false ∧ pool.poolClose = false := by
  unfold threadpoolAddJob at h
  split at h
  · rename_i hfull
    simp only [Option.some.injEq, Prod.mk.injEq] at h
    simp only [Bool.or_eq_true, not_or, Bool.not_eq_true] at hfull
    exact ⟨h.1.symm, h.2.1.symm, hfull.1, hfull.2.1, hfull.2.2⟩
  · split at h
    · simp at h
    · split at h
      · simp at h
      · split at h
        · simp at h
        · dsimp only at h
          split at h <;> simp at h

/-- The list and the heap after a job at `pjob` was linked in. -/
inductive Linked (pool : Pool) (heap : Heap) (arg : Arg) (pjob : Addr) :
    Pool → Heap → Bool → Prop
  | first (h : pool.head = none) :
      Linked pool heap arg pjob
        { pool with head := some pjob, tail := some pjob
                    queueCurNum := pool.queueCurNum + 1 }
        (Function.update heap pjob (some ⟨arg.buff, none⟩)) true
  | behind (t : Addr) (job : Job) (h : pool.head ≠ none) (ht : pool.tail = some t)
      (hjob : Function.update heap pjob (some ⟨arg.buff, none⟩) t = some job) :
      Linked pool heap arg pjob
        { pool with tail := some pjob, queueCurNum := pool.queueCurNum + 1 }
        (Function.update (Function.update heap pjob (some ⟨arg.buff, none⟩)) t
          (some { job with next := some pjob })) false

/-- A call that returns either failed and changed nothing, or linked its job in behind
the last one while the queue was open and had room. -/
theorem threadpoolAddJob_ret {r : ℤ} {b : Bool}
    (h : threadpoolAddJob pool heap arg malloc = some (pool', heap', .ret r b)) :
    (r = -1 ∧ b = false ∧ pool' = pool ∧ heap' = heap) ∨
      (r = 0 ∧ pool.queueCurNum ≠ pool.queueMaxNum ∧ pool.queueClose = false ∧
        pool.poolClose = false ∧
        ∃ pjob, malloc = some pjob ∧ Linked pool heap arg pjob pool' heap' b) := by
  unfold threadpoolAddJob at h
  split at h
  · simp at h
  · rename_i hfull
    split at h
    · simp only [Option.some.injEq, Prod.mk.injEq, AddOutcome.ret.injEq] at h
      exact Or.inl ⟨h.2.2.1.symm, h.2.2.2.symm, h.1.symm, h.2.1.symm⟩
    · rename_i hopen
      have hclose : pool.queueClose = false ∧ pool.poolClose = false := by
        simpa using hopen
      have hroom : pool.queueCurNum ≠ pool.queueMaxNum := fun he => hfull ⟨he, hopen⟩
      split at h
      · simp only [Option.some.injEq, Prod.mk.injEq, AddOutcome.ret.injEq] at h
        exact Or.inl ⟨h.2.2.1.symm, h.2.2.2.symm, h.1.symm, h.2.1.symm⟩
      · rename_i pjob
        refine Or.inr ?_
        split at h
        · rename_i hhead
          simp only [Option.some.injEq, Prod.mk.injEq, AddOutcome.ret.injEq] at h
          obtain ⟨rfl, rfl, rfl, rfl⟩ := h
          exact ⟨rfl, hroom, hclose.1, hclose.2, pjob, rfl, .first hhead⟩
        · rename_i a hhead
          dsimp only at h
          split at h
          · cases h
          · rename_i heap₂ hset
            simp only [Option.some.injEq, Prod.mk.injEq, AddOutcome.ret.injEq] at h
            obtain ⟨rfl, rfl, rfl, rfl⟩ := h
            obtain ⟨t, job, ht, hjob, rfl⟩ := setNext_eq_some.mp hset
            exact ⟨rfl, hroom, hclose.1, hclose.2, pjob, rfl,
              .behind t job (by rw [hhead]; simp) ht hjob⟩

/-- The call goes wrong only by following a tail pointer that is not a live job. -/
theorem threadpoolAddJob_undef (h : threadpoolAddJob pool heap arg malloc = none) :
    ∃ pjob, malloc = some pjob ∧ pool.head ≠ none ∧
      ∀ t, pool.tail = some t → heap t = none := by
  unfold threadpoolAddJob at h
  split at h
  · cases h
  · split at h
    · cases h
    · split at h
      · cases h
      · rename_i pjob
        split at h
        · cases h
        · rename_i a hhead
          dsimp only at h
          split at h
          · rename_i hset
            refine ⟨pjob, rfl, by rw [hhead]; simp, fun t ht => ?_⟩
            have htn := setNext_eq_none.mp hset t ht
            by_cases he : t = pjob
            · rw [he, Function.update_self] at htn
              cases htn
            · rwa [Function.update_of_ne he] at htn
          · cases h

/-- A closed queue refuses the call, and nothing changes. -/
theorem threadpoolAddJob_closed (h : pool.queueClose = true) :
    threadpoolAddJob pool heap arg malloc = some (pool, heap, .ret (-1) false) := by
  unfold threadpoolAddJob
  simp [h]

/-! ## `threadpool_function` -/

theorem threadpoolFunction_wait
    (h : threadpoolFunction pool heap = some (pool', .wait)) :
    pool' = pool ∧ pool.queueCurNum = 0 ∧ pool.poolClose = false := by
  unfold threadpoolFunction at h
  split at h
  · rename_i hempty
    simp only [Option.some.injEq, Prod.mk.injEq] at h
    exact ⟨h.1.symm, hempty.1, by simpa using hempty.2⟩
  · split at h
    · simp at h
    · dsimp only at h
      split at h
      · cases h
      · split at h <;> simp at h

theorem threadpoolFunction_exit
    (h : threadpoolFunction pool heap = some (pool', .exit)) :
    pool' = pool ∧ pool.poolClose = true := by
  unfold threadpoolFunction at h
  split at h
  · simp at h
  · split at h
    · rename_i hclose
      simp only [Option.some.injEq, Prod.mk.injEq] at h
      exact ⟨h.1.symm, hclose⟩
    · dsimp only at h
      split at h
      · cases h
      · split at h <;> simp at h

/-- A worker that leaves with a job took the first of a queue that is not empty, signals
`queue_empty` exactly when it took the last one, and broadcasts `queue_not_full` exactly
when the queue was full. -/
theorem threadpoolFunction_job {pjob : Addr} {b₁ b₂ : Bool}
    (h : threadpoolFunction pool heap = some (pool', .job pjob b₁ b₂)) :
    pool.queueCurNum ≠ 0 ∧ pool.poolClose = false ∧ pool.head = some pjob ∧
      ∃ job, heap pjob = some job ∧
        pool' = (if pool.queueCurNum = 1 then
            { pool with queueCurNum := pool.queueCurNum - 1, head := none, tail := none }
          else { pool with queueCurNum := pool.queueCurNum - 1, head := job.next }) ∧
        b₁ = decide (pool.queueCurNum = 1) ∧
        b₂ = decide (pool.queueCurNum = pool.queueMaxNum) := by
  unfold threadpoolFunction at h
  split at h
  · simp at h
  · rename_i hsome
    split at h
    · simp at h
    · rename_i hopen
      dsimp only at h
      split at h
      · cases h
      · rename_i a hhead
        split at h
        · cases h
        · rename_i job hjob
          simp only [Option.some.injEq, Prod.mk.injEq, WorkOutcome.job.injEq] at h
          obtain ⟨rfl, rfl, rfl, rfl⟩ := h
          have hone : pool.queueCurNum - 1 = 0 ↔ pool.queueCurNum = 1 := by omega
          have hfull : pool.queueCurNum - 1 = pool.queueMaxNum - 1 ↔
              pool.queueCurNum = pool.queueMaxNum := by omega
          refine ⟨fun h0 => hsome ⟨h0, hopen⟩, by simpa using hopen, hhead, job, hjob,
            ?_, ?_, ?_⟩
          · simp only [hone]
          · simp only [hone]
          · simp only [hfull]

/-- A turn goes wrong only when the counter says there is a job and the head pointer is
not a live one. -/
theorem threadpoolFunction_undef (h : threadpoolFunction pool heap = none) :
    pool.queueCurNum ≠ 0 ∧ ∀ a, pool.head = some a → heap a = none := by
  unfold threadpoolFunction at h
  split at h
  · cases h
  · rename_i hsome
    split at h
    · cases h
    · rename_i hopen
      refine ⟨fun h0 => hsome ⟨h0, hopen⟩, fun a ha => ?_⟩
      dsimp only at h
      rw [ha] at h
      dsimp only at h
      split at h
      · assumption
      · cases h

/-! ## `threadpool_destroy` -/

theorem drain_wait (h : drain pool = (pool', .wait)) :
    pool' = pool ∧ pool.queueCurNum ≠ 0 := by
  unfold drain at h
  split at h
  · rename_i hne
    simp only [Prod.mk.injEq] at h
    exact ⟨h.1.symm, hne⟩
  · simp at h

theorem drain_closed (h : drain pool = (pool', .closed)) :
    pool' = { pool with poolClose := true } ∧ pool.queueCurNum = 0 := by
  unfold drain at h
  split at h
  · simp at h
  · rename_i hne
    simp only [Prod.mk.injEq] at h
    exact ⟨h.1.symm, not_not.mp hne⟩

theorem drain_ne_ret {r : ℤ} : drain pool ≠ (pool', .ret r) := by
  unfold drain
  split <;> simp

theorem threadpoolDestroy_ret {r : ℤ} (h : threadpoolDestroy pool = (pool', .ret r)) :
    pool' = pool ∧ r = -1 ∧ (pool.queueClose = true ∨ pool.poolClose = true) := by
  unfold threadpoolDestroy at h
  split at h
  · rename_i hclose
    simp only [Prod.mk.injEq, DestroyOutcome.ret.injEq] at h
    exact ⟨h.1.symm, h.2.symm, by simpa using hclose⟩
  · exact absurd h drain_ne_ret

theorem threadpoolDestroy_wait (h : threadpoolDestroy pool = (pool', .wait)) :
    pool' = { pool with queueClose := true } ∧ pool.queueCurNum ≠ 0 ∧
      pool.queueClose = false ∧ pool.poolClose = false := by
  unfold threadpoolDestroy at h
  split at h
  · simp at h
  · rename_i hopen
    obtain ⟨rfl, hne⟩ := drain_wait h
    exact ⟨rfl, hne, by simpa using hopen⟩

theorem threadpoolDestroy_closed (h : threadpoolDestroy pool = (pool', .closed)) :
    pool' = { pool with queueClose := true, poolClose := true } ∧
      pool.queueCurNum = 0 ∧ pool.queueClose = false ∧ pool.poolClose = false := by
  unfold threadpoolDestroy at h
  split at h
  · simp at h
  · rename_i hopen
    obtain ⟨rfl, hzero⟩ := drain_closed h
    exact ⟨rfl, hzero, by simpa using hopen⟩

end Tdm.Threadpool
