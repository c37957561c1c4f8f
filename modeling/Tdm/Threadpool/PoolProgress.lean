import Tdm.Threadpool.PoolShutdown
import Tdm.Lib.Progress

/-!
# Every call on the thread pool comes to an end

The invariant says that nobody sleeps without a reason. Here it is shown that the reasons go away:
as long as no new call begins and nobody wakes spuriously, every order in which the threads run is
finite, and it ends with every call returned and every accepted buffer handed to the callback, or
with the pool freed (`calls_come_to_rest`). The callback is assumed to return.

The rank of a state has three components, compared in this order: what is still to be accepted or
dequeued, how far the destroyers are from their return, and how many threads can still run before
they fall asleep or exit. A step that wakes sleepers raises the last one or the last two, and lowers
one before them.
-/

namespace Tdm.Threadpool

open Tdm.Lib

variable {n : ℕ} {s s' : State n}

/-! ## Threads that are inside a call -/

/-- Inside `threadpool_add_job`. -/
def ProducerPc.inside : ProducerPc → ℕ
  | .entry _ | .asleep _ | .woken _ => 1
  | .idle | .returned _ => 0

/-- Inside `threadpool_add_job` and awake. -/
def ProducerPc.awake : ProducerPc → ℕ
  | .entry _ | .woken _ => 1
  | .idle | .asleep _ | .returned _ => 0

/-- The turns a worker makes before it sleeps, exits or takes another job. -/
def WorkerPc.turns : WorkerPc → ℕ
  | .took _ _ => 3
  | .callback _ _ => 2
  | .top | .woken => 1
  | .asleep | .exited => 0

/-- Inside `threadpool_destroy`. -/
def DestroyerPc.inside : DestroyerPc → Bool
  | .idle | .returned _ => false
  | _ => true

/-- The turns a destroyer makes before it sleeps or returns, with `n` workers to join. -/
def DestroyerPc.turns (n : ℕ) : DestroyerPc → ℕ
  | .entry | .woken => n + 5
  | .broadcastNotEmpty => n + 4
  | .broadcastNotFull => n + 3
  | .joining i => n - i + 2
  | .freeing => 1
  | .idle | .asleep | .returned _ => 0

/-- A thread whose next stretch of code is not a new call or a spurious wake-up. -/
def Busy (s : State n) : Label n → Prop
  | .producer i => (s.producer i).awake = 1
  | .worker w => s.worker w ≠ .asleep
  | .destroyer d => 0 < (s.destroyer d).turns n

/-- The pool while no new call begins and nobody wakes spuriously. -/
def running (n : ℕ) (queueMaxNum : ℤ) : System (State n) (Label n) :=
  (machine n queueMaxNum).restrict Busy

@[simp] theorem ProducerPc.inside_wake (pc : ProducerPc) : pc.wake.inside = pc.inside := by
  cases pc <;> rfl

theorem ProducerPc.awake_eq_one {pc : ProducerPc} (h : pc.awake = 1) :
    ∃ arg, pc = .entry arg ∨ pc = .woken arg := by
  cases pc with
  | entry arg => exact ⟨arg, .inl rfl⟩
  | woken arg => exact ⟨arg, .inr rfl⟩
  | idle | asleep _ | returned _ => cases h

theorem ProducerPc.inside_of_awake {pc : ProducerPc} (h : pc.awake = 1) : pc.inside = 1 := by
  obtain ⟨arg, rfl | rfl⟩ := pc.awake_eq_one h <;> rfl

theorem DestroyerPc.inside_of_turns {pc : DestroyerPc} (h : 0 < pc.turns n) :
    pc.inside = true := by
  cases pc with
  | idle | returned _ => cases h
  | _ => rfl

/-! ## What a busy thread does -/

/-- What one stretch of code of a thread that is awake does. -/
inductive Advances (s s' : State n) : Prop
  /-- a caller finds the queue full -/
  | sleeps (i : ℕ) (arg : Arg) (hfrom : (s.producer i).awake = 1)
      (hproducer : s'.producer = Function.update s.producer i (.asleep arg))
      (hworker : s'.worker = s.worker) (hdestroyer : s'.destroyer = s.destroyer)
      (hcur : s'.pool.queueCurNum = s.pool.queueCurNum)
  /-- a caller returns, with its buffer in the queue or not -/
  | returns (i : ℕ) (r : ℤ) (hfrom : (s.producer i).awake = 1)
      (hproducer : s'.producer = Function.update s.producer i (.returned r))
      (hdestroyer : s'.destroyer = s.destroyer)
      (hcur : s'.pool.queueCurNum = s.pool.queueCurNum ∨
        s'.pool.queueCurNum = s.pool.queueCurNum + 1)
  /-- a worker sleeps, exits, or goes on with the job it has -/
  | works (w : Fin n) (pc : WorkerPc) (hturns : pc.turns < (s.worker w).turns)
      (hworker : s'.worker = Function.update s.worker w pc)
      (hproducer : s'.producer = s.producer) (hdestroyer : s'.destroyer = s.destroyer)
      (hcur : s'.pool.queueCurNum = s.pool.queueCurNum)
  | takes (hproducer : ∀ i, (s'.producer i).inside = (s.producer i).inside)
      (hdestroyer : ∀ d, (s'.destroyer d).inside = (s.destroyer d).inside)
      (hcur : s'.pool.queueCurNum = s.pool.queueCurNum - 1) (hsome : s.pool.queueCurNum ≠ 0)
  /-- a destroyer gets further; it may wake the others -/
  | destroys (d : ℕ) (pc : DestroyerPc) (hturns : pc.turns n < (s.destroyer d).turns n)
      (hdestroyer : s'.destroyer = Function.update s.destroyer d pc)
      (hproducer : ∀ i, (s'.producer i).inside = (s.producer i).inside)
      (hcur : s'.pool.queueCurNum = s.pool.queueCurNum)

/-- A signal on `queue_empty` lets nobody in or out. -/
theorem SignalEmpty.inside {f f' : ℕ → DestroyerPc} (h : SignalEmpty f f') (d : ℕ) :
    (f' d).inside = (f d).inside := by
  rcases h.cases d with heq | ⟨hasleep, hwoken⟩
  · rw [heq]
  · rw [hasleep, hwoken]
    rfl

theorem Inv.advances {l : Label n} (h : Inv s) (hbusy : Busy s l) (hstep : Step s l s') :
    Advances s s' := by
  obtain ⟨hC, as, hJ⟩ := h
  cases hstep with
  | call i arg hlive hpc =>
    have hawake : (s.producer i).awake = 1 := hbusy
    rcases hpc with hpc | ⟨r, hpc⟩ <;> rw [hpc] at hawake <;> cases hawake
  | addJobWait i arg malloc pool heap hlive hpc hrun =>
    obtain ⟨rfl, rfl, -⟩ := threadpoolAddJob_wait hrun
    exact .sleeps i arg hbusy rfl rfl rfl rfl
  | addJobRet i arg malloc pool heap r b hlive hpc hmalloc hrun =>
    refine .returns i r hbusy rfl rfl ?_
    rcases threadpoolAddJob_ret hrun with ⟨-, -, rfl, -⟩ | ⟨-, -, -, -, pjob, -, hl⟩
    · exact .inl rfl
    · exact .inr hl.count
  | addJobUndef i arg malloc _ hlive hpc hmalloc hrun => exact absurd hrun hJ.addJob_defined
  | producerSpurious i arg hpc =>
    have hawake : (s.producer i).awake = 1 := hbusy
    rw [hpc] at hawake
    cases hawake
  | workWait w pool hlive hpc hrun =>
    obtain ⟨rfl, -⟩ := threadpoolFunction_wait hrun
    refine .works w .asleep ?_ rfl rfl rfl rfl
    rcases hpc with hpc | hpc <;> rw [hpc] <;> decide
  | workExit w pool hlive hpc hrun =>
    obtain ⟨rfl, -⟩ := threadpoolFunction_exit hrun
    refine .works w .exited ?_ rfl rfl rfl rfl
    rcases hpc with hpc | hpc <;> rw [hpc] <;> decide
  | workJob w pool pjob job b₁ b₂ f hlive hpc hrun hjob hsignal =>
    obtain ⟨hcur, -, -, job', -, hpool, -, -⟩ := threadpoolFunction_job hrun
    refine .takes (fun i => ?_) (fun d => ?_) ?_ hcur
    · dsimp only
      split
      · exact ProducerPc.inside_wake _
      · rfl
    · dsimp only
      split at hsignal
      · exact hsignal.inside d
      · rw [hsignal]
    · rw [hpool]
      split <;> rfl
  | workUndef w _ hlive hpc hrun => exact absurd hrun hJ.work_defined
  | workerSpurious w hpc => exact absurd hpc hbusy
  | callback w pjob k job hpc hjob =>
    refine .works w (.callback pjob k) ?_ rfl rfl rfl rfl
    rw [hpc]
    exact Nat.lt_succ_self 2
  | callbackUndef w pjob k _ hpc hjob => exact absurd hjob (hJ.took_defined hpc)
  | finish w pjob k hpc =>
    refine .works w .top ?_ rfl rfl rfl rfl
    rw [hpc]
    exact Nat.lt_succ_self 1
  | destroyCall d hlive hpc =>
    have hturns : 0 < (s.destroyer d).turns n := hbusy
    rcases hpc with hpc | hpc <;> rw [hpc] at hturns <;> cases hturns
  | destroyRet d pool r hlive hpc hrun =>
    obtain ⟨rfl, -⟩ := threadpoolDestroy_ret hrun
    refine .destroys d (.returned r) ?_ rfl (fun _ => rfl) rfl
    rw [hpc]
    exact Nat.succ_pos _
  | destroyWait d pool hlive hrun =>
    refine .destroys d .asleep hbusy rfl (fun _ => rfl) ?_
    rcases hrun with ⟨-, hrun⟩ | ⟨-, hrun⟩
    · obtain ⟨rfl, -⟩ := threadpoolDestroy_wait hrun
      rfl
    · obtain ⟨rfl, -⟩ := drain_wait hrun
      rfl
  | destroyClosed d pool hlive hrun =>
    rcases hrun with ⟨hpc, hrun⟩ | ⟨hpc, hrun⟩
    · obtain ⟨rfl, -⟩ := threadpoolDestroy_closed hrun
      refine .destroys d .broadcastNotEmpty ?_ rfl (fun _ => rfl) rfl
      rw [hpc]
      exact Nat.lt_succ_self _
    · obtain ⟨rfl, -⟩ := drain_closed hrun
      refine .destroys d .broadcastNotEmpty ?_ rfl (fun _ => rfl) rfl
      rw [hpc]
      exact Nat.lt_succ_self _
  | destroyerSpurious d hpc =>
    have hturns : 0 < (s.destroyer d).turns n := hbusy
    rw [hpc] at hturns
    cases hturns
  | broadcastNotEmpty d hpc =>
    refine .destroys d .broadcastNotFull ?_ rfl (fun _ => rfl) rfl
    rw [hpc]
    exact Nat.lt_succ_self _
  | broadcastNotFull d hpc =>
    refine .destroys d (.joining 0) ?_ rfl (fun _ => ProducerPc.inside_wake _) rfl
    rw [hpc]
    exact Nat.lt_succ_self _
  | join d i hpc hexit =>
    refine .destroys d (.joining (i + 1)) ?_ rfl (fun _ => rfl) rfl
    rw [hpc]
    have hi := i.isLt
    show n - (i + 1) + 2 < n - i + 2
    omega
  | joined d hpc =>
    refine .destroys d .freeing ?_ rfl (fun _ => rfl) rfl
    rw [hpc]
    show 1 < n - n + 2
    omega
  | freeJob d p job hpc hhead hjob =>
    rw [hC.closing_head hJ (d := d) (by rw [hpc]; rfl)] at hhead
    cases hhead
  | freeJobUndef d p _ hpc hhead hjob =>
    rw [hC.closing_head hJ (d := d) (by rw [hpc]; rfl)] at hhead
    cases hhead
  | freePool d hpc hhead =>
    refine .destroys d (.returned 0) ?_ rfl (fun _ => rfl) rfl
    rw [hpc]
    exact Nat.zero_lt_one

/-! ## The rank -/

/-- Only the first `N` producers and the first `N` destroyers are inside a call. -/
def Within (N : ℕ) (s : State n) : Prop :=
  ∀ i, N ≤ i → (s.producer i).inside = 0 ∧ (s.destroyer i).inside = false

/-- What is left to do: buffers to accept or to dequeue, turns of the destroyers, and turns of the
other threads. -/
def rank (N : ℕ) (s : State n) : ℕ × ℕ × ℕ :=
  (2 * (∑ i ∈ Finset.range N, (s.producer i).inside) + s.pool.queueCurNum.toNat,
    ∑ d ∈ Finset.range N, (s.destroyer d).turns n,
    (∑ w, (s.worker w).turns) + ∑ i ∈ Finset.range N, (s.producer i).awake)

namespace Within

variable {N : ℕ}

theorem producer_lt (h : Within N s) {i : ℕ} (hi : (s.producer i).awake = 1) : i < N := by
  by_contra hle
  have hnone := (h i (Nat.not_lt.mp hle)).1
  rw [ProducerPc.inside_of_awake hi] at hnone
  cases hnone

theorem destroyer_lt (h : Within N s) {d : ℕ} (hd : 0 < (s.destroyer d).turns n) : d < N := by
  by_contra hle
  have hnone := (h d (Nat.not_lt.mp hle)).2
  rw [DestroyerPc.inside_of_turns hd] at hnone
  cases hnone

/-- A thread that moves is one of the first `N`, so the others are as far out as before. -/
theorem advances (h : Within N s) (hstep : Advances s s') : Within N s' := by
  intro j hj
  obtain ⟨hp, hd⟩ := h j hj
  cases hstep with
  | sleeps i arg hfrom hproducer hworker hdestroyer hcur =>
    have hne : j ≠ i := fun he => absurd (h.producer_lt hfrom) (by omega)
    rw [hproducer, hdestroyer, Function.update_of_ne hne]
    exact ⟨hp, hd⟩
  | returns i r hfrom hproducer hdestroyer hcur =>
    have hne : j ≠ i := fun he => absurd (h.producer_lt hfrom) (by omega)
    rw [hproducer, hdestroyer, Function.update_of_ne hne]
    exact ⟨hp, hd⟩
  | works w pc hturns hworker hproducer hdestroyer hcur =>
    rw [hproducer, hdestroyer]
    exact ⟨hp, hd⟩
  | takes hproducer hdestroyer hcur hsome =>
    rw [hproducer j, hdestroyer j]
    exact ⟨hp, hd⟩
  | destroys d pc hturns hdestroyer hproducer hcur =>
    have hne : j ≠ d := fun he => absurd (h.destroyer_lt (Nat.zero_lt_of_lt hturns)) (by omega)
    rw [hproducer j, hdestroyer, Function.update_of_ne hne]
    exact ⟨hp, hd⟩

/-- Every turn of a busy thread lowers the rank. -/
theorem lower (h : Within N s) (hcount : 0 ≤ s.pool.queueCurNum) (hstep : Advances s s') :
    Lower (rank N s') (rank N s) := by
  cases hstep with
  | sleeps i arg hfrom hproducer hworker hdestroyer hcur =>
    have hi := Finset.mem_range.mpr (h.producer_lt hfrom)
    have hinside := sum_update_add ProducerPc.inside s.producer hi (.asleep arg)
    have hawake := sum_update_add ProducerPc.awake s.producer hi (.asleep arg)
    rw [ProducerPc.inside_of_awake hfrom, show (ProducerPc.asleep arg).inside = 1 from rfl] at hinside
    rw [hfrom, show (ProducerPc.asleep arg).awake = 0 from rfl] at hawake
    simp only [rank, hproducer, hworker, hdestroyer, hcur]
    rw [show ∑ j ∈ Finset.range N, (Function.update s.producer i (.asleep arg) j).inside =
      ∑ j ∈ Finset.range N, (s.producer j).inside by omega]
    exact .right _ (.right _ (by omega))
  | returns i r hfrom hproducer hdestroyer hcur =>
    have hi := Finset.mem_range.mpr (h.producer_lt hfrom)
    have hinside := sum_update_add ProducerPc.inside s.producer hi (.returned r)
    rw [ProducerPc.inside_of_awake hfrom, show (ProducerPc.returned r).inside = 0 from rfl] at hinside
    simp only [rank, hproducer]
    -- one caller less, and one job more at most
    exact .left _ _ (by omega)
  | works w pc hturns hworker hproducer hdestroyer hcur =>
    have hsum := sum_update_add WorkerPc.turns s.worker (Finset.mem_univ w) pc
    simp only [rank, hproducer, hworker, hdestroyer, hcur]
    exact .right _ (.right _ (by omega))
  | takes hproducer hdestroyer hcur hsome =>
    simp only [rank, hproducer, hcur]
    exact .left _ _ (by omega)
  | destroys d pc hturns hdestroyer hproducer hcur =>
    have hd := Finset.mem_range.mpr (h.destroyer_lt (Nat.zero_lt_of_lt hturns))
    have hsum := sum_update_add (DestroyerPc.turns n) s.destroyer hd pc
    simp only [rank, hproducer, hdestroyer, hcur]
    exact .right _ (.left _ _ (by omega))

/-- A call begins, ends or wakes up. -/
theorem set_producer (h : Within N s) {i : ℕ} {pc : ProducerPc}
    (hproducer : s'.producer = Function.update s.producer i pc)
    (hdestroyer : s'.destroyer = s.destroyer) : Within (max N (i + 1)) s' := by
  intro j hj
  have hne : j ≠ i := by omega
  rw [hproducer, hdestroyer, Function.update_of_ne hne]
  exact h j (by omega)

theorem set_destroyer (h : Within N s) {d : ℕ} {pc : DestroyerPc}
    (hdestroyer : s'.destroyer = Function.update s.destroyer d pc)
    (hproducer : ∀ i, (s'.producer i).inside = (s.producer i).inside) :
    Within (max N (d + 1)) s' := by
  intro j hj
  have hne : j ≠ d := by omega
  rw [hproducer j, hdestroyer, Function.update_of_ne hne]
  exact h j (by omega)

end Within

/-- In a reachable state finitely many threads are inside a call. -/
theorem exists_within {queueMaxNum : ℤ} (h : (machine n queueMaxNum).Reachable s) :
    ∃ N, Within N s := by
  refine h.invariant (I := fun s => ∃ N, Within N s) ?_ ?_
  · rintro s rfl
    exact ⟨0, fun i _ => ⟨rfl, rfl⟩⟩
  rintro s l s' hr ⟨N, hN⟩ hstep
  have hinv := reachable_inv hr
  by_cases hbusy : Busy s l
  · exact ⟨N, hN.advances (hinv.advances hbusy hstep)⟩
  -- a call or a spurious wake-up moves one thread only
  obtain ⟨hC, as, hJ⟩ := hinv
  cases hstep with
  | addJobUndef i arg malloc _ hlive hpc hmalloc hrun => exact absurd hrun hJ.addJob_defined
  | workUndef w _ hlive hpc hrun => exact absurd hrun hJ.work_defined
  | callbackUndef w pjob k _ hpc hjob => exact absurd hjob (hJ.took_defined hpc)
  | freeJobUndef d p _ hpc hhead hjob => exact absurd (by rw [Busy, hpc]; exact Nat.zero_lt_one) hbusy
  | workJob w pool pjob job b₁ b₂ f hlive hpc hrun hjob hsignal =>
    exact absurd (by rcases hpc with hpc | hpc <;> rw [Busy, hpc] <;> nofun) hbusy
  | call i | addJobWait i | addJobRet i | producerSpurious i => exact ⟨_, hN.set_producer rfl rfl⟩
  | workWait | workExit | workerSpurious | callback | finish | freeJob => exact ⟨N, hN⟩
  | destroyCall d | destroyRet d | destroyWait d | destroyClosed d | destroyerSpurious d
  | broadcastNotEmpty d | join d | joined d | freePool d =>
    exact ⟨_, hN.set_destroyer rfl fun _ => rfl⟩
  | broadcastNotFull d => exact ⟨_, hN.set_destroyer rfl fun _ => ProducerPc.inside_wake _⟩

/-! ## Who can move -/

/-- Somebody has set `pool_close` if it is set, nobody joins more workers than there are, and the
pool is freed when a destroyer has returned 0. -/
structure Closer (s : State n) : Prop where
  exists_closing : s.pool.poolClose = true → ∃ d, (s.destroyer d).closing = true
  joining_le : ∀ d i, s.destroyer d = .joining i → i ≤ n
  freed : s.freed = true ↔ ∃ d, s.destroyer d = .returned 0

namespace Closer

/-- A step that leaves the destroyers alone, or wakes one. -/
theorem frame (h : Closer s)
    (hd : ∀ d, s'.destroyer d = s.destroyer d ∨ s.destroyer d = .asleep ∧ s'.destroyer d = .woken)
    (hclose : s'.pool.poolClose = s.pool.poolClose) (hfreed : s'.freed = s.freed) : Closer s' where
  exists_closing hset := by
    obtain ⟨d, hclosing⟩ := h.exists_closing (hclose ▸ hset)
    refine ⟨d, ?_⟩
    rcases hd d with heq | ⟨hasleep, -⟩
    · rw [heq]
      exact hclosing
    · rw [hasleep] at hclosing
      cases hclosing
  joining_le d i hi := by
    rcases hd d with heq | ⟨-, hwoken⟩
    · exact h.joining_le d i (heq ▸ hi)
    · rw [hwoken] at hi
      cases hi
  freed := by
    rw [hfreed, h.freed]
    refine exists_congr fun d => ?_
    rcases hd d with heq | ⟨hasleep, hwoken⟩
    · rw [heq]
    · rw [hasleep, hwoken]
      exact iff_of_false nofun nofun

/-- A destroyer moves: it is past `pool_close = 1` then, or it was not before and the flag is what
it was. -/
theorem move (h : Closer s) {d : ℕ} {pc : DestroyerPc}
    (hd : s'.destroyer = Function.update s.destroyer d pc) (hle : ∀ i, pc = .joining i → i ≤ n)
    (hfreed : s'.freed = true ∧ pc = .returned 0 ∨
      s'.freed = s.freed ∧ pc ≠ .returned 0 ∧ s.destroyer d ≠ .returned 0)
    (hclose : pc.closing = true ∨
      (s.destroyer d).closing = false ∧ s'.pool.poolClose = s.pool.poolClose) : Closer s' where
  exists_closing hset := by
    rw [hd]
    rcases hclose with hclosing | ⟨hbefore, hsame⟩
    · exact ⟨d, by rw [Function.update_self]; exact hclosing⟩
    · obtain ⟨d', hd'⟩ := h.exists_closing (hsame ▸ hset)
      have hne : d' ≠ d := by
        rintro rfl
        rw [hbefore] at hd'
        cases hd'
      exact ⟨d', by rw [Function.update_of_ne hne]; exact hd'⟩
  joining_le := by
    rw [hd]
    exact (Function.forall_update_iff s.destroyer fun _ q => ∀ i, q = .joining i → i ≤ n).mpr
      ⟨hle, fun d' _ => h.joining_le d'⟩
  freed := by
    rw [hd]
    rcases hfreed with ⟨htrue, rfl⟩ | ⟨hsame, hret, hbefore⟩
    · exact iff_of_true htrue ⟨d, Function.update_self ..⟩
    · rw [hsame, h.freed]
      refine exists_congr fun d' => ?_
      rcases eq_or_ne d' d with rfl | hne
      · rw [Function.update_self]
        exact iff_of_false hbefore hret
      · rw [Function.update_of_ne hne]

theorem step {l : Label n} (h : Closer s) (hinv : Inv s) (hstep : Step s l s') : Closer s' := by
  obtain ⟨hC, as, hJ⟩ := hinv
  cases hstep with
  | addJobWait i arg malloc pool heap hlive hpc hrun =>
    obtain ⟨rfl, -⟩ := threadpoolAddJob_wait hrun
    exact h.frame (fun _ => .inl rfl) rfl rfl
  | addJobRet i arg malloc pool heap r b hlive hpc hmalloc hrun =>
    refine h.frame (fun _ => .inl rfl) ?_ rfl
    rcases threadpoolAddJob_ret hrun with ⟨-, -, rfl, -⟩ | ⟨-, -, -, -, pjob, -, hl⟩
    · rfl
    · exact hl.sameFlags.poolClose
  | workWait w pool hlive hpc hrun =>
    obtain ⟨rfl, -⟩ := threadpoolFunction_wait hrun
    exact h.frame (fun _ => .inl rfl) rfl rfl
  | workExit w pool hlive hpc hrun =>
    obtain ⟨rfl, -⟩ := threadpoolFunction_exit hrun
    exact h.frame (fun _ => .inl rfl) rfl rfl
  | workJob w pool pjob job b₁ b₂ f hlive hpc hrun hjob hsignal =>
    obtain ⟨-, -, -, _, -, hpool, -⟩ := threadpoolFunction_job hrun
    refine h.frame (fun d => ?_) ?_ rfl
    · split at hsignal
      · exact hsignal.cases d
      · exact .inl (congrFun hsignal d)
    · rw [hpool]
      split <;> rfl
  | destroyCall d hlive hpc =>
    refine h.move rfl nofun (.inr ⟨rfl, nofun, ?_⟩) (.inr ⟨?_, rfl⟩)
    · rcases hpc with hpc | hpc <;> rw [hpc] <;> simp
    · rcases hpc with hpc | hpc <;> rw [hpc] <;> rfl
  | destroyRet d pool r hlive hpc hrun =>
    obtain ⟨rfl, rfl, -⟩ := threadpoolDestroy_ret hrun
    exact h.move rfl nofun (.inr ⟨rfl, by simp, by rw [hpc]; nofun⟩) (.inr ⟨by rw [hpc]; rfl, rfl⟩)
  | destroyWait d pool hlive hrun =>
    rcases hrun with ⟨hpc, hrun⟩ | ⟨hpc, hrun⟩
    · obtain ⟨rfl, -⟩ := threadpoolDestroy_wait hrun
      exact h.move rfl nofun (.inr ⟨rfl, nofun, by rw [hpc]; nofun⟩) (.inr ⟨by rw [hpc]; rfl, rfl⟩)
    · obtain ⟨rfl, -⟩ := drain_wait hrun
      exact h.move rfl nofun (.inr ⟨rfl, nofun, by rw [hpc]; nofun⟩) (.inr ⟨by rw [hpc]; rfl, rfl⟩)
  | destroyerSpurious d hpc => exact h.move rfl nofun (.inr ⟨rfl, nofun, by rw [hpc]; nofun⟩) (.inr ⟨by rw [hpc]; rfl, rfl⟩)
  | destroyClosed d pool hlive hrun =>
    refine h.move rfl nofun (.inr ⟨rfl, nofun, ?_⟩) (.inl rfl)
    rcases hrun with ⟨hpc, -⟩ | ⟨hpc, -⟩ <;> rw [hpc] <;> nofun
  | broadcastNotEmpty d hpc => exact h.move rfl nofun (.inr ⟨rfl, nofun, by rw [hpc]; nofun⟩) (.inl rfl)
  | broadcastNotFull d hpc =>
    refine h.move rfl (fun i hi => ?_) (.inr ⟨rfl, nofun, by rw [hpc]; nofun⟩) (.inl rfl)
    obtain rfl := DestroyerPc.joining.inj hi
    exact Nat.zero_le n
  | join d i hpc hexit =>
    refine h.move rfl (fun j hj => ?_) (.inr ⟨rfl, nofun, by rw [hpc]; nofun⟩) (.inl rfl)
    obtain rfl := DestroyerPc.joining.inj hj
    exact i.isLt
  | joined d hpc => exact h.move rfl nofun (.inr ⟨rfl, nofun, by rw [hpc]; nofun⟩) (.inl rfl)
  | freePool d hpc hhead => exact h.move rfl nofun (.inl ⟨rfl, rfl⟩) (.inl rfl)
  | addJobUndef i arg malloc _ hlive hpc hmalloc hrun => exact absurd hrun hJ.addJob_defined
  | workUndef w _ hlive hpc hrun => exact absurd hrun hJ.work_defined
  | callbackUndef w pjob k _ hpc hjob => exact absurd hjob (hJ.took_defined hpc)
  | freeJob d p job hpc hhead hjob =>
    rw [hC.closing_head hJ (d := d) (by rw [hpc]; rfl)] at hhead
    cases hhead
  | freeJobUndef d p _ hpc hhead hjob =>
    rw [hC.closing_head hJ (d := d) (by rw [hpc]; rfl)] at hhead
    cases hhead
  | _ => exact h.frame (fun _ => .inl rfl) rfl rfl

end Closer

theorem reachable_closer {queueMaxNum : ℤ} (h : (machine n queueMaxNum).Reachable s) : Closer s := by
  refine h.invariant ?_ fun s l s' hr ih hstep => ih.step (reachable_inv hr) hstep
  rintro s rfl
  exact ⟨nofun, nofun, iff_of_false nofun nofun⟩

/-- A signal can always be sent. -/
theorem exists_signalEmpty (f : ℕ → DestroyerPc) : ∃ f', SignalEmpty f f' := by
  by_cases h : ∃ d, f d = .asleep
  · obtain ⟨d, hd⟩ := h
    exact ⟨_, .inl ⟨d, hd, rfl⟩⟩
  · push Not at h
    exact ⟨f, .inr ⟨h, rfl⟩⟩

section Moves
variable {as : List Addr} (hJ : Jobs s as) (hlive : s.freed = false)
include hJ hlive

theorem producer_moves {i : ℕ} (hi : (s.producer i).awake = 1) : ∃ s', Step s (.producer i) s' := by
  obtain ⟨arg, hpc⟩ := ProducerPc.awake_eq_one hi
  cases hrun : threadpoolAddJob s.pool s.heap arg none with
  | none => exact absurd hrun hJ.addJob_defined
  | some result =>
    obtain ⟨pool, heap, outcome⟩ := result
    cases outcome with
    | wait => exact ⟨_, .addJobWait i arg none pool heap hlive hpc hrun⟩
    | ret r b => exact ⟨_, .addJobRet i arg none pool heap r b hlive hpc nofun hrun⟩

theorem worker_moves {w : Fin n} (hasleep : s.worker w ≠ .asleep) (hexited : s.worker w ≠ .exited) :
    ∃ s', Step s (.worker w) s' := by
  have hlocks (hpc : s.worker w = .top ∨ s.worker w = .woken) : ∃ s', Step s (.worker w) s' := by
    cases hrun : threadpoolFunction s.pool s.heap with
    | none => exact absurd hrun hJ.work_defined
    | some result =>
      obtain ⟨pool, outcome⟩ := result
      cases outcome with
      | wait => exact ⟨_, .workWait w pool hlive hpc hrun⟩
      | exit => exact ⟨_, .workExit w pool hlive hpc hrun⟩
      | job pjob b₁ b₂ =>
        obtain ⟨-, -, -, job, hjob, -⟩ := threadpoolFunction_job hrun
        obtain ⟨f, hf⟩ := exists_signalEmpty s.destroyer
        refine ⟨_, .workJob w pool pjob job b₁ b₂ (if b₁ then f else s.destroyer) hlive hpc hrun
          hjob ?_⟩
        cases b₁ with
        | true => exact hf
        | false => exact rfl
  cases hpc : s.worker w with
  | top => exact hlocks (.inl hpc)
  | woken => exact hlocks (.inr hpc)
  | asleep => exact absurd hpc hasleep
  | exited => exact absurd hpc hexited
  | took pjob k =>
    obtain ⟨job, hjob⟩ := Option.ne_none_iff_exists'.mp (hJ.took_defined hpc)
    exact ⟨_, .callback w pjob k job hpc hjob⟩
  | callback pjob k => exact ⟨_, .finish w pjob k hpc⟩

/-- A destroyer that is awake can move unless it waits for a worker. -/
theorem destroyer_moves {d : ℕ} (hd : 0 < (s.destroyer d).turns n)
    (hjoin : ∀ i, s.destroyer d = .joining i → i ≤ n ∧ ∀ w : Fin n, w.val = i → s.worker w = .exited) :
    ∃ s', Step s (.destroyer d) s' := by
  cases hpc : s.destroyer d with
  | idle | asleep | returned _ =>
    rw [hpc] at hd
    cases hd
  | entry =>
    cases hrun : threadpoolDestroy s.pool with
    | mk pool outcome =>
      cases outcome with
      | wait => exact ⟨_, .destroyWait d pool hlive (.inl ⟨hpc, hrun⟩)⟩
      | ret r => exact ⟨_, .destroyRet d pool r hlive hpc hrun⟩
      | closed => exact ⟨_, .destroyClosed d pool hlive (.inl ⟨hpc, hrun⟩)⟩
  | woken =>
    cases hrun : drain s.pool with
    | mk pool outcome =>
      cases outcome with
      | wait => exact ⟨_, .destroyWait d pool hlive (.inr ⟨hpc, hrun⟩)⟩
      | ret r => exact absurd hrun drain_ne_ret
      | closed => exact ⟨_, .destroyClosed d pool hlive (.inr ⟨hpc, hrun⟩)⟩
  | broadcastNotEmpty => exact ⟨_, .broadcastNotEmpty d hpc⟩
  | broadcastNotFull => exact ⟨_, .broadcastNotFull d hpc⟩
  | joining i =>
    obtain ⟨hle, hexit⟩ := hjoin i hpc
    rcases Nat.lt_or_eq_of_le hle with hlt | rfl
    · exact ⟨_, .join d ⟨i, hlt⟩ hpc (hexit ⟨i, hlt⟩ rfl)⟩
    · exact ⟨_, .joined d hpc⟩
  | freeing =>
    cases hhead : s.pool.head with
    | none => exact ⟨_, .freePool d hpc hhead⟩
    | some p =>
      cases hjob : s.heap p with
      | none => exact ⟨s, .freeJobUndef d p s hpc hhead hjob⟩
      | some job => exact ⟨_, .freeJob d p job hpc hhead hjob⟩

end Moves

/-! ## Coming to rest -/

/-- Every buffer that was accepted has been handed to the callback, once. -/
def Delivered (s : State n) : Prop :=
  (s.handed.map Prod.fst).Perm (List.range s.accepted.length) ∧
    ∀ p ∈ s.handed, s.accepted[p.1]? = some p.2

/-- No call is pending. -/
def NoneInside (s : State n) : Prop :=
  (∀ i, (s.producer i).inside = 0) ∧ ∀ d, (s.destroyer d).inside = false

/-- With the queue empty and nobody on the way to the callback everything is delivered. -/
theorem Jobs.delivered {as : List Addr} (h : Jobs s as) (hempty : s.pool.queueCurNum = 0)
    (hnone : ∀ w a k, s.worker w ≠ .took a k) : Delivered s := by
  -- it does not matter where the workers are, so they may as well have exited
  have hgone : Jobs ({ s with worker := fun _ => .exited } : State n) as :=
    { h with
      held := nofun
      heldAddr := nofun
      heldIndex := nofun
      handed := fun k hk =>
        iff_of_true ((h.handed k hk).mpr fun w a => hnone w a k) fun _ _ => nofun }
  exact hgone.all_handed hempty fun _ => rfl

section Rest
variable {queueMaxNum : ℤ} (hreach : (machine n queueMaxNum).Reachable s)
  (hend : ∀ t, ¬ (running n queueMaxNum).Next s t)
include hreach hend

/-- When no thread can move and the pool is not freed, all workers are asleep and nobody is inside
`threadpool_destroy` unless asleep. -/
theorem asleep_of_stuck (hlive : s.freed = false) :
    s.pool.poolClose = false ∧ (∀ w, s.worker w = .asleep) ∧
      ∀ d, (s.destroyer d).turns n = 0 := by
  obtain ⟨hC, as, hJ⟩ := reachable_inv hreach
  have hcloser := reachable_closer hreach
  have hworker : ∀ w, s.worker w = .asleep ∨ s.worker w = .exited := by
    intro w
    by_contra hnot
    push Not at hnot
    obtain ⟨t, ht⟩ := worker_moves hJ hlive hnot.1 hnot.2
    exact hend t ⟨_, ht, hnot.1⟩
  have hdestroyer : ∀ d, 0 < (s.destroyer d).turns n → ∃ i, s.destroyer d = .joining i ∧
      ∃ w : Fin n, s.worker w ≠ .exited := by
    intro d hd
    by_contra hnot
    push Not at hnot
    have hjoin : ∀ i, s.destroyer d = .joining i →
        i ≤ n ∧ ∀ w : Fin n, w.val = i → s.worker w = .exited :=
      fun i hi => ⟨hcloser.joining_le d i hi, fun w _ => hnot i hi w⟩
    obtain ⟨t, ht⟩ := destroyer_moves hJ hlive hd hjoin
    exact hend t ⟨_, ht, hd⟩
  -- a closed pool has a destroyer that has woken the workers, so they have exited and it moves on
  have hopen : s.pool.poolClose = false := by
    by_contra hclose
    obtain ⟨d, hd⟩ := hcloser.exists_closing (by simpa using hclose)
    have hturns : 0 < (s.destroyer d).turns n := by
      cases hpc : s.destroyer d with
      | idle | entry | asleep | woken =>
        rw [hpc] at hd
        cases hd
      | returned r =>
        rw [hpc] at hd
        obtain rfl : r = 0 := by simpa [DestroyerPc.closing] using hd
        rw [hcloser.freed.mpr ⟨d, hpc⟩] at hlive
        cases hlive
      | _ => exact Nat.succ_pos _
    obtain ⟨i, hi, w, hw⟩ := hdestroyer d hturns
    rcases hworker w with hasleep | hexit
    · exact hC.awake d (by rw [hi]; rfl) w hasleep
    · exact hw hexit
  refine ⟨hopen, fun w => (hworker w).resolve_right fun hexit => ?_, fun d => ?_⟩
  · rw [hC.exited w hexit] at hopen
    cases hopen
  · by_contra hne
    obtain ⟨i, hi, -⟩ := hdestroyer d (Nat.pos_of_ne_zero hne)
    rw [hC.closing d (by rw [hi]; rfl)] at hopen
    cases hopen

/-- The state the threads come to rest in. -/
theorem rest_of_stuck (hn : 1 ≤ n) (hmax : 1 ≤ queueMaxNum) :
    Delivered s ∧ (s.freed = true ∨ NoneInside s) := by
  obtain ⟨hC, as, hJ⟩ := reachable_inv hreach
  cases hfreed : s.freed with
  | true =>
    obtain ⟨d, hd⟩ := (reachable_closer hreach).freed.mp hfreed
    have hempty := (hC.closedEmpty (hC.closing d (by rw [hd]; rfl))).1
    refine ⟨hJ.delivered hempty fun w a k hw => ?_, .inl rfl⟩
    rw [hC.joined d (by rw [hd]; rfl) w] at hw
    cases hw
  | false =>
    obtain ⟨hopen, hworker, hturns⟩ := asleep_of_stuck hreach hend hfreed
    have hempty := hC.workerAsleep ⟨0, hn⟩ (hworker _)
    refine ⟨hJ.delivered hempty fun w a k hw => ?_, .inr ⟨fun i => ?_, fun d => ?_⟩⟩
    · rw [hworker w] at hw
      cases hw
    · cases hpc : s.producer i with
      | idle | returned _ => rfl
      | entry arg | woken arg =>
        have hawake : (s.producer i).awake = 1 := by rw [hpc]; rfl
        obtain ⟨t, ht⟩ := producer_moves hJ hfreed hawake
        exact absurd ⟨_, ht, hawake⟩ (hend t)
      | asleep arg =>
        have hfull := hC.producerAsleep i arg hpc
        rw [hempty, reachable_max hreach] at hfull
        omega
    · cases hpc : s.destroyer d with
      | idle | returned _ => rfl
      | asleep => exact absurd hempty (hC.destroyerAsleep d hpc)
      | joining i =>
        have hzero := hturns d
        rw [hpc] at hzero
        cases hzero
      | _ =>
        have hzero := hturns d
        rw [hpc] at hzero
        cases hzero

end Rest

theorem reachable_of_running {queueMaxNum : ℤ} (h : (machine n queueMaxNum).Reachable s)
    (hstep : (running n queueMaxNum).Next s s') : (machine n queueMaxNum).Reachable s' := by
  obtain ⟨l, hstep, -⟩ := hstep
  exact h.next hstep

theorem settles {queueMaxNum : ℤ} (hn : 1 ≤ n) (hmax : 1 ≤ queueMaxNum)
    (h : (machine n queueMaxNum).Reachable s) :
    Settles (running n queueMaxNum).Next (fun s => Delivered s ∧ (s.freed = true ∨ NoneInside s))
      s := by
  obtain ⟨N, hN⟩ := exists_within h
  have hadvances {t t' : State n} (ht : (machine n queueMaxNum).Reachable t)
      (hstep : (running n queueMaxNum).Next t t') : Advances t t' := by
    obtain ⟨l, hstep, hbusy⟩ := hstep
    exact (reachable_inv ht).advances hbusy hstep
  refine Settles.of_rank wellFounded_lower (rank N)
    (I := fun s => (machine n queueMaxNum).Reachable s ∧ Within N s) ?_ ?_ ?_ ⟨h, hN⟩
  · rintro t t' ⟨ht, hin⟩ hstep
    exact ⟨reachable_of_running ht hstep, hin.advances (hadvances ht hstep)⟩
  · rintro t t' ⟨ht, hin⟩ hstep
    obtain ⟨-, as, hJ⟩ := reachable_inv ht
    have hcount := hJ.count
    exact hin.lower (by omega) (hadvances ht hstep)
  · rintro t ⟨ht, -⟩ hend
    exact rest_of_stuck ht hend hn hmax

end Tdm.Threadpool
