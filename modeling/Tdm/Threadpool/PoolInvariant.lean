import Tdm.Threadpool.PoolTheorems
import Tdm.Lib.LinkedQueue

/-!
# The invariant of the thread pool

Two families of facts, which need each other across steps:

* `Jobs s as`: the list from `head` to `tail` visits `as`, the counter counts it, every
  buffer accepted is either dequeued or still listed, every job a worker holds is live and
  off the list, and the callback has been called once for every job dequeued, save those
  whose worker is still on its way to it;
* `Control s`: who may be asleep given the counter, and what each program point of
  `threadpool_destroy` says about the two close flags and the workers.
-/

namespace Tdm.Threadpool

open Tdm.Lib

variable {n : ℕ}

/-! ## Vocabulary -/

/-- The `next` field of a job. -/
def nextOf (heap : Heap) (a : Addr) : Option Addr := (heap a).bind Job.next

/-- The buffer of a job. -/
def buffOf (heap : Heap) (a : Addr) : Option Buff := (heap a).map Job.buff

/-- The job a worker holds, with its position in the dequeue order. -/
def WorkerPc.job : WorkerPc → Option (Addr × ℕ)
  | .took pjob k => some (pjob, k)
  | .callback pjob k => some (pjob, k)
  | _ => none

/-- Past the closed check of `threadpool_destroy`. -/
def DestroyerPc.passed : DestroyerPc → Bool
  | .idle | .entry => false
  | .returned r => r = 0
  | _ => true

/-- Past `pool_close = 1`. -/
def DestroyerPc.closing : DestroyerPc → Bool
  | .idle | .entry | .asleep | .woken => false
  | .returned r => r = 0
  | _ => true

/-- Past the broadcast on `queue_not_empty`. -/
def DestroyerPc.issuedNotEmpty : DestroyerPc → Bool
  | .broadcastNotFull | .joining _ | .freeing => true
  | .returned r => r = 0
  | _ => false

/-- Past both broadcasts. -/
def DestroyerPc.issued : DestroyerPc → Bool
  | .joining _ | .freeing => true
  | .returned r => r = 0
  | _ => false

/-- Past the joins. -/
def DestroyerPc.joined : DestroyerPc → Bool
  | .freeing => true
  | .returned r => r = 0
  | _ => false

@[simp] theorem WorkerPc.job_wake (pc : WorkerPc) : pc.wake.job = pc.job := by
  cases pc <;> rfl

@[simp] theorem WorkerPc.wake_ne_asleep (pc : WorkerPc) : pc.wake ≠ .asleep := by
  cases pc <;> simp [WorkerPc.wake]

@[simp] theorem WorkerPc.wake_eq_took {pc : WorkerPc} {a : Addr} {k : ℕ} :
    pc.wake = .took a k ↔ pc = .took a k := by
  cases pc <;> simp [WorkerPc.wake]

@[simp] theorem WorkerPc.wake_eq_exited {pc : WorkerPc} :
    pc.wake = .exited ↔ pc = .exited := by
  cases pc <;> simp [WorkerPc.wake]

@[simp] theorem ProducerPc.wake_ne_asleep (pc : ProducerPc) (arg : Arg) :
    pc.wake ≠ .asleep arg := by
  cases pc <;> simp [ProducerPc.wake]

theorem DestroyerPc.passed_of_closing {pc : DestroyerPc} (h : pc.closing = true) :
    pc.passed = true := by
  cases pc <;> simp_all [DestroyerPc.closing, DestroyerPc.passed]

theorem DestroyerPc.closing_of_issuedNotEmpty {pc : DestroyerPc}
    (h : pc.issuedNotEmpty = true) : pc.closing = true := by
  cases pc <;> simp_all [DestroyerPc.closing, DestroyerPc.issuedNotEmpty]

theorem DestroyerPc.issuedNotEmpty_of_issued {pc : DestroyerPc} (h : pc.issued = true) :
    pc.issuedNotEmpty = true := by
  cases pc <;> simp_all [DestroyerPc.issued, DestroyerPc.issuedNotEmpty]

theorem DestroyerPc.issued_of_joined {pc : DestroyerPc} (h : pc.joined = true) :
    pc.issued = true := by
  cases pc <;> simp_all [DestroyerPc.issued, DestroyerPc.joined]

/-! ## The two invariants -/

/-- Where the jobs are: `as` is the list from `head`. -/
structure Jobs (s : State n) (as : List Addr) : Prop where
  queue : LinkedQueue (nextOf s.heap) s.pool.head s.pool.tail as
  nodup : as.Nodup
  count : s.pool.queueCurNum = as.length
  bound : 0 ≤ s.pool.queueMaxNum → s.pool.queueCurNum ≤ s.pool.queueMaxNum
  content : s.accepted.map some = s.dequeued.map some ++ as.map (buffOf s.heap)
  held : ∀ w a k, (s.worker w).job = some (a, k) →
    a ∉ as ∧ k < s.dequeued.length ∧ buffOf s.heap a = s.dequeued[k]?
  heldAddr : ∀ w w' a k k', (s.worker w).job = some (a, k) →
    (s.worker w').job = some (a, k') → w = w'
  heldIndex : ∀ w w' a a' k, (s.worker w).job = some (a, k) →
    (s.worker w').job = some (a', k) → w = w'
  handedBuff : ∀ p ∈ s.handed, s.dequeued[p.1]? = some p.2
  handedNodup : (s.handed.map Prod.fst).Nodup
  handed : ∀ k < s.dequeued.length,
    k ∈ s.handed.map Prod.fst ↔ ∀ w a, s.worker w ≠ .took a k

/-- Who sleeps, and how far the shutdown has come. -/
structure Control (s : State n) : Prop where
  workerAsleep : ∀ w, s.worker w = .asleep → s.pool.queueCurNum = 0
  producerAsleep : ∀ i arg, s.producer i = .asleep arg →
    s.pool.queueCurNum = s.pool.queueMaxNum
  destroyerAsleep : ∀ d, s.destroyer d = .asleep → s.pool.queueCurNum ≠ 0
  closedEmpty : s.pool.poolClose = true →
    s.pool.queueCurNum = 0 ∧ s.pool.queueClose = true
  exited : ∀ w, s.worker w = .exited → s.pool.poolClose = true
  passedUnique : ∀ d d', (s.destroyer d).passed = true → (s.destroyer d').passed = true →
    d = d'
  passedClosed : ∀ d, (s.destroyer d).passed = true → s.pool.queueClose = true
  closing : ∀ d, (s.destroyer d).closing = true → s.pool.poolClose = true
  awake : ∀ d, (s.destroyer d).issuedNotEmpty = true → ∀ w, s.worker w ≠ .asleep
  joining : ∀ d i, s.destroyer d = .joining i → ∀ w : Fin n, w.val < i →
    s.worker w = .exited
  joined : ∀ d, (s.destroyer d).joined = true → ∀ w, s.worker w = .exited

/-- The invariant of the machine. -/
def Inv (s : State n) : Prop := Control s ∧ ∃ as, Jobs s as

theorem jobs_initial (queueMaxNum : ℤ) : Jobs (initial n queueMaxNum) [] where
  queue := LinkedQueue.empty _
  nodup := List.nodup_nil
  count := rfl
  bound h := h
  content := rfl
  held _ _ _ h := by cases h
  heldAddr _ _ _ _ _ h := by cases h
  heldIndex _ _ _ _ _ h := by cases h
  handedBuff _ h := by cases h
  handedNodup := List.nodup_nil
  handed k hk := by cases hk

theorem control_initial (queueMaxNum : ℤ) : Control (initial n queueMaxNum) where
  workerAsleep _ h := by cases h
  producerAsleep _ _ h := by cases h
  destroyerAsleep _ h := by cases h
  closedEmpty h := by cases h
  exited _ h := by cases h
  passedUnique _ _ h := by cases h
  passedClosed _ h := by cases h
  closing _ h := by cases h
  awake _ h := by cases h
  joining _ _ h := by cases h
  joined _ h := by cases h

end Tdm.Threadpool
