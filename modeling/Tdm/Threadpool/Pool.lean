import Tdm.Lib.CArray
import Tdm.Lib.System
import Mathlib.Logic.Function.Basic
import Mathlib.Data.Fintype.Basic

/-!
# The thread pool of `threadpool.c`

`threadpool_add_job`, `threadpool_function` and `threadpool_destroy` share one `struct
threadpool` under one mutex. A thread that holds the mutex runs alone until it unlocks or
falls asleep in `pthread_cond_wait`, so each such stretch of code is one function of the
pool (`threadpoolAddJob`, `threadpoolFunction`, `threadpoolDestroy`, `drain`) and one step
of the machine; between steps the mutex is free. What happens outside the mutex is a step
of its own: running the callback, freeing the job, the two broadcasts `threadpool_destroy`
issues after unlocking, every `pthread_join`, and the final freeing loop.

The outcomes the environment chooses are part of a step: which free address `malloc`
returns or that it fails, which sleeper a signal wakes, and spurious wake-ups. A stretch
of code that dereferences `NULL` or a freed job has undefined behaviour: it may lead to
any state whatever (`Step.addJobUndef`, `Step.workUndef`, `Step.callbackUndef`), so an
invariant of the machine excludes it.

`accepted`, `dequeued` and `handed` are history: the buffers of the calls that returned 0
in the order they held the mutex, the buffers taken off the list in that order, and what
the callback was called with, each with its position in `dequeued`.
-/

namespace Tdm.Threadpool

open Tdm.Lib

/-! ## Data -/

/-- Addresses `malloc` returns. -/
abbrev Addr := ℕ

/-- The size of `char Buff[1024]` in `struct job`. -/
def buffSize : ℕ := 1024

abbrev Buff := CArray buffSize

/-- `struct job`. -/
structure Job where
  buff : Buff
  next : Option Addr

/-- The jobs that are allocated. -/
abbrev Heap := Addr → Option Job

/-- The `arg` and `len` of a call to `threadpool_add_job`; `memcpy` copies `len` bytes
into `Buff`, so `len` is at most its size. -/
structure Arg where
  bytes : List UInt8
  fits : bytes.length ≤ buffSize

/-- `memset(pjob, 0, sizeof(struct job)); memcpy(pjob->Buff, arg, len)`. -/
def Arg.buff (arg : Arg) : Buff := (CArray.zero buffSize).overlay arg.bytes arg.fits

/-- `struct threadpool`, less the threads and the synchronisation objects. -/
structure Pool where
  queueMaxNum : ℤ
  head : Option Addr
  tail : Option Addr
  queueCurNum : ℤ
  queueClose : Bool
  poolClose : Bool

/-- The pool `threadpool_init` returns. -/
def threadpoolInit (queueMaxNum : ℤ) : Pool where
  queueMaxNum := queueMaxNum
  head := none
  tail := none
  queueCurNum := 0
  queueClose := false
  poolClose := false

/-- `p->next = v`; undefined when `p` is not a live job. -/
def setNext (heap : Heap) (p v : Option Addr) : Option Heap :=
  match p with
  | none => none
  | some a =>
    match heap a with
    | none => none
    | some job => some (Function.update heap a (some { job with next := v }))

/-! ## What a thread does while it holds the mutex -/

/-- How a stretch of `threadpool_add_job` ends: asleep on `queue_not_full`, or with a
return value and possibly a broadcast on `queue_not_empty`. -/
inductive AddOutcome
  | wait
  | ret (r : ℤ) (broadcastNotEmpty : Bool)

/-- `threadpool_add_job` from the loop test, which is where both the first lock and a
wake-up continue, to the unlock or the wait. -/
def threadpoolAddJob (pool : Pool) (heap : Heap) (arg : Arg) (malloc : Option Addr) :
    Option (Pool × Heap × AddOutcome) :=
  if pool.queueCurNum = pool.queueMaxNum ∧ ¬ (pool.queueClose || pool.poolClose) then
    some (pool, heap, .wait)
  else if pool.queueClose || pool.poolClose then
    some (pool, heap, .ret (-1) false)
  else
    match malloc with
    | none => some (pool, heap, .ret (-1) false)
    | some pjob =>
      let heap := Function.update heap pjob (some ⟨arg.buff, none⟩)
      match pool.head with
      | none =>
        some ({ pool with head := some pjob, tail := some pjob,
                          queueCurNum := pool.queueCurNum + 1 }, heap, .ret 0 true)
      | some _ =>
        match setNext heap pool.tail (some pjob) with
        | none => none
        | some heap =>
          some ({ pool with tail := some pjob, queueCurNum := pool.queueCurNum + 1 },
            heap, .ret 0 false)

/-- How a stretch of `threadpool_function` ends: asleep on `queue_not_empty`, in
`pthread_exit`, or with a job to run and the notifications sent on the way. -/
inductive WorkOutcome
  | wait
  | exit
  | job (pjob : Addr) (signalEmpty broadcastNotFull : Bool)

/-- One turn of `threadpool_function`, from its inner loop test to the unlock or the wait.
`pjob` is dereferenced here or, for the last job, by the callback right after. -/
def threadpoolFunction (pool : Pool) (heap : Heap) : Option (Pool × WorkOutcome) :=
  if pool.queueCurNum = 0 ∧ ¬ pool.poolClose then some (pool, .wait)
  else if pool.poolClose then some (pool, .exit)
  else
    let cur := pool.queueCurNum - 1
    match pool.head with
    | none => none
    | some pjob =>
      match heap pjob with
      | none => none
      | some job =>
        some (if cur = 0 then { pool with queueCurNum := cur, head := none, tail := none }
            else { pool with queueCurNum := cur, head := job.next },
          .job pjob (cur = 0) (cur = pool.queueMaxNum - 1))

/-- How a stretch of `threadpool_destroy` ends: asleep on `queue_empty`, with a return
value, or unlocked with `pool_close` set. -/
inductive DestroyOutcome
  | wait
  | ret (r : ℤ)
  | closed

/-- The waiting loop of `threadpool_destroy` and what follows it up to the unlock. -/
def drain (pool : Pool) : Pool × DestroyOutcome :=
  if pool.queueCurNum ≠ 0 then (pool, .wait) else ({ pool with poolClose := true }, .closed)

/-- `threadpool_destroy` from its lock. -/
def threadpoolDestroy (pool : Pool) : Pool × DestroyOutcome :=
  if pool.queueClose || pool.poolClose then (pool, .ret (-1))
  else drain { pool with queueClose := true }

/-! ## Program points

`asleep` is a thread inside `pthread_cond_wait` that nothing has woken; `woken` is one
that was notified, or woke spuriously, and is waiting for the mutex. -/

/-- A caller of `threadpool_add_job`. -/
inductive ProducerPc
  | idle
  | entry (arg : Arg)
  | asleep (arg : Arg)
  | woken (arg : Arg)
  | returned (r : ℤ)

/-- A worker. `took pjob k` has unlocked with job `pjob`, the `k`-th ever dequeued;
`callback pjob k` is inside the callback. -/
inductive WorkerPc
  | top
  | asleep
  | woken
  | took (pjob : Addr) (k : ℕ)
  | callback (pjob : Addr) (k : ℕ)
  | exited

/-- A caller of `threadpool_destroy`. `joining i` waits for worker `i`. -/
inductive DestroyerPc
  | idle
  | entry
  | asleep
  | woken
  | broadcastNotEmpty
  | broadcastNotFull
  | joining (i : ℕ)
  | freeing
  | returned (r : ℤ)

def ProducerPc.wake : ProducerPc → ProducerPc
  | .asleep arg => .woken arg
  | pc => pc

def WorkerPc.wake : WorkerPc → WorkerPc
  | .asleep => .woken
  | pc => pc

/-- `pthread_cond_signal(&queue_empty)`: if anyone sleeps there, one of them wakes. -/
def SignalEmpty (f f' : ℕ → DestroyerPc) : Prop :=
  (∃ d, f d = .asleep ∧ f' = Function.update f d .woken) ∨ ((∀ d, f d ≠ .asleep) ∧ f' = f)

/-! ## The machine -/

/-- A pool with `n` workers and any number of callers. -/
structure State (n : ℕ) where
  pool : Pool
  heap : Heap
  producer : ℕ → ProducerPc
  worker : Fin n → WorkerPc
  destroyer : ℕ → DestroyerPc
  freed : Bool
  accepted : List Buff
  dequeued : List Buff
  handed : List (ℕ × Buff)

/-- The state `threadpool_init` leaves: every worker is about to lock. -/
def initial (n : ℕ) (queueMaxNum : ℤ) : State n where
  pool := threadpoolInit queueMaxNum
  heap := fun _ => none
  producer := fun _ => .idle
  worker := fun _ => .top
  destroyer := fun _ => .idle
  freed := false
  accepted := []
  dequeued := []
  handed := []

/-- Who moves. -/
inductive Label (n : ℕ)
  | producer (i : ℕ)
  | worker (w : Fin n)
  | destroyer (d : ℕ)

/-- The steps of the machine. The pool is not used after `free(pool)`: every step of a
thread that works on it happens before. -/
inductive Step {n : ℕ} (s : State n) : Label n → State n → Prop
  /-- A call to `threadpool_add_job` begins. -/
  | call (i : ℕ) (arg : Arg) (hlive : s.freed = false)
      (hpc : s.producer i = .idle ∨ ∃ r, s.producer i = .returned r) :
      Step s (.producer i) { s with producer := Function.update s.producer i (.entry arg) }
  /-- The caller finds the queue full and falls asleep. -/
  | addJobWait (i : ℕ) (arg : Arg) (malloc : Option Addr) (pool : Pool) (heap : Heap)
      (hlive : s.freed = false)
      (hpc : s.producer i = .entry arg ∨ s.producer i = .woken arg)
      (hrun : threadpoolAddJob s.pool s.heap arg malloc = some (pool, heap, .wait)) :
      Step s (.producer i)
        { s with pool := pool, heap := heap
                 producer := Function.update s.producer i (.asleep arg) }
  /-- The caller returns, with 0 if its buffer was accepted. -/
  | addJobRet (i : ℕ) (arg : Arg) (malloc : Option Addr) (pool : Pool) (heap : Heap)
      (r : ℤ) (broadcastNotEmpty : Bool) (hlive : s.freed = false)
      (hpc : s.producer i = .entry arg ∨ s.producer i = .woken arg)
      (hmalloc : ∀ a, malloc = some a → s.heap a = none)
      (hrun : threadpoolAddJob s.pool s.heap arg malloc
        = some (pool, heap, .ret r broadcastNotEmpty)) :
      Step s (.producer i)
        { s with pool := pool, heap := heap
                 producer := Function.update s.producer i (.returned r)
                 worker := if broadcastNotEmpty then fun w => (s.worker w).wake else s.worker
                 accepted := if r = 0 then s.accepted ++ [arg.buff] else s.accepted }
  | addJobUndef (i : ℕ) (arg : Arg) (malloc : Option Addr) (s' : State n)
      (hlive : s.freed = false)
      (hpc : s.producer i = .entry arg ∨ s.producer i = .woken arg)
      (hmalloc : ∀ a, malloc = some a → s.heap a = none)
      (hrun : threadpoolAddJob s.pool s.heap arg malloc = none) :
      Step s (.producer i) s'
  | producerSpurious (i : ℕ) (arg : Arg) (hpc : s.producer i = .asleep arg) :
      Step s (.producer i) { s with producer := Function.update s.producer i (.woken arg) }
  | workWait (w : Fin n) (pool : Pool) (hlive : s.freed = false)
      (hpc : s.worker w = .top ∨ s.worker w = .woken)
      (hrun : threadpoolFunction s.pool s.heap = some (pool, .wait)) :
      Step s (.worker w)
        { s with pool := pool, worker := Function.update s.worker w .asleep }
  | workExit (w : Fin n) (pool : Pool) (hlive : s.freed = false)
      (hpc : s.worker w = .top ∨ s.worker w = .woken)
      (hrun : threadpoolFunction s.pool s.heap = some (pool, .exit)) :
      Step s (.worker w)
        { s with pool := pool, worker := Function.update s.worker w .exited }
  /-- The worker takes the first job and sends the notifications due. -/
  | workJob (w : Fin n) (pool : Pool) (pjob : Addr) (job : Job)
      (signalEmpty broadcastNotFull : Bool) (destroyer : ℕ → DestroyerPc)
      (hlive : s.freed = false)
      (hpc : s.worker w = .top ∨ s.worker w = .woken)
      (hrun : threadpoolFunction s.pool s.heap
        = some (pool, .job pjob signalEmpty broadcastNotFull))
      (hjob : s.heap pjob = some job)
      (hsignal : if signalEmpty then SignalEmpty s.destroyer destroyer
        else destroyer = s.destroyer) :
      Step s (.worker w)
        { s with pool := pool
                 worker := Function.update s.worker w (.took pjob s.dequeued.length)
                 destroyer := destroyer
                 producer := if broadcastNotFull then fun i => (s.producer i).wake
                   else s.producer
                 dequeued := s.dequeued ++ [job.buff] }
  | workUndef (w : Fin n) (s' : State n) (hlive : s.freed = false)
      (hpc : s.worker w = .top ∨ s.worker w = .woken)
      (hrun : threadpoolFunction s.pool s.heap = none) :
      Step s (.worker w) s'
  | workerSpurious (w : Fin n) (hpc : s.worker w = .asleep) :
      Step s (.worker w) { s with worker := Function.update s.worker w .woken }
  /-- `(*(pool->callback_function))(pjob->Buff)` begins. -/
  | callback (w : Fin n) (pjob : Addr) (k : ℕ) (job : Job)
      (hpc : s.worker w = .took pjob k) (hjob : s.heap pjob = some job) :
      Step s (.worker w)
        { s with worker := Function.update s.worker w (.callback pjob k)
                 handed := s.handed ++ [(k, job.buff)] }
  | callbackUndef (w : Fin n) (pjob : Addr) (k : ℕ) (s' : State n)
      (hpc : s.worker w = .took pjob k) (hjob : s.heap pjob = none) :
      Step s (.worker w) s'
  /-- The callback has returned; `free(pjob)`. -/
  | finish (w : Fin n) (pjob : Addr) (k : ℕ) (hpc : s.worker w = .callback pjob k) :
      Step s (.worker w)
        { s with heap := Function.update s.heap pjob none
                 worker := Function.update s.worker w .top }
  | destroyCall (d : ℕ) (hlive : s.freed = false)
      (hpc : s.destroyer d = .idle ∨ s.destroyer d = .returned (-1)) :
      Step s (.destroyer d) { s with destroyer := Function.update s.destroyer d .entry }
  | destroyRet (d : ℕ) (pool : Pool) (r : ℤ) (hlive : s.freed = false)
      (hpc : s.destroyer d = .entry)
      (hrun : threadpoolDestroy s.pool = (pool, .ret r)) :
      Step s (.destroyer d)
        { s with pool := pool, destroyer := Function.update s.destroyer d (.returned r) }
  | destroyWait (d : ℕ) (pool : Pool) (hlive : s.freed = false)
      (hrun : s.destroyer d = .entry ∧ threadpoolDestroy s.pool = (pool, .wait) ∨
        s.destroyer d = .woken ∧ drain s.pool = (pool, .wait)) :
      Step s (.destroyer d)
        { s with pool := pool, destroyer := Function.update s.destroyer d .asleep }
  | destroyClosed (d : ℕ) (pool : Pool) (hlive : s.freed = false)
      (hrun : s.destroyer d = .entry ∧ threadpoolDestroy s.pool = (pool, .closed) ∨
        s.destroyer d = .woken ∧ drain s.pool = (pool, .closed)) :
      Step s (.destroyer d)
        { s with pool := pool
                 destroyer := Function.update s.destroyer d .broadcastNotEmpty }
  | destroyerSpurious (d : ℕ) (hpc : s.destroyer d = .asleep) :
      Step s (.destroyer d) { s with destroyer := Function.update s.destroyer d .woken }
  | broadcastNotEmpty (d : ℕ) (hpc : s.destroyer d = .broadcastNotEmpty) :
      Step s (.destroyer d)
        { s with worker := fun w => (s.worker w).wake
                 destroyer := Function.update s.destroyer d .broadcastNotFull }
  | broadcastNotFull (d : ℕ) (hpc : s.destroyer d = .broadcastNotFull) :
      Step s (.destroyer d)
        { s with producer := fun i => (s.producer i).wake
                 destroyer := Function.update s.destroyer d (.joining 0) }
  /-- `pthread_join(pool->pthreads[i], NULL)` returns. -/
  | join (d : ℕ) (i : Fin n) (hpc : s.destroyer d = .joining i)
      (hexit : s.worker i = .exited) :
      Step s (.destroyer d)
        { s with destroyer := Function.update s.destroyer d (.joining (i + 1)) }
  | joined (d : ℕ) (hpc : s.destroyer d = .joining n) :
      Step s (.destroyer d) { s with destroyer := Function.update s.destroyer d .freeing }
  /-- One turn of the final loop that frees the jobs still on the list. -/
  | freeJob (d : ℕ) (p : Addr) (job : Job) (hpc : s.destroyer d = .freeing)
      (hhead : s.pool.head = some p) (hjob : s.heap p = some job) :
      Step s (.destroyer d)
        { s with pool := { s.pool with head := job.next }
                 heap := Function.update s.heap p none }
  | freeJobUndef (d : ℕ) (p : Addr) (s' : State n) (hpc : s.destroyer d = .freeing)
      (hhead : s.pool.head = some p) (hjob : s.heap p = none) :
      Step s (.destroyer d) s'
  /-- `free(pool)` and the return. -/
  | freePool (d : ℕ) (hpc : s.destroyer d = .freeing) (hhead : s.pool.head = none) :
      Step s (.destroyer d)
        { s with freed := true, destroyer := Function.update s.destroyer d (.returned 0) }

/-- The pool with `n` workers and room for `queueMaxNum` jobs. -/
def machine (n : ℕ) (queueMaxNum : ℤ) : System (State n) (Label n) where
  init s := s = initial n queueMaxNum
  step := Step

end Tdm.Threadpool
