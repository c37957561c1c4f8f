import Tdm.Lib.CArray
import Tdm.Lib.System
import Mathlib.Logic.Function.Basic
import Mathlib.Data.Set.Basic

/-!
# The worker threads of `thread.c`

Two groups of workers serve two queues each of their own: `RT_POOL_NUM` connection workers
run `thread_libevent_process`, `POOL_NUM` log workers run `work_func`. A dispatcher
(`dispatch_conn_new` for the one group, `conn_new_func_worker` for the other) gets an item
from the group's free list, fills it, pushes it to the next worker's queue and writes one
byte to that worker's pipe; the worker's handler reads the byte, pops an item, works on it
and puts it back on the free list.

Every stretch of code under a mutex is one step of the machine, and so is every access to
`last_thread`, which no mutex protects, and every read and write of a pipe. Storing into
an item that only the running thread knows is done together with the step next to it.
Addresses count items, so that the items of a block have consecutive ones. The fields of a fresh block hold whatever `malloc` left there. A pointer that does not lead to
an allocated item, an index outside `threads` and a text without terminator are undefined
behaviour (`Undef`) and may lead to any state.

`dispatched` and `processed` are history: what was pushed to which worker, in the order of
the pushes, and what each handler worked on.
-/

namespace Tdm.Thread

open Tdm.Lib

/-! ## Data -/

def itemsPerAlloc : ℕ := 128
def rtPoolNum : ℕ := 20
def poolNum : ℕ := 10
def dataBufferSize : ℕ := 1024

/-- `enum conn_states`. -/
inductive ConnStates
  | connListening | connNewCmd | connWaiting | connRead | connParseCmd | connWrite
  | connNread | connSwallow | connClosing | connMwrite | connClosed | connMaxState
deriving DecidableEq

/-- `enum conn_queue_item_modes`. -/
inductive ConnQueueItemModes
  | queueNewConn | queueRedispatch
deriving DecidableEq

/-- `struct conn_queue_item`. -/
structure CqItem where
  sfd : ℤ
  initState : ConnStates
  eventFlags : ℤ
  mode : ConnQueueItemModes
  buff : CArray dataBufferSize
  next : Option ℕ

/-- `memset(item, 0, sizeof(CQ_ITEM))`. -/
def CqItem.zero : CqItem where
  sfd := 0
  initState := .connListening
  eventFlags := 0
  mode := .queueNewConn
  buff := CArray.zero dataBufferSize
  next := none

/-- The items that are allocated. -/
abbrev Heap := ℕ → Option CqItem

/-- `struct conn_queue`. -/
structure Cq where
  head : Option ℕ
  tail : Option ℕ

/-- The two groups of workers. -/
inductive Kind
  | conn | work
deriving DecidableEq

/-- The number of workers of a group. -/
def Kind.num : Kind → ℕ
  | .conn => rtPoolNum
  | .work => poolNum

/-- The byte a dispatcher writes to the notify pipe: `'c'` or `'l'`. -/
def Kind.byte : Kind → UInt8
  | .conn => 99
  | .work => 108

/-- `threads + idx` or `threads_work + idx`. -/
structure Worker where
  kind : Kind
  idx : ℕ
deriving DecidableEq

/-- The argument of `conn_new_func_worker`. Its caller passes a buffer of 256 bytes. -/
structure Text where
  bytes : List UInt8
  noNul : 0 ∉ bytes
  fits : bytes.length < dataBufferSize

/-- What a handler works on: the arguments it calls `conn_new` with, or the text it
prints. -/
inductive Msg
  | conn (sfd : ℤ) (initState : ConnStates) (eventFlags : ℤ)
  | log (text : List UInt8)

/-- A call to one of the two dispatching functions. -/
inductive Call
  | dispatchConnNew (sfd : ℤ) (initState : ConnStates) (eventFlags : ℤ)
  | connNewFuncWorker (buff : Text)

def Call.kind : Call → Kind
  | .dispatchConnNew .. => .conn
  | .connNewFuncWorker _ => .work

/-- What the call asks a worker to work on. -/
def Call.msg : Call → Msg
  | .dispatchConnNew sfd initState eventFlags => .conn sfd initState eventFlags
  | .connNewFuncWorker buff => .log buff.bytes

/-- What the call stores into its item. -/
def Call.fill : Call → CqItem → CqItem
  | .dispatchConnNew sfd initState eventFlags, item =>
    { item with sfd := sfd, initState := initState, eventFlags := eventFlags
                mode := .queueNewConn }
  | .connNewFuncWorker buff, item =>
    { item with buff := item.buff.overlay buff.bytes (Nat.le_of_lt buff.fits) }

/-! ## Items and queues -/

/-- `a->next = v` for an allocated item. -/
def writeNext (heap : Heap) (a : ℕ) (v : Option ℕ) : Heap :=
  Function.update heap a ((heap a).map fun item => { item with next := v })

/-- `a->next = v`; undefined when `a` is not an allocated item. -/
def setNext (heap : Heap) (a : ℕ) (v : Option ℕ) : Option Heap :=
  if (heap a).isSome then some (writeNext heap a v) else none

/-- The first locked stretch of `cqi_new_base`: the new `*list` and the item taken. -/
def cqiNewPop (heap : Heap) (list : Option ℕ) : Option (Option ℕ × Option ℕ) :=
  match list with
  | none => some (none, none)
  | some a =>
    match heap a with
    | none => none
    | some item => some (item.next, some a)

/-- `malloc(sizeof(CQ_ITEM) * ITEMS_PER_ALLOC)` and the loop that links the block. -/
def cqiNewBlock (heap : Heap) (item : ℕ) (junk : ℕ → CqItem) : Heap :=
  (List.range' 2 (itemsPerAlloc - 2)).foldl
    (fun heap i => writeNext heap (item + (i - 1)) (some (item + i)))
    (fun a => if item ≤ a ∧ a < item + itemsPerAlloc then some (junk (a - item)) else heap a)

/-- The second locked stretch of `cqi_new_base`. -/
def cqiNewSplice (heap : Heap) (list : Option ℕ) (item : ℕ) :
    Option (Heap × Option ℕ) :=
  match setNext heap (item + (itemsPerAlloc - 1)) list with
  | none => none
  | some heap => some (heap, some (item + 1))

/-- `cqi_free_base`. -/
def cqiFreeBase (heap : Heap) (list : Option ℕ) (item : ℕ) :
    Option (Heap × Option ℕ) :=
  match setNext heap item list with
  | none => none
  | some heap => some (heap, some item)

/-- `cq_push`. -/
def cqPush (heap : Heap) (cq : Cq) (item : ℕ) : Option (Heap × Cq) :=
  match setNext heap item none with
  | none => none
  | some heap =>
    match cq.tail with
    | none => some (heap, { head := some item, tail := some item })
    | some t =>
      match setNext heap t (some item) with
      | none => none
      | some heap => some (heap, { cq with tail := some item })

/-- `cq_pop`. -/
def cqPop (heap : Heap) (cq : Cq) : Option (Cq × Option ℕ) :=
  match cq.head with
  | none => some (cq, none)
  | some a =>
    match heap a with
    | none => none
    | some item =>
      some ({ head := item.next, tail := if item.next = none then none else cq.tail }, some a)

/-! ## Handlers -/

/-- Whether the handler goes on to `cq_pop` after it read `b`:
`thread_libevent_process` does so for `'c'` only, `work_func` always. -/
def pops : Kind → UInt8 → Bool
  | .conn, b => b = Kind.conn.byte
  | .work, _ => true

/-- What the handler does with an item it popped after reading `b`. -/
def handle : Kind → UInt8 → CqItem → Option (Option Msg)
  | .conn, _, item =>
    match item.mode with
    | .queueNewConn => some (some (.conn item.sfd item.initState item.eventFlags))
    | .queueRedispatch => some none
  | .work, b, item =>
    if b = Kind.work.byte then item.buff.cstr.map fun text => some (.log text)
    else some none

/-! ## Program points -/

/-- A thread that dispatches. -/
inductive DispatcherPc
  | idle
  /-- About to lock the free list. -/
  | entry (c : Call)
  /-- The free list was empty; about to allocate. -/
  | grow (c : Call)
  /-- Has a block and is about to put all of it but the first item on the free list. -/
  | splice (c : Call) (item : ℕ)
  | got (c : Call) (item : ℕ)
  /-- Has read `last_thread`. -/
  | loaded (c : Call) (item : ℕ) (tid : ℤ)
  /-- Has written `last_thread` and filled the item. -/
  | filled (c : Call) (item : ℕ) (tid : ℤ)
  /-- Has pushed to `w` and is about to write its byte. -/
  | pushed (w : Worker)

/-- A worker's handler. -/
inductive HandlerPc
  | idle
  | read (b : UInt8)
  | popped (b : UInt8) (item : ℕ)
  | done (item : ℕ)

/-- Where a dispatcher goes on with what it found on the free list. -/
def DispatcherPc.taken (c : Call) : Option ℕ → DispatcherPc
  | some item => .got c item
  | none => .grow c

/-- Where a handler goes on with what `cq_pop` returned. -/
def HandlerPc.taken (b : UInt8) : Option ℕ → HandlerPc
  | some item => .popped b item
  | none => .idle

/-! ## The machine -/

structure State where
  heap : Heap
  freelist : Kind → Option ℕ
  lastThread : Kind → ℤ
  queue : Worker → Cq
  pipe : Worker → List UInt8
  dispatcher : ℕ → DispatcherPc
  handler : Worker → HandlerPc
  dispatched : Kind → List (ℕ × Msg)
  processed : Worker → List Msg

/-- The state `thread_init_pool` leaves. -/
def initial : State where
  heap := fun _ => none
  freelist := fun _ => none
  lastThread := fun _ => -1
  queue := fun _ => ⟨none, none⟩
  pipe := fun _ => []
  dispatcher := fun _ => .idle
  handler := fun _ => .idle
  dispatched := fun _ => []
  processed := fun _ => []

/-- What was pushed to `w`, in the order of the pushes. -/
def State.pushed (s : State) (w : Worker) : List Msg :=
  ((s.dispatched w.kind).filter (·.1 = w.idx)).map Prod.snd

/-- Who moves. -/
inductive Label
  | dispatcher (i : ℕ)
  | handler (w : Worker)

/-- The next stretch of code of a thread has undefined behaviour. -/
inductive Undef (s : State) : Label → Prop
  | takeFree (i : ℕ) (c : Call) (hpc : s.dispatcher i = .entry c)
      (hrun : cqiNewPop s.heap (s.freelist c.kind) = none) : Undef s (.dispatcher i)
  | splice (i : ℕ) (c : Call) (item : ℕ) (hpc : s.dispatcher i = .splice c item)
      (hrun : cqiNewSplice s.heap (s.freelist c.kind) item = none) : Undef s (.dispatcher i)
  | load (i : ℕ) (c : Call) (item : ℕ) (hpc : s.dispatcher i = .got c item)
      (hitem : s.heap item = none) : Undef s (.dispatcher i)
  | store (i : ℕ) (c : Call) (item : ℕ) (tid : ℤ)
      (hpc : s.dispatcher i = .loaded c item tid) (hitem : s.heap item = none) :
      Undef s (.dispatcher i)
  | thread (i : ℕ) (c : Call) (item : ℕ) (tid : ℤ)
      (hpc : s.dispatcher i = .filled c item tid) (htid : ¬ (0 ≤ tid ∧ tid < c.kind.num)) :
      Undef s (.dispatcher i)
  | push (i : ℕ) (c : Call) (item : ℕ) (tid : ℤ)
      (hpc : s.dispatcher i = .filled c item tid)
      (hrun : cqPush s.heap (s.queue ⟨c.kind, tid.toNat⟩) item = none) :
      Undef s (.dispatcher i)
  | pop (w : Worker) (b : UInt8) (hpc : s.handler w = .read b)
      (hrun : cqPop s.heap (s.queue w) = none) : Undef s (.handler w)
  | process (w : Worker) (b : UInt8) (a : ℕ) (hpc : s.handler w = .popped b a)
      (hitem : ∀ item, s.heap a = some item → handle w.kind b item = none) :
      Undef s (.handler w)
  | free (w : Worker) (a : ℕ) (hpc : s.handler w = .done a)
      (hrun : cqiFreeBase s.heap (s.freelist w.kind) a = none) : Undef s (.handler w)

/-- The steps of the machine; `main` are the threads that call `dispatch_conn_new`. -/
inductive Step (main : Set ℕ) (s : State) : Label → State → Prop
  | call (i : ℕ) (c : Call) (hpc : s.dispatcher i = .idle)
      (hmain : c.kind = .conn → i ∈ main) :
      Step main s (.dispatcher i)
        { s with dispatcher := Function.update s.dispatcher i (.entry c) }
  | takeFree (i : ℕ) (c : Call) (list item : Option ℕ)
      (hpc : s.dispatcher i = .entry c)
      (hrun : cqiNewPop s.heap (s.freelist c.kind) = some (list, item)) :
      Step main s (.dispatcher i)
        { s with freelist := Function.update s.freelist c.kind list
                 dispatcher := Function.update s.dispatcher i (.taken c item) }
  /-- `malloc` fails; the call gives up. -/
  | mallocFail (i : ℕ) (c : Call) (hpc : s.dispatcher i = .grow c) :
      Step main s (.dispatcher i)
        { s with dispatcher := Function.update s.dispatcher i .idle }
  | malloc (i : ℕ) (c : Call) (item : ℕ) (junk : ℕ → CqItem)
      (hpc : s.dispatcher i = .grow c)
      (hfree : ∀ j < itemsPerAlloc, s.heap (item + j) = none) :
      Step main s (.dispatcher i)
        { s with heap := cqiNewBlock s.heap item junk
                 dispatcher := Function.update s.dispatcher i (.splice c item) }
  | splice (i : ℕ) (c : Call) (item : ℕ) (heap : Heap) (list : Option ℕ)
      (hpc : s.dispatcher i = .splice c item)
      (hrun : cqiNewSplice s.heap (s.freelist c.kind) item = some (heap, list)) :
      Step main s (.dispatcher i)
        { s with heap := heap, freelist := Function.update s.freelist c.kind list
                 dispatcher := Function.update s.dispatcher i (.got c item) }
  /-- The `memset` of `cqi_new_base`, and `(last_thread + 1) % n`. -/
  | load (i : ℕ) (c : Call) (item : ℕ) (old : CqItem)
      (hpc : s.dispatcher i = .got c item) (hitem : s.heap item = some old) :
      Step main s (.dispatcher i)
        { s with heap := Function.update s.heap item (some CqItem.zero)
                 dispatcher := Function.update s.dispatcher i
                   (.loaded c item ((s.lastThread c.kind + 1).tmod c.kind.num)) }
  /-- `last_thread = tid`, and the fields of the item. -/
  | store (i : ℕ) (c : Call) (item : ℕ) (tid : ℤ) (old : CqItem)
      (hpc : s.dispatcher i = .loaded c item tid) (hitem : s.heap item = some old) :
      Step main s (.dispatcher i)
        { s with heap := Function.update s.heap item (some (c.fill old))
                 lastThread := Function.update s.lastThread c.kind tid
                 dispatcher := Function.update s.dispatcher i (.filled c item tid) }
  | push (i : ℕ) (c : Call) (item : ℕ) (tid : ℤ) (heap : Heap) (cq : Cq)
      (hpc : s.dispatcher i = .filled c item tid) (htid : 0 ≤ tid ∧ tid < c.kind.num)
      (hrun : cqPush s.heap (s.queue ⟨c.kind, tid.toNat⟩) item = some (heap, cq)) :
      Step main s (.dispatcher i)
        { s with heap := heap
                 queue := Function.update s.queue ⟨c.kind, tid.toNat⟩ cq
                 dispatched := Function.update s.dispatched c.kind
                   (s.dispatched c.kind ++ [(tid.toNat, c.msg)])
                 dispatcher := Function.update s.dispatcher i
                   (.pushed ⟨c.kind, tid.toNat⟩) }
  /-- The one-byte `write` to the notify pipe. -/
  | notify (i : ℕ) (w : Worker) (hpc : s.dispatcher i = .pushed w) :
      Step main s (.dispatcher i)
        { s with pipe := Function.update s.pipe w (s.pipe w ++ [w.kind.byte])
                 dispatcher := Function.update s.dispatcher i .idle }
  /-- The one-byte `read` of a handler that `libevent` called. -/
  | read (w : Worker) (b : UInt8) (rest : List UInt8) (hw : w.idx < w.kind.num)
      (hpc : s.handler w = .idle) (hpipe : s.pipe w = b :: rest) :
      Step main s (.handler w)
        { s with pipe := Function.update s.pipe w rest
                 handler := Function.update s.handler w (.read b) }
  | ignore (w : Worker) (b : UInt8) (hpc : s.handler w = .read b)
      (hb : pops w.kind b = false) :
      Step main s (.handler w)
        { s with handler := Function.update s.handler w .idle }
  | pop (w : Worker) (b : UInt8) (cq : Cq) (item : Option ℕ)
      (hpc : s.handler w = .read b) (hb : pops w.kind b = true)
      (hrun : cqPop s.heap (s.queue w) = some (cq, item)) :
      Step main s (.handler w)
        { s with queue := Function.update s.queue w cq
                 handler := Function.update s.handler w (.taken b item) }
  | process (w : Worker) (b : UInt8) (a : ℕ) (item : CqItem) (m : Option Msg)
      (hpc : s.handler w = .popped b a) (hitem : s.heap a = some item)
      (hrun : handle w.kind b item = some m) :
      Step main s (.handler w)
        { s with handler := Function.update s.handler w (.done a)
                 processed := Function.update s.processed w (s.processed w ++ m.toList) }
  | free (w : Worker) (a : ℕ) (heap : Heap) (list : Option ℕ)
      (hpc : s.handler w = .done a)
      (hrun : cqiFreeBase s.heap (s.freelist w.kind) a = some (heap, list)) :
      Step main s (.handler w)
        { s with heap := heap, freelist := Function.update s.freelist w.kind list
                 handler := Function.update s.handler w .idle }
  | undef (l : Label) (s' : State) (h : Undef s l) : Step main s l s'

/-- The workers of `thread.c`, with connections dispatched by the threads in `main`. -/
def machine (main : Set ℕ) : System State Label where
  init s := s = initial
  step := Step main

end Tdm.Thread
