import Tdm.Thread.Traffic
import Tdm.Device.Accept
import Tdm.Lib.Stations
import Mathlib.Order.CompletePartialOrder

/-!
# The connections of the server

`run` registers the listening socket with the event base of the main thread. An event on it makes
`do_accept` hand the new descriptor over to a connection worker, whose `thread_libevent_process`
registers it with the worker's own base in `conn_new`; from then on its events are handled by this
worker. `conns` keeps a `conn` for every descriptor that was ever registered and never frees it: when
`event_add` fails, or `cqi_new` has no memory, the descriptor is closed, and the kernel may give it
out again.

The machine is that of `thread.c` with the table, the descriptors of the server (`mine`) and those of
the rest of the process (`others`), which may come and go. A connection worker handles its pipe and
its events in one thread, that of dispatcher `idx + 1`; the main thread is dispatcher 0. `conn_new` is
undefined for a descriptor outside the table, and `event_set` must not be called on an event that is
still added.
-/

namespace Tdm.Server

open Tdm.Lib Tdm.Thread Tdm.Device

/-! ## The table -/

/-- Whose `event_base` it is. -/
inductive Base
  | main
  | worker (idx : ℕ)
deriving DecidableEq

/-- A `conn`. The last three are what `event` was set to, and whether it is added. -/
structure Conn where
  sfd : ℤ
  state : ConnStates
  eventFd : ℤ
  base : Base
  added : Bool

abbrev Conns := ℤ → Option Conn

/-- `conn_new`: the table, and whether a connection is returned. -/
def connNew (maxFds : ℤ) (conns : Conns) (sfd : ℤ) (initState : ConnStates) (base : Base)
    (calloc eventAdd : Bool) : Option (Conns × Bool) :=
  if 0 ≤ sfd ∧ sfd < maxFds then
    match conns sfd with
    | none =>
      if calloc then
        some (Function.update conns sfd (some ⟨sfd, initState, sfd, base, eventAdd⟩), eventAdd)
      else some (conns, false)
    | some c =>
      if c.added then none
      else
        -- `c->sfd` is what it was
        some (Function.update conns sfd
          (some { c with state := initState, eventFd := sfd, base := base, added := eventAdd }),
          eventAdd)
  else none

/-! ## The machine -/

structure Connections where
  threads : State
  conns : Conns
  mine : Set ℤ
  others : Set ℤ

/-- `close(fd)`, whoever has opened it. -/
def Connections.close (s : Connections) (fd : ℤ) : Connections :=
  { s with mine := s.mine \ {fd}, others := s.others \ {fd} }

/-- `conn_close` of the connection at `i`. -/
def Connections.connClose (s : Connections) (i : ℤ) (c : Conn) : Connections :=
  Connections.close { s with
    conns := Function.update s.conns i (some { c with state := .connClosed, added := false }) } c.sfd

/-- The dispatcher that runs the events of a base. -/
def Base.thread : Base → ℕ
  | .main => 0
  | .worker idx => idx + 1

/-- The event loop of the base waits for events. -/
def Connections.Waits (s : Connections) (base : Base) : Prop :=
  s.threads.dispatcher base.thread = .idle ∧
    ∀ idx, base = .worker idx → s.threads.handler ⟨.conn, idx⟩ = .idle

/-- `libevent` calls `event_handler(c->event.ev_fd, which, c)`. -/
structure Connections.Fires (s : Connections) (i : ℤ) (c : Conn) : Prop where
  conn : s.conns i = some c
  added : c.added = true
  waits : s.Waits c.base

/-- A thread begins a call. -/
def Connections.begin (s : Connections) (base : Base) (c : Call) : Connections :=
  { s with threads := { s.threads with
      dispatcher := Function.update s.threads.dispatcher base.thread (.entry c) } }

/-- A step of `thread.c` that is not seen outside: no call begins or is given up, and no connection
worker works on a message. -/
def Internal (s t : State) : Label → Prop
  | .dispatcher i => s.dispatcher i ≠ .idle ∧
      ∀ c, s.calls i = some c → c.kind = .conn → t.dispatcher i ≠ .idle
  | .handler w => w.kind = .conn →
      s.dispatcher (w.idx + 1) = .idle ∧ t.processed w = s.processed w

/-- `thread_libevent_process` of a connection worker gets to `conn_new`. -/
structure Connections.Serves (s : Connections) (idx : ℕ) (sfd : ℤ) (initState : ConnStates)
    (t : State) : Prop where
  step : Step {0} s.threads (.handler ⟨.conn, idx⟩) t
  alone : s.threads.dispatcher (idx + 1) = .idle
  message : ∃ eventFlags, t.processed ⟨.conn, idx⟩ =
    s.threads.processed ⟨.conn, idx⟩ ++ [.conn sfd initState eventFlags]

/-- `conn_new` is called with a descriptor outside the table or one whose event is still added. -/
def Undefined (maxFds : ℤ) (s : Connections) : Prop :=
  ∃ idx sfd initState t calloc eventAdd, s.Serves idx sfd initState t ∧
    connNew maxFds s.conns sfd initState (.worker idx) calloc eventAdd = none

/-- Who moves. -/
inductive Move
  | event (i : ℤ)
  | thread (l : Label)
  | outside

inductive ServerStep (maxFds : ℤ) (s : Connections) : Move → Connections → Prop
  /-- "Catastrophic: event fd doesn't match conn fd!", and `conn_close`. -/
  | mismatch (i : ℤ) (c : Conn) (hfires : s.Fires i c) (hfd : c.eventFd ≠ c.sfd) :
      ServerStep maxFds s (.event i) (s.connClose i c)
  /-- `do_accept` on a listening connection. Descriptors that cannot be set non-blocking are closed
  at once; `o` is the round that brings a usable one. The kernel gives out none beyond
  `RLIMIT_NOFILE`, which `conn_init` has made the size of the table. -/
  | accept (i : ℤ) (c : Conn) (o : AcceptRound) (hfires : s.Fires i c) (hfd : c.eventFd = c.sfd)
      (hstate : c.state = .connListening) (husable : setnonblocking o.sfd o.fcntl = 0)
      (hfree : o.sfd ∉ s.mine ∪ s.others) (hlimit : o.sfd < maxFds) :
      ServerStep maxFds s (.event i)
        { s.begin c.base (.dispatchConnNew o.sfd .connNewCmd (evRead + evPersist)) with
          mine := insert o.sfd s.mine }
  /-- `do_accept` on a connection of a worker: `socket_read_cb` hands a text to a log worker. -/
  | read (i : ℤ) (c : Conn) (buff : Text) (hfires : s.Fires i c) (hfd : c.eventFd = c.sfd)
      (hstate : c.state = .connNewCmd) :
      ServerStep maxFds s (.event i) (s.begin c.base (.connNewFuncWorker buff))
  | ignore (i : ℤ) (c : Conn) (hfires : s.Fires i c) (hfd : c.eventFd = c.sfd)
      (hstate : c.state ≠ .connListening ∧ c.state ≠ .connNewCmd) : ServerStep maxFds s (.event i) s
  | thread (l : Label) (t : State) (hstep : Step {0} s.threads l t)
      (hinternal : Internal s.threads t l) :
      ServerStep maxFds s (.thread l) { s with threads := t }
  /-- `dispatch_conn_new` finds no memory for an item and closes the descriptor. -/
  | giveUp (i : ℕ) (sfd : ℤ) (initState : ConnStates) (eventFlags : ℤ)
      (hpc : s.threads.dispatcher i = .grow (.dispatchConnNew sfd initState eventFlags)) :
      ServerStep maxFds s (.thread (.dispatcher i))
        (Connections.close { s with threads := { s.threads with
          dispatcher := Function.update s.threads.dispatcher i .idle } } sfd)
  | serve (idx : ℕ) (sfd : ℤ) (initState : ConnStates) (t : State) (calloc eventAdd : Bool)
      (conns : Conns) (hserves : s.Serves idx sfd initState t)
      (hrun : connNew maxFds s.conns sfd initState (.worker idx) calloc eventAdd =
        some (conns, true)) :
      ServerStep maxFds s (.thread (.handler ⟨.conn, idx⟩)) { s with threads := t, conns := conns }
  /-- "Can't listen for events on fd", and the descriptor is closed. -/
  | serveFailed (idx : ℕ) (sfd : ℤ) (initState : ConnStates) (t : State) (calloc eventAdd : Bool)
      (conns : Conns) (hserves : s.Serves idx sfd initState t)
      (hrun : connNew maxFds s.conns sfd initState (.worker idx) calloc eventAdd =
        some (conns, false)) :
      ServerStep maxFds s (.thread (.handler ⟨.conn, idx⟩))
        (Connections.close { s with threads := t, conns := conns } sfd)
  /-- The rest of the process opens and closes descriptors of its own. -/
  | outside (others : Set ℤ) (happart : Disjoint s.mine others) :
      ServerStep maxFds s .outside { s with others := others }
  | undef (idx : ℕ) (s' : Connections) (h : Undefined maxFds s) :
      ServerStep maxFds s (.thread (.handler ⟨.conn, idx⟩)) s'

/-- The server from the call of `event_base_loop` on. -/
def server (maxFds listener : ℤ) : System Connections Move where
  init s := s.threads = initial ∧
    connNew maxFds (fun _ => none) listener .connListening .main true true = some (s.conns, true) ∧
    s.mine = {listener} ∧ Disjoint s.mine s.others
  step := ServerStep maxFds

/-! ## Where a descriptor is -/

/-- The descriptor a message is about. -/
def msgSfd : Msg → Option ℤ
  | .conn sfd .. => some sfd
  | .log _ => none

/-- The connection a call hands over. -/
def connOf : Option Call → List Msg
  | some (.dispatchConnNew sfd initState eventFlags) => [.conn sfd initState eventFlags]
  | _ => []

/-- The descriptor whose event is added. -/
def registered : Option Conn → List ℤ
  | some c => if c.added then [c.sfd] else []
  | none => []

/-- The places a descriptor can be in. -/
inductive Station
  | dispatching
  | waiting (idx : ℕ)
  | registered (i : ℤ)
deriving DecidableEq

def placeOf (dispatching : List Msg) (waiting : ℕ → List Msg) (conns : Conns) : Station → List ℤ
  | .dispatching => dispatching.filterMap msgSfd
  | .waiting idx => (waiting idx).filterMap msgSfd
  | .registered i => registered (conns i)

/-- What the main thread hands over. -/
def Connections.dispatching (s : Connections) : List Msg := connOf (s.threads.calls 0)

/-- What waits for a connection worker. -/
def Connections.waiting (s : Connections) (idx : ℕ) : List Msg := s.threads.waiting ⟨.conn, idx⟩

/-- Where the descriptors of the server are. -/
def Connections.place (s : Connections) : Station → List ℤ :=
  placeOf s.dispatching s.waiting s.conns

section Place
variable (dispatching : List Msg) (waiting : ℕ → List Msg) (conns : Conns)

theorem placeOf_dispatching (l : List Msg) :
    placeOf l waiting conns =
      Function.update (placeOf dispatching waiting conns) .dispatching (l.filterMap msgSfd) := by
  funext o
  cases o with
  | dispatching => rw [Function.update_self]; rfl
  | _ => rfl

theorem placeOf_waiting (idx : ℕ) (l : List Msg) :
    placeOf dispatching (Function.update waiting idx l) conns =
      Function.update (placeOf dispatching waiting conns) (.waiting idx) (l.filterMap msgSfd) := by
  funext o
  cases o with
  | waiting idx' =>
    by_cases hidx : idx' = idx
    · subst hidx
      simp [placeOf]
    · simp [placeOf, hidx]
  | _ => simp [placeOf]

theorem placeOf_conns (i : ℤ) (c : Option Conn) :
    placeOf dispatching waiting (Function.update conns i c) =
      Function.update (placeOf dispatching waiting conns) (.registered i) (registered c) := by
  funext o
  cases o with
  | registered j =>
    by_cases hj : j = i
    · subst hj
      simp [placeOf]
    · simp [placeOf, hj]
  | _ => simp [placeOf]

end Place

/-- An update of what waits is one for the connection workers. -/
theorem waiting_update_conn (waiting : Worker → List Msg) (idx : ℕ) (l : List Msg) :
    (fun j => Function.update waiting ⟨.conn, idx⟩ l ⟨.conn, j⟩) =
      Function.update (fun j => waiting ⟨.conn, j⟩) idx l := by
  funext j
  by_cases hj : j = idx
  · subst hj
    rw [Function.update_self, Function.update_self]
  · rw [Function.update_of_ne hj, Function.update_of_ne (by simpa using hj)]

theorem waiting_update_work (waiting : Worker → List Msg) (idx : ℕ) (l : List Msg) :
    (fun j => Function.update waiting ⟨.work, idx⟩ l ⟨.conn, j⟩) = fun j => waiting ⟨.conn, j⟩ := by
  funext j
  rw [Function.update_of_ne (by simp)]

end Tdm.Server
