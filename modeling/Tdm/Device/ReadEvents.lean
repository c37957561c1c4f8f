import Tdm.Device.Accept
import Tdm.Device.RecvTheorems

/-!
# The events of a connection

A connection a worker has taken over is in state `conn_new_cmd`, and libevent calls `event_handler`
whenever its descriptor can be read. The handler reads one message in `socket_read_cb` and pushes the
text of it to a log worker; what `Coding_With_Recv_Data` returned is not looked at, so the connection
is not closed when the peer has gone. Only an event for another descriptor makes the handler call
`conn_close`.

The states of the system are those between two events. A message whose handling is undefined has no
step.
-/

namespace Tdm.Device

open Tdm.Lib Tdm.Common Tdm.Thread

/-- The fields of `conn` the handler works with. -/
structure Conn where
  sfd : ℤ
  state : ConnStates
  which : ℤ

/-- An event and what the system answers while it is handled: `msg` is what `read` delivers, empty
when it fails or reports the end of the stream, and `item` says whether there is an item for the log
worker. -/
structure Event where
  fd : ℤ
  which : ℤ
  rounds : ℕ → AcceptRound
  msg : List UInt8
  para : Session
  world : World
  item : Bool

/-- A read that was made, and the state its connection was left in. -/
structure ReadMade where
  msg : List UInt8
  item : Bool
  left : ConnStates

/-- A connection between two events. `registered` says whether its event is still added; `closes`,
`reads` and `pushed` are history. -/
structure Handler where
  conn : Conn
  registered : Bool
  registry : Registry
  closes : List ℤ
  reads : List ReadMade
  pushed : List Text

/-- `conn_set_state`. -/
def connSetState (c : Conn) (state : ConnStates) : Conn := { c with state := state }

/-- `conn_close`. -/
def connClose (s : Handler) : Handler :=
  { s with
    registered := false
    conn := connSetState s.conn .connClosed
    closes := s.closes ++ [s.conn.sfd] }

/-- `conn_new_func_worker`: what is pushed to a log worker. -/
def connNewFuncWorker (buff : Text) (item : Bool) : List Text := if item then [buff] else []

/-- `c->which = which`. -/
def Handler.arrive (s : Handler) (which : ℤ) : Handler :=
  { s with conn := { s.conn with which := which } }

/-- `event_handler`. -/
inductive EventHandler (s : Handler) (e : Event) : Handler → Prop
  -- "Catastrophic: event fd doesn't match conn fd!"
  | mismatch (h : e.fd ≠ s.conn.sfd) : EventHandler s e (connClose (s.arrive e.which))
  | idle {acts : List Act} (h : e.fd = s.conn.sfd)
    (hret : Loop.Returns (doAccept s.conn.state) e.rounds [] acts) (hread : .read ∉ acts) :
    EventHandler s e (s.arrive e.which)
  -- what `Coding_With_Recv_Data` returned has no influence on what follows
  | read {acts : List Act} {reaction : Reaction} {buff : Text} (h : e.fd = s.conn.sfd)
    (hret : Loop.Returns (doAccept s.conn.state) e.rounds [] acts) (hread : .read ∈ acts)
    (hcb : socketReadCb s.registry e.para s.conn.sfd e.world e.msg = some reaction)
    (hbuff : buff.bytes = reaction.log) :
    EventHandler s e
      { s.arrive e.which with
        registry := reaction.registry
        reads := s.reads ++ [⟨e.msg, e.item, s.conn.state⟩]
        pushed := s.pushed ++ connNewFuncWorker buff e.item }

/-- What `conn_new` sets up for a connection worker. -/
def connNew (sfd : ℤ) (registry : Registry) : Handler where
  conn := ⟨sfd, .connNewCmd, 0⟩
  registered := true
  registry := registry
  closes := []
  reads := []
  pushed := []

/-- The events of one connection; none arrives once its event has been deleted. -/
def connection : System Handler Event where
  init s := ∃ sfd registry, 0 ≤ sfd ∧ s = connNew sfd registry
  step s e s' := s.registered = true ∧ EventHandler s e s'

/-! ## What a run leaves -/

/-- The connection as every event leaves it: it is open until an event for another descriptor
comes, and a log item is pushed for every read for which there was one. -/
structure Handler.Inv (s : Handler) : Prop where
  state : s.conn.state = if s.registered then .connNewCmd else .connClosed
  closes : s.closes = if s.registered then [] else [s.conn.sfd]
  left : ∀ read ∈ s.reads, read.left = .connNewCmd
  pushed : s.pushed.length = s.reads.countP (·.item)

theorem inv_connNew (sfd : ℤ) (registry : Registry) : (connNew sfd registry).Inv where
  state := rfl
  closes := rfl
  left := fun _ hread => absurd hread List.not_mem_nil
  pushed := rfl

theorem length_connNewFuncWorker (buff : Text) (item : Bool) :
    (connNewFuncWorker buff item).length = if item then 1 else 0 := by
  unfold connNewFuncWorker
  cases item <;> rfl

theorem Handler.Inv.step {s s' : Handler} {e : Event} (hs : s.Inv) (hreg : s.registered = true)
    (h : EventHandler s e s') : s'.Inv := by
  have hstate : s.conn.state = .connNewCmd := by rw [hs.state, hreg]; rfl
  have hcloses : s.closes = [] := by rw [hs.closes, hreg]; rfl
  cases h with
  | mismatch h =>
    exact ⟨rfl, congrArg (· ++ [s.conn.sfd]) hcloses, hs.left, hs.pushed⟩
  | idle h hret hread => exact ⟨hs.state, hs.closes, hs.left, hs.pushed⟩
  | read h hret hread hcb hbuff =>
    refine ⟨hs.state, hs.closes, ?_, ?_⟩
    · intro read hmem
      rcases List.mem_append.mp hmem with hold | hnew
      · exact hs.left read hold
      · obtain rfl := List.mem_singleton.mp hnew
        exact hstate
    · rw [List.length_append, List.countP_append, hs.pushed, length_connNewFuncWorker,
        List.countP_singleton]

theorem reachable_handlerInv {s : Handler} (h : connection.Reachable s) : s.Inv := by
  refine h.invariant ?_ ?_
  · rintro s ⟨sfd, registry, -, rfl⟩
    exact inv_connNew sfd registry
  · intro s e s' _ hs hstep
    exact hs.step hstep.1 hstep.2

/-! ## Log work -/

/-- The message is a web request or a frame whose tag `Cmd_Test` accepts. -/
def delivers (msg : List UInt8) : Bool :=
  match routeOf msg with
  | some .web | some (.device _) => true
  | _ => false

/-- One log item for every real message, and the connection is closed after the first read that
delivers none. -/
structure LogExact (s : Handler) : Prop where
  items : s.pushed.length = s.reads.countP fun read => delivers read.msg
  closed : ∀ i read, s.reads[i]? = some read → delivers read.msg = false →
    read.left = .connClosed ∧ i + 1 = s.reads.length

/-! ## Runs -/

/-- The text of a reaction can be pushed. -/
theorem exists_text {r : Registry} {para : Session} {fd : ℤ} {w : World} {msg : List UInt8}
    {reaction : Reaction} (h : socketReadCb r para fd w msg = some reaction) :
    ∃ buff : Text, buff.bytes = reaction.log := by
  rw [socketReadCb_eq, Option.bind_eq_some_iff] at h
  obtain ⟨received, -, hreaction⟩ := h
  obtain ⟨log, hlog, rfl⟩ := Option.map_eq_some_iff.mp hreaction
  have hlen := CArray.length_lt_of_cstr hlog
  exact ⟨⟨log, CArray.zero_notMem_of_cstr hlog, hlen.trans (by decide)⟩, rfl⟩

/-- A connection that is still registered reads whatever comes next. -/
theorem exists_read {s : Handler} (h : connection.Reachable s) (hreg : s.registered = true)
    (e : Event) (hfd : e.fd = s.conn.sfd) {reaction : Reaction}
    (hcb : socketReadCb s.registry e.para s.conn.sfd e.world e.msg = some reaction) :
    ∃ s', connection.Reachable s' ∧ s'.registered = true ∧ s'.conn.sfd = s.conn.sfd ∧
      s'.reads = s.reads ++ [⟨e.msg, e.item, .connNewCmd⟩] := by
  have hstate : s.conn.state = .connNewCmd := by
    rw [(reachable_handlerInv h).state, hreg]
    rfl
  have hret : Loop.Returns (doAccept s.conn.state) e.rounds [] [.read] := by
    rw [hstate]
    exact ⟨1, rfl⟩
  obtain ⟨buff, hbuff⟩ := exists_text hcb
  have hstep := EventHandler.read hfd hret (List.mem_singleton.mpr rfl) hcb hbuff
  exact ⟨_, h.next ⟨hreg, hstep⟩, hreg, rfl, by rw [hstate]⟩

theorem socketReadCb_nil (r : Registry) (para : Session) (fd : ℤ) (w : World) :
    socketReadCb r para fd w [] = some ⟨r, [], []⟩ := by
  rw [socketReadCb_eq]
  show Option.map _ (CArray.zero 256).cstr = _
  rw [CArray.cstr_zero 256 (by decide)]
  rfl

/-- A `tmd_pthread` of zeros. -/
def zeroSession : Session := ⟨0, .zero 16, [], none, .zero 12, none⟩

/-- An event of descriptor 5 whose `read` delivers `msg`. -/
def readEvent (msg : List UInt8) : Event where
  fd := 5
  which := evRead
  rounds := fun _ => ⟨none, false, true⟩
  msg := msg
  para := zeroSession
  world := .silent
  item := true

/-- Reads of an end of file can follow one another for ever. -/
theorem exists_ends_of_file (n : ℕ) :
    ∃ s, connection.Reachable s ∧ s.registered = true ∧ s.conn.sfd = 5 ∧
      s.reads = List.replicate n ⟨[], true, .connNewCmd⟩ := by
  induction n with
  | zero => exact ⟨connNew 5 .zeroed, .start ⟨5, .zeroed, by decide, rfl⟩, rfl, rfl, rfl⟩
  | succ n ih =>
    obtain ⟨s, hs, hreg, hsfd, hreads⟩ := ih
    obtain ⟨s', hs', hreg', hsfd', hreads'⟩ :=
      exists_read hs hreg (readEvent []) hsfd.symm (socketReadCb_nil ..)
    refine ⟨s', hs', hreg', hsfd'.trans hsfd, ?_⟩
    rw [hreads', hreads, List.replicate_succ']
    rfl

/-! ## Log work of whole runs -/

/-- In every run of the handler the log work is exact if and only if every read delivered a real
message and found an item. -/
theorem log_exact_iff (s : Handler) (h : connection.Reachable s) :
    LogExact s ↔ ∀ read ∈ s.reads, delivers read.msg = true ∧ read.item = true := by
  have hs := reachable_handlerInv h
  constructor
  · rintro ⟨hitems, hclosed⟩
    -- a read without a message would have had to close the connection
    have hall : ∀ read ∈ s.reads, delivers read.msg = true := by
      intro read hmem
      by_contra hnone
      obtain ⟨i, hi⟩ := List.getElem?_of_mem hmem
      have hleft := (hclosed i read hi (Bool.not_eq_true _ ▸ hnone)).1
      rw [hs.left read hmem] at hleft
      cases hleft
    -- so there are as many items as reads
    rw [hs.pushed, List.countP_eq_length.mpr hall] at hitems
    exact fun read hmem => ⟨hall read hmem, List.countP_eq_length.mp hitems read hmem⟩
  · intro hall
    constructor
    · rw [hs.pushed, List.countP_eq_length.mpr fun read hmem => (hall read hmem).2,
        List.countP_eq_length.mpr fun read hmem => (hall read hmem).1]
    · intro i read hi hnone
      rw [(hall read (List.mem_of_getElem? hi)).1] at hnone
      cases hnone

/-- A frame with the tag of an address request is logged once. -/
theorem log_exact_iff_address :
    ∃ s, connection.Reachable s ∧ s.reads = [⟨[Cmd.ip.tag, 0], true, .connNewCmd⟩] ∧ LogExact s := by
  have hinit : connection.Reachable (connNew 5 .zeroed) := .start ⟨5, .zeroed, by decide, rfl⟩
  obtain ⟨reaction, hcb⟩ : ∃ reaction,
      socketReadCb .zeroed zeroSession 5 .silent [Cmd.ip.tag, 0] = some reaction :=
    Option.isSome_iff_exists.mp (by decide +kernel)
  obtain ⟨s, hs, -, -, hreads⟩ := exists_read hinit rfl (readEvent [Cmd.ip.tag, 0]) rfl hcb
  refine ⟨s, hs, hreads, (log_exact_iff s hs).mpr ?_⟩
  intro read hmem
  rw [hreads] at hmem
  obtain rfl := List.mem_singleton.mp hmem
  decide +kernel

/-- When the peer has closed its side, every call of the handler reads the end of file, pushes an
empty text to a log worker and leaves the connection open for the next one. -/
theorem exists_ends_of_file_logged (n : ℕ) :
    ∃ s, connection.Reachable s ∧
      s.reads = List.replicate (n + 1) ⟨[], true, .connNewCmd⟩ ∧
      s.pushed.length = n + 1 ∧ s.conn.state = .connNewCmd ∧ ¬ LogExact s := by
  obtain ⟨s, hs, hreg, -, hreads⟩ := exists_ends_of_file (n + 1)
  have hinv := reachable_handlerInv hs
  refine ⟨s, hs, hreads, ?_, by rw [hinv.state, hreg]; rfl, fun hexact => ?_⟩
  · rw [hinv.pushed, hreads, List.countP_replicate]
    rfl
  · have hfirst : s.reads[0]? = some ⟨[], true, .connNewCmd⟩ := by
      rw [hreads]
      rfl
    have hclosed := (hexact.closed 0 _ hfirst (by decide +kernel)).1
    cases hclosed

/-- Two ends of file are two items for no message. -/
theorem end_of_file_logged :
    ∃ s, connection.Reachable s ∧
      s.reads = [⟨[], true, .connNewCmd⟩, ⟨[], true, .connNewCmd⟩] ∧
      s.pushed.length = 2 ∧ s.conn.state = .connNewCmd ∧ ¬ LogExact s :=
  exists_ends_of_file_logged 1

end Tdm.Device
