import Tdm.Lib.Loop
import Tdm.Thread.Workers

/-!
# Accepting connections

`do_accept` runs when the event loop reports its connection ready. On the listening connection it
accepts a descriptor, sets it non-blocking and hands it to a connection worker; on a connection of a
worker it reads a message. Its loop is left through the flag `stop`, which the branch for a
descriptor that cannot be set non-blocking does not set, and the test for a failed `accept` is empty.

A round of the loop is played against the system: what `accept` returns, whether `fcntl` sets the
flag and whether the free list of items can be refilled. `Act` records what the code does.
-/

namespace Tdm.Device

open Tdm.Lib Tdm.Thread

def evRead : ℤ := 0x02
def evPersist : ℤ := 0x10

/-- What the system does in one round. -/
structure AcceptRound where
  /-- The new descriptor, or none when `accept` returns -1. -/
  accepted : Option ℕ
  fcntl : Bool
  item : Bool

/-- The value of `accept`. -/
def AcceptRound.sfd (o : AcceptRound) : ℤ :=
  match o.accepted with
  | some sfd => sfd
  | none => -1

/-- What `do_accept` does: `push` is the handing over of an item to a worker, `read` the call of
`socket_read_cb`. -/
inductive Act
  | accept (sfd : ℤ)
  | close (sfd : ℤ)
  | push (call : Call)
  | read

/-- `setnonblocking`; a negative number is no open descriptor. -/
def setnonblocking (sockfd : ℤ) (fcntl : Bool) : ℤ := if 0 ≤ sockfd ∧ fcntl then 0 else -1

/-- `dispatch_conn_new`. -/
def dispatchConnNew (sfd : ℤ) (initState : ConnStates) (eventFlags : ℤ) (item : Bool) : Act :=
  if item then .push (.dispatchConnNew sfd initState eventFlags) else .close sfd

/-- A round of the loop of `do_accept` on a connection in a given state. -/
def doAccept (state : ConnStates) : Loop (List Act) AcceptRound (List Act) := fun acts o =>
  match state with
  | .connListening =>
    -- nothing happens between a failed `accept` and the next call
    if setnonblocking o.sfd o.fcntl ≠ 0 then
      -- `break` leaves the switch only
      .inl (acts ++ [.accept o.sfd, .close o.sfd])
    else
      .inr (acts ++ [.accept o.sfd, dispatchConnNew o.sfd .connNewCmd (evRead + evPersist) o.item])
  | .connNewCmd => .inr (acts ++ [.read])
  | _ => .inr acts

/-! ## Termination -/

/-- A descriptor arrives and can be set non-blocking. -/
def AcceptRound.Usable (o : AcceptRound) : Prop := o.accepted ≠ none ∧ o.fcntl = true

theorem setnonblocking_eq_zero_iff (o : AcceptRound) : setnonblocking o.sfd o.fcntl = 0 ↔ o.Usable := by
  unfold setnonblocking AcceptRound.sfd AcceptRound.Usable
  cases o.accepted <;> simp

theorem doAccept_of_ne {state : ConnStates} (h : state ≠ .connListening) (acts : List Act)
    (o : AcceptRound) :
    doAccept state acts o = .inr (acts ++ if state = .connNewCmd then [.read] else []) := by
  cases state with
  | connListening => exact absurd rfl h
  | _ => simp [doAccept]

theorem doAccept_of_usable {o : AcceptRound} (h : o.Usable) (acts : List Act) :
    doAccept .connListening acts o =
      .inr (acts ++ [.accept o.sfd,
        dispatchConnNew o.sfd .connNewCmd (evRead + evPersist) o.item]) :=
  if_neg (not_not.mpr ((setnonblocking_eq_zero_iff o).mpr h))

theorem doAccept_of_not_usable {o : AcceptRound} (h : ¬ o.Usable) (acts : List Act) :
    doAccept .connListening acts o = .inl (acts ++ [.accept o.sfd, .close o.sfd]) :=
  if_pos (mt (setnonblocking_eq_zero_iff o).mp h)

/-- The loop ends in the first round that brings a usable descriptor and in no other. -/
theorem doAccept_returns_iff (state : ConnStates) (env : ℕ → AcceptRound) :
    (∃ acts, Loop.Returns (doAccept state) env [] acts) ↔
      state ≠ .connListening ∨ ∃ k, (env k).Usable := by
  constructor
  · rintro ⟨acts, hret⟩
    by_contra hnone
    simp only [not_or, not_not, not_exists] at hnone
    obtain ⟨rfl, hnone⟩ := hnone
    -- no round ends the loop, whatever it has done so far
    refine Loop.not_returns_of_rounds (I := fun _ => True) (n := 0) rfl trivial ?_ acts hret
    intro k acts _ _
    exact ⟨_, doAccept_of_not_usable (hnone k) acts, trivial⟩
  · intro h
    by_cases hstate : state = .connListening
    · obtain ⟨k, hk⟩ := h.resolve_left (not_not.mpr hstate)
      subst hstate
      exact Loop.exists_returns fun acts _ => ⟨_, doAccept_of_usable hk acts⟩
    · exact Loop.exists_returns (k := 0) fun acts _ => ⟨_, doAccept_of_ne hstate acts _⟩

/-! ## Descriptors -/

/-- Every accepted descriptor is handed over once or closed, before anything else is done, and none
is handed over or closed besides. -/
inductive Disposed : List Act → Prop
  | nil : Disposed []
  | pushed {acts : List Act} (h : Disposed acts) (sfd : ℤ) :
    Disposed (acts ++ [.accept sfd, .push (.dispatchConnNew sfd .connNewCmd (evRead + evPersist))])
  | closed {acts : List Act} (h : Disposed acts) (sfd : ℤ) :
    Disposed (acts ++ [.accept sfd, .close sfd])
  | read {acts : List Act} (h : Disposed acts) : Disposed (acts ++ [.read])

theorem Disposed.dispatch {acts : List Act} (h : Disposed acts) (sfd : ℤ) (item : Bool) :
    Disposed (acts ++ [.accept sfd,
      dispatchConnNew sfd .connNewCmd (evRead + evPersist) item]) := by
  cases item with
  | true => exact h.pushed sfd
  | false => exact h.closed sfd

theorem Disposed.round {acts : List Act} (h : Disposed acts) (state : ConnStates) (o : AcceptRound) :
    Sum.elim Disposed Disposed (doAccept state acts o) := by
  by_cases hstate : state = .connListening
  · subst hstate
    by_cases ho : o.Usable
    · rw [doAccept_of_usable ho]
      exact h.dispatch o.sfd o.item
    · rw [doAccept_of_not_usable ho]
      exact h.closed o.sfd
  · rw [doAccept_of_ne hstate]
    split
    · exact h.read
    · rwa [List.append_nil]

theorem disposed_after (state : ConnStates) (env : ℕ → AcceptRound) {k : ℕ} {acts : List Act}
    (h : Loop.after (doAccept state) env [] k = .inl acts) : Disposed acts := by
  refine Loop.invariant (I := fun _ acts => Disposed acts) .nil ?_ h
  intro k acts acts' _ hacts hround
  have hdisposed := hacts.round state (env k)
  rwa [hround] at hdisposed

theorem disposed_of_returns (state : ConnStates) (env : ℕ → AcceptRound) {acts : List Act}
    (h : Loop.Returns (doAccept state) env [] acts) : Disposed acts := by
  obtain ⟨k, before, hrun, hround⟩ := h.round
  have hdisposed := (disposed_after state env hrun).round state (env k)
  rwa [hround] at hdisposed

/-- `do_accept` returns if and only if its connection does not listen or a usable descriptor ever
arrives; whether it returns or not, every descriptor is handed over exactly once or closed. -/
theorem do_accept_returns_iff (state : ConnStates) (env : ℕ → AcceptRound) :
    ((∃ acts, Loop.Returns (doAccept state) env [] acts) ↔
      state ≠ .connListening ∨ ∃ k, (env k).Usable) ∧
    (∀ k acts, Loop.after (doAccept state) env [] k = .inl acts → Disposed acts) ∧
    ∀ acts, Loop.Returns (doAccept state) env [] acts → Disposed acts :=
  ⟨doAccept_returns_iff state env, fun _ _ => disposed_after state env,
    fun _ => disposed_of_returns state env⟩

/-- While `accept` fails, as it does for ever when the process has no descriptor left to give,
`do_accept` calls it again and again. -/
theorem do_accept_spins :
    ¬ ∃ acts, Loop.Returns (doAccept .connListening) (fun _ => ⟨none, true, true⟩) [] acts := by
  rw [doAccept_returns_iff]
  rintro (h | ⟨-, h⟩)
  · exact h rfl
  · exact h.1 rfl

end Tdm.Device
