import Tdm.Thread.Dispatch
import Tdm.Lib.Progress

/-!
# Everything that is dispatched is worked on

`queues_in_step_with_pipes` says what a worker has done when its pipe is empty; here the pipes do
get empty. A step of a dispatcher brings it nearer to the end of its call, and the byte it writes is
worth four steps of the handler that reads it: reading, popping, working and freeing. So the steps
that all threads still have to make are a number (`toDo`) that every step lowers, but for the
beginning of a new call.
-/

namespace Tdm.Thread

open Tdm.Lib

variable {main : Set ℕ} {s s' : State}

/-! ## How far a thread has to go -/

/-- The steps up to the end of a call, with four for the byte it sends. -/
def DispatcherPc.turns : DispatcherPc → ℕ
  | .idle => 0
  | .pushed _ => 5
  | .filled .. => 6
  | .loaded .. => 7
  | .got .. => 8
  | .splice .. => 9
  | .grow _ => 10
  | .entry _ => 11

/-- The steps up to the end of a handler. -/
def HandlerPc.turns : HandlerPc → ℕ
  | .idle => 0
  | .done _ => 1
  | .popped .. => 2
  | .read _ => 3

/-- The workers of both groups. -/
def workers : Finset Worker :=
  (Finset.range rtPoolNum).image (Worker.mk .conn) ∪ (Finset.range poolNum).image (Worker.mk .work)

theorem mem_workers {w : Worker} : w ∈ workers ↔ w.idx < w.kind.num := by
  obtain ⟨k, i⟩ := w
  cases k <;> simp [workers, Kind.num]

/-- What the dispatchers in `busy` and the workers still have to do. -/
def toDo (busy : Finset ℕ) (s : State) : ℕ :=
  (∑ i ∈ busy, (s.dispatcher i).turns) +
    ((∑ w ∈ workers, 4 * (s.pipe w).length) + ∑ w ∈ workers, (s.handler w).turns)

/-! ## What a step does to the program points and the pipes -/

/-- A step begins a call, brings a thread nearer to its end, or passes a byte on. -/
inductive Advance (s s' : State) : Label → Prop
  | call (i : ℕ) (c : Call) (hpc : s.dispatcher i = .idle)
      (hdispatcher : s'.dispatcher = Function.update s.dispatcher i (.entry c))
      (hpipe : s'.pipe = s.pipe) (hhandler : s'.handler = s.handler) : Advance s s' (.dispatcher i)
  | dispatch (i : ℕ) (pc : DispatcherPc) (hturns : pc.turns < (s.dispatcher i).turns)
      (hpushed : ∀ w, pc = .pushed w → w ∈ workers)
      (hdispatcher : s'.dispatcher = Function.update s.dispatcher i pc)
      (hpipe : s'.pipe = s.pipe) (hhandler : s'.handler = s.handler) : Advance s s' (.dispatcher i)
  | notify (i : ℕ) (w : Worker) (hpc : s.dispatcher i = .pushed w)
      (hdispatcher : s'.dispatcher = Function.update s.dispatcher i .idle)
      (hpipe : s'.pipe = Function.update s.pipe w (s.pipe w ++ [w.kind.byte]))
      (hhandler : s'.handler = s.handler) : Advance s s' (.dispatcher i)
  | read (w : Worker) (b : UInt8) (rest : List UInt8) (hw : w ∈ workers)
      (hpc : s.handler w = .idle) (hbyte : s.pipe w = b :: rest)
      (hdispatcher : s'.dispatcher = s.dispatcher)
      (hpipe : s'.pipe = Function.update s.pipe w rest)
      (hhandler : s'.handler = Function.update s.handler w (.read b)) : Advance s s' (.handler w)
  | handle (w : Worker) (pc : HandlerPc) (hturns : pc.turns < (s.handler w).turns)
      (hdispatcher : s'.dispatcher = s.dispatcher) (hpipe : s'.pipe = s.pipe)
      (hhandler : s'.handler = Function.update s.handler w pc) : Advance s s' (.handler w)

theorem Step.advance {l : Label} {place : Owner → List ℕ} (hinv : Inv s place)
    (h : Step main s l s') : Advance s s' l := by
  cases h with
  | call i c hpc => exact .call i c hpc rfl rfl rfl
  | takeFree i c list item hpc =>
    refine .dispatch i _ ?_ ?_ rfl rfl rfl
    · cases item <;> simp [hpc, DispatcherPc.taken, DispatcherPc.turns]
    · cases item <;> exact fun _ h => by cases h
  | mallocFail i c hpc =>
    exact .dispatch i _ (by simp [hpc, DispatcherPc.turns]) (fun _ h => by cases h) rfl rfl rfl
  | malloc i c item junk hpc =>
    exact .dispatch i _ (by simp [hpc, DispatcherPc.turns]) (fun _ h => by cases h) rfl rfl rfl
  | splice i c item heap list hpc =>
    exact .dispatch i _ (by simp [hpc, DispatcherPc.turns]) (fun _ h => by cases h) rfl rfl rfl
  | load i c item old hpc =>
    exact .dispatch i _ (by simp [hpc, DispatcherPc.turns]) (fun _ h => by cases h) rfl rfl rfl
  | store i c item tid old hpc =>
    exact .dispatch i _ (by simp [hpc, DispatcherPc.turns]) (fun _ h => by cases h) rfl rfl rfl
  | push i c item tid heap cq hpc htid =>
    refine .dispatch i _ (by simp [hpc, DispatcherPc.turns]) ?_ rfl rfl rfl
    rintro _ ⟨rfl⟩
    rw [mem_workers]
    show tid.toNat < c.kind.num
    omega
  | notify i w hpc => exact .notify i w hpc rfl rfl rfl
  | read w b rest hw hpc hpipe => exact .read w b rest (mem_workers.mpr hw) hpc hpipe rfl rfl rfl
  | ignore w b hpc => exact .handle w _ (by simp [hpc, HandlerPc.turns]) rfl rfl rfl
  | pop w b cq item hpc =>
    refine .handle w _ ?_ rfl rfl rfl
    cases item <;> simp [hpc, HandlerPc.taken, HandlerPc.turns]
  | process w b a item m hpc => exact .handle w _ (by simp [hpc, HandlerPc.turns]) rfl rfl rfl
  | free w a heap list hpc => exact .handle w _ (by simp [hpc, HandlerPc.turns]) rfl rfl rfl
  | undef l s' hundef => exact absurd hundef hinv.not_undef

/-- A thread that begins no call stays idle. -/
theorem Advance.stays_idle {l : Label} (h : Advance s s' l) {i : ℕ} (hl : l ≠ .dispatcher i)
    (hidle : s.dispatcher i = .idle) : s'.dispatcher i = .idle := by
  rw [← hidle]
  cases h with
  | call j _ _ hd | dispatch j _ _ _ hd | notify j _ _ hd =>
    rw [hd, Function.update_of_ne]
    rintro rfl
    exact hl rfl
  | read _ _ _ _ _ _ hd | handle _ _ _ hd => rw [hd]

/-! ## Who is at work -/

/-- Finitely many calls are going on, and only workers that exist are sent bytes and have handlers
running. -/
structure Housed (s : State) : Prop where
  calls : {i | s.dispatcher i ≠ .idle}.Finite
  pushed : ∀ i w, s.dispatcher i = .pushed w → w ∈ workers
  handler : ∀ w, s.handler w ≠ .idle → w ∈ workers

theorem housed_initial : Housed initial where
  calls := Set.Finite.subset Set.finite_empty fun _ hi => hi rfl
  pushed := nofun
  handler _ hw := absurd rfl hw

theorem Housed.dispatcher {i : ℕ} {pc : DispatcherPc} (h : Housed s)
    (hpushed : ∀ w, pc = .pushed w → w ∈ workers)
    (hdispatcher : s'.dispatcher = Function.update s.dispatcher i pc)
    (hhandler : s'.handler = s.handler) : Housed s' where
  calls := by
    apply (h.calls.insert i).subset
    intro j hj
    by_cases hji : j = i
    · exact .inl hji
    · rw [Set.mem_ofPred_eq, hdispatcher, Function.update_of_ne hji] at hj
      exact .inr hj
  pushed := by
    rw [hdispatcher]
    exact (Function.forall_update_iff s.dispatcher fun _ pc =>
      ∀ w, pc = .pushed w → w ∈ workers).mpr ⟨hpushed, fun j _ => h.pushed j⟩
  handler := by
    rw [hhandler]
    exact h.handler

theorem Housed.handle {w : Worker} {pc : HandlerPc} (h : Housed s) (hw : w ∈ workers)
    (hdispatcher : s'.dispatcher = s.dispatcher)
    (hhandler : s'.handler = Function.update s.handler w pc) : Housed s' where
  calls := by
    rw [hdispatcher]
    exact h.calls
  pushed := by
    rw [hdispatcher]
    exact h.pushed
  handler := by
    rw [hhandler]
    exact (Function.forall_update_iff s.handler fun w pc => pc ≠ .idle → w ∈ workers).mpr
      ⟨fun _ => hw, fun w' _ => h.handler w'⟩

theorem HandlerPc.ne_idle_of_turns {pc : HandlerPc} {n : ℕ} (h : n < pc.turns) : pc ≠ .idle := by
  rintro rfl
  exact absurd h (Nat.not_lt_zero n)

theorem DispatcherPc.ne_idle_of_turns {pc : DispatcherPc} {n : ℕ} (h : n < pc.turns) :
    pc ≠ .idle := by
  rintro rfl
  exact absurd h (Nat.not_lt_zero n)

theorem Housed.step {l : Label} (h : Housed s) (hstep : Advance s s' l) : Housed s' := by
  cases hstep with
  | call i c hpc hdispatcher hpipe hhandler =>
    exact h.dispatcher (fun _ h => by cases h) hdispatcher hhandler
  | dispatch i pc hturns hpushed hdispatcher hpipe hhandler =>
    exact h.dispatcher hpushed hdispatcher hhandler
  | notify i w hpc hdispatcher hpipe hhandler =>
    exact h.dispatcher (fun _ h => by cases h) hdispatcher hhandler
  | read w b rest hw hpc hbyte hdispatcher hpipe hhandler => exact h.handle hw hdispatcher hhandler
  | handle w pc hturns hdispatcher hpipe hhandler =>
    exact h.handle (h.handler w (HandlerPc.ne_idle_of_turns hturns)) hdispatcher hhandler

theorem reachable_housed (h : (machine main).Reachable s) : Housed s := by
  refine h.invariant (fun s hs => ?_) fun s l s' hr hi hstep => ?_
  · subst hs
    exact housed_initial
  · obtain ⟨place, hinv⟩ := reachable_inv hr
    exact hi.step (hstep.advance hinv)

/-! ## The steps of calls that have begun -/

/-- No further call begins. -/
def draining (main : Set ℕ) : System State Label :=
  (machine main).restrict fun s l => ∀ i, l = .dispatcher i → s.dispatcher i ≠ .idle

/-- Every thread that is not idle can make a step. -/
theorem exists_dispatcher_step (main : Set ℕ) {i : ℕ} (h : s.dispatcher i ≠ .idle) :
    ∃ s', Step main s (.dispatcher i) s' := by
  cases hpc : s.dispatcher i with
  | idle => exact absurd hpc h
  | entry c =>
    cases hrun : cqiNewPop s.heap (s.freelist c.kind) with
    | none => exact ⟨s, .undef _ s (.takeFree i c hpc hrun)⟩
    | some r => exact ⟨_, .takeFree i c r.1 r.2 hpc hrun⟩
  | grow c => exact ⟨_, .mallocFail i c hpc⟩
  | splice c item =>
    cases hrun : cqiNewSplice s.heap (s.freelist c.kind) item with
    | none => exact ⟨s, .undef _ s (.splice i c item hpc hrun)⟩
    | some r => exact ⟨_, .splice i c item r.1 r.2 hpc hrun⟩
  | got c item =>
    cases hitem : s.heap item with
    | none => exact ⟨s, .undef _ s (.load i c item hpc hitem)⟩
    | some old => exact ⟨_, .load i c item old hpc hitem⟩
  | loaded c item tid =>
    cases hitem : s.heap item with
    | none => exact ⟨s, .undef _ s (.store i c item tid hpc hitem)⟩
    | some old => exact ⟨_, .store i c item tid old hpc hitem⟩
  | filled c item tid =>
    by_cases htid : 0 ≤ tid ∧ tid < c.kind.num
    · cases hrun : cqPush s.heap (s.queue ⟨c.kind, tid.toNat⟩) item with
      | none => exact ⟨s, .undef _ s (.push i c item tid hpc hrun)⟩
      | some r => exact ⟨_, .push i c item tid r.1 r.2 hpc htid hrun⟩
    · exact ⟨s, .undef _ s (.thread i c item tid hpc htid)⟩
  | pushed w => exact ⟨_, .notify i w hpc⟩

theorem exists_handler_step (main : Set ℕ) {w : Worker} (h : s.handler w ≠ .idle) :
    ∃ s', Step main s (.handler w) s' := by
  cases hpc : s.handler w with
  | idle => exact absurd hpc h
  | read b =>
    cases hb : pops w.kind b with
    | false => exact ⟨_, .ignore w b hpc hb⟩
    | true =>
      cases hrun : cqPop s.heap (s.queue w) with
      | none => exact ⟨s, .undef _ s (.pop w b hpc hrun)⟩
      | some r => exact ⟨_, .pop w b r.1 r.2 hpc hb hrun⟩
  | popped b a =>
    by_cases hitem : ∃ item m, s.heap a = some item ∧ handle w.kind b item = some m
    · obtain ⟨item, m, hitem, hrun⟩ := hitem
      exact ⟨_, .process w b a item m hpc hitem hrun⟩
    · refine ⟨s, .undef _ s (.process w b a hpc fun item hsome => ?_)⟩
      cases hrun : handle w.kind b item with
      | none => rfl
      | some m => exact absurd ⟨item, m, hsome, hrun⟩ hitem
  | done a =>
    cases hrun : cqiFreeBase s.heap (s.freelist w.kind) a with
    | none => exact ⟨s, .undef _ s (.free w a hpc hrun)⟩
    | some r => exact ⟨_, .free w a r.1 r.2 hpc hrun⟩

/-- A step of a call that has begun, or of a handler, lowers what is to be done. -/
theorem toDo_lt {l : Label} {busy : Finset ℕ} (hhoused : Housed s)
    (hbusy : ∀ i, s.dispatcher i ≠ .idle → i ∈ busy)
    (hstep : Advance s s' l) (hbegun : ∀ i, l = .dispatcher i → s.dispatcher i ≠ .idle) :
    toDo busy s' < toDo busy s := by
  cases hstep with
  | call i c hpc => exact absurd hpc (hbegun i rfl)
  | dispatch i pc hturns hpushed hdispatcher hpipe hhandler =>
    have hsum := sum_update_add DispatcherPc.turns s.dispatcher
      (hbusy i (DispatcherPc.ne_idle_of_turns hturns)) pc
    unfold toDo
    rw [hdispatcher, hpipe, hhandler]
    omega
  | notify i w hpc hdispatcher hpipe hhandler =>
    have hsum := sum_update_add DispatcherPc.turns s.dispatcher
      (hbusy i (by rw [hpc]; nofun)) .idle
    have hbytes := sum_update_add (4 * List.length ·) s.pipe (hhoused.pushed i w hpc)
      (s.pipe w ++ [w.kind.byte])
    have hturns : (s.dispatcher i).turns = 5 ∧ DispatcherPc.idle.turns = 0 := by
      rw [hpc]
      exact ⟨rfl, rfl⟩
    rw [List.length_append, List.length_singleton] at hbytes
    unfold toDo
    rw [hdispatcher, hpipe, hhandler]
    omega
  | read w b rest hw hpc hbyte hdispatcher hpipe hhandler =>
    have hsum := sum_update_add HandlerPc.turns s.handler hw (.read b)
    have hbytes := sum_update_add (4 * List.length ·) s.pipe hw rest
    have hturns : (s.handler w).turns = 0 ∧ (HandlerPc.read b).turns = 3 := by
      rw [hpc]
      exact ⟨rfl, rfl⟩
    rw [hbyte, List.length_cons] at hbytes
    unfold toDo
    rw [hdispatcher, hpipe, hhandler]
    omega
  | handle w pc hturns hdispatcher hpipe hhandler =>
    have hsum := sum_update_add HandlerPc.turns s.handler
      (hhoused.handler w (HandlerPc.ne_idle_of_turns hturns)) pc
    unfold toDo
    rw [hdispatcher, hpipe, hhandler]
    omega

/-- Nothing is on its way: all calls have returned and all workers have done what was sent to
them. -/
structure AtRest (s : State) : Prop where
  calls : ∀ i, s.dispatcher i = .idle
  handlers : ∀ w ∈ workers, s.handler w = .idle
  queues : ∀ w ∈ workers, (s.queue w).head = none
  processed : ∀ w ∈ workers, s.processed w = s.pushed w

theorem atRest_of_quiet (h : (machine main).Reachable s) (hcalls : ∀ i, s.dispatcher i = .idle)
    (hhandlers : ∀ w, s.handler w = .idle) (hpipes : ∀ w ∈ workers, s.pipe w = []) : AtRest s := by
  have hpending : ∀ w, s.pending w = ∅ := by
    intro w
    apply Set.eq_empty_of_forall_notMem
    intro i hi
    rw [State.pending, Set.mem_ofPred_eq, hcalls i] at hi
    cases hi
  obtain ⟨place, hinv⟩ := reachable_inv h
  refine ⟨hcalls, fun w _ => hhandlers w, fun w hw => ?_, fun w hw => ?_⟩
  · exact (hinv.inStep w).drained (hpipes w hw) (hpending w) (by rw [hhandlers w]; rfl)
  · exact (hinv.inStep w).complete (hpipes w hw) (hpending w) (hhandlers w)

theorem atRest_of_stuck (h : (machine main).Reachable s)
    (hend : ∀ t, ¬ (draining main).Next s t) : AtRest s := by
  have hhandlers : ∀ w, s.handler w = .idle := by
    intro w
    by_contra hpc
    obtain ⟨t, ht⟩ := exists_handler_step main hpc
    exact hend t ⟨.handler w, ht, nofun⟩
  refine atRest_of_quiet h (fun i => ?_) hhandlers fun w hw => ?_
  · by_contra hpc
    obtain ⟨t, ht⟩ := exists_dispatcher_step main hpc
    refine hend t ⟨.dispatcher i, ht, ?_⟩
    rintro j ⟨rfl⟩
    exact hpc
  · cases hpipe : s.pipe w with
    | nil => rfl
    | cons b rest =>
      exact absurd ⟨.handler w, .read w b rest (mem_workers.mp hw) (hhandlers w) hpipe, nofun⟩
        (hend _)

theorem draining_settles (h : (machine main).Reachable s) :
    Settles (draining main).Next AtRest s := by
  have hhoused := reachable_housed h
  refine Settles.of_rank wellFounded_lt (toDo hhoused.calls.toFinset)
    (I := fun t => (machine main).Reachable t ∧
      ∀ i, t.dispatcher i ≠ .idle → i ∈ hhoused.calls.toFinset) ?_ ?_ ?_
    ⟨h, fun i hi => hhoused.calls.mem_toFinset.mpr hi⟩
  · rintro t t' ⟨ht, hbusy⟩ ⟨l, hstep, hbegun⟩
    obtain ⟨place, hinv⟩ := reachable_inv ht
    refine ⟨ht.next hstep, fun i hi => hbusy i fun hidle => hi ?_⟩
    exact (hstep.advance hinv).stays_idle (fun hl => hbegun i hl hidle) hidle
  · rintro t t' ⟨ht, hbusy⟩ ⟨l, hstep, hbegun⟩
    obtain ⟨place, hinv⟩ := reachable_inv ht
    exact toDo_lt (reachable_housed ht) hbusy (hstep.advance hinv) hbegun
  · rintro t ⟨ht, -⟩ hend
    exact atRest_of_stuck ht hend

/-- From every reachable state, as long as no further call begins: the threads cannot go on for ever
in any order, and when none of them can go on every worker of both groups has worked on everything
that was pushed to it, in order, and its queue is empty. -/
theorem dispatched_all_processed (main : Set ℕ) (s : State) (h : (machine main).Reachable s) :
    (∀ run : ℕ → State, run 0 = s → ¬ ∀ k, (draining main).Next (run k) (run (k + 1))) ∧
    ∀ t, Relation.ReflTransGen (draining main).Next s t → (∀ u, ¬ (draining main).Next t u) →
      AtRest t := by
  have hsettles := draining_settles h
  exact ⟨fun run h₀ => hsettles.no_infinite_run h₀, fun t hrun hend => hsettles.of_stuck hrun hend⟩

/-- A call that has just begun, and a state in which the run from there has ended. -/
theorem dispatched_all_processed_begun :
    ∃ s t, (machine {0}).Reachable s ∧ s.dispatcher 0 = .entry (.dispatchConnNew 7 .connNewCmd 2) ∧
      Relation.ReflTransGen (draining {0}).Next s t ∧ AtRest t := by
  have hbegun := (System.Reachable.start (M := machine {0}) rfl).next
    (Step.call 0 (.dispatchConnNew 7 .connNewCmd 2) rfl (fun _ => rfl))
  obtain ⟨t, hrun, hend, -⟩ := (draining_settles hbegun).exists_end
  exact ⟨_, t, hbegun, rfl, hrun, (dispatched_all_processed {0} _ hbegun).2 t hrun hend⟩

end Tdm.Thread
