import Tdm.Thread.WorkersRun

/-!
# Queues, pipes and the order of dispatch

With one thread that calls `dispatch_conn_new`, connections go to the workers in turn
(`Rotation`): that thread alone moves `last_thread`, one worker further for each
connection it dispatches. Together with the invariant of `WorkersRun` this gives
`queues_in_step_with_pipes`.
-/

namespace Tdm.Thread

open Tdm.Lib

variable {s s' : State}

/-! ## Whose turn it is -/

/-- The call a dispatcher is working on, up to the push. -/
def DispatcherPc.call : DispatcherPc → Option Call
  | .entry c | .grow c | .splice c _ | .got c _ | .loaded c _ _ | .filled c _ _ => some c
  | .idle | .pushed _ => none

/-- `last_thread` makes worker `len % RT_POOL_NUM` the next one. -/
def Due (last : ℤ) (len : ℕ) : Prop :=
  (last + 1).tmod rtPoolNum = ((len % rtPoolNum : ℕ) : ℤ)

/-- What the program point of the main thread says about `last_thread` after `len`
connections. -/
def DispatcherPc.Rotates (last : ℤ) (len : ℕ) : DispatcherPc → Prop
  | .loaded c _ tid =>
    Due last len ∧ (c.kind = .conn → tid = ((len % rtPoolNum : ℕ) : ℤ))
  | .filled c _ tid =>
    if c.kind = .conn then tid = ((len % rtPoolNum : ℕ) : ℤ) ∧ last = tid else Due last len
  | _ => Due last len

/-- Connections go to the workers in turn. -/
structure Rotation (s : State) : Prop where
  order : ∀ k p, (s.dispatched .conn)[k]? = some p → p.1 = k % rtPoolNum
  alone : ∀ i c, (s.dispatcher i).call = some c → c.kind = .conn → i = 0
  rotates : (s.dispatcher 0).Rotates (s.lastThread .conn) (s.dispatched .conn).length

theorem rotation_initial : Rotation initial where
  order k p h := by
    rw [show initial.dispatched .conn = [] from rfl] at h
    cases h
  alone i c h := by cases h
  rotates := by
    show ((-1 : ℤ) + 1).tmod rtPoolNum = ((0 % rtPoolNum : ℕ) : ℤ)
    decide

/-- After the worker whose turn it was comes the next one. -/
theorem due_succ (len : ℕ) : Due ((len % rtPoolNum : ℕ) : ℤ) (len + 1) := by
  unfold Due rtPoolNum
  rw [Int.tmod_eq_emod_of_nonneg (by omega)]
  omega

namespace Rotation

/-- A dispatcher moves on without touching the counter or the history of connections. -/
theorem move (h : Rotation s) {i : ℕ} {pc : DispatcherPc}
    (hd : s'.dispatcher = Function.update s.dispatcher i pc)
    (hlast : s'.lastThread .conn = s.lastThread .conn)
    (hdispatched : s'.dispatched .conn = s.dispatched .conn)
    (hcall : ∀ c, pc.call = some c → c.kind = .conn → i = 0)
    (hrotates : i = 0 → pc.Rotates (s.lastThread .conn) (s.dispatched .conn).length) :
    Rotation s' where
  order := by
    rw [hdispatched]
    exact h.order
  alone := by
    rw [hd]
    exact (Function.forall_update_iff s.dispatcher fun j pc =>
      ∀ c, pc.call = some c → c.kind = .conn → j = 0).mpr ⟨hcall, fun j _ => h.alone j⟩
  rotates := by
    rw [hlast, hdispatched, hd]
    by_cases hi : 0 = i
    · rw [hi, Function.update_self]
      exact hrotates hi.symm
    · rw [Function.update_of_ne hi]
      exact h.rotates

/-- Steps of the handlers are not concerned. -/
theorem frame (h : Rotation s) (hd : s'.dispatcher = s.dispatcher)
    (hlast : s'.lastThread = s.lastThread) (hdispatched : s'.dispatched = s.dispatched) :
    Rotation s' where
  order := by
    rw [hdispatched]
    exact h.order
  alone := by
    rw [hd]
    exact h.alone
  rotates := by
    rw [hd, hlast, hdispatched]
    exact h.rotates

/-- The main thread at a program point that says no more than whose turn it is. -/
theorem due (h : Rotation s) {i : ℕ} {pc : DispatcherPc} (hpc : s.dispatcher i = pc)
    (hplain : ∀ last len, pc.Rotates last len → Due last len) (hi : i = 0) :
    Due (s.lastThread .conn) (s.dispatched .conn).length := by
  subst hi
  have hrotates := h.rotates
  rw [hpc] at hrotates
  exact hplain _ _ hrotates

theorem store (h : Rotation s) {i item : ℕ} {c : Call} {tid : ℤ}
    (hpc : s.dispatcher i = .loaded c item tid)
    (hd : s'.dispatcher = Function.update s.dispatcher i (.filled c item tid))
    (hlast : s'.lastThread = Function.update s.lastThread c.kind tid)
    (hdispatched : s'.dispatched = s.dispatched) : Rotation s' := by
  have hcall : ∀ c', (DispatcherPc.filled c item tid).call = some c' → c'.kind = .conn →
      i = 0 := fun c' hc' => h.alone i c' (by rw [hpc]; exact hc')
  by_cases hk : c.kind = .conn
  · -- the main thread moves the counter to the worker it has chosen
    obtain rfl := hcall c rfl hk
    have hrotates := h.rotates
    rw [hpc] at hrotates
    refine ⟨?_, ?_, ?_⟩
    · rw [hdispatched]
      exact h.order
    · rw [hd]
      exact (Function.forall_update_iff s.dispatcher fun j pc =>
        ∀ c, pc.call = some c → c.kind = .conn → j = 0).mpr
          ⟨fun _ _ _ => rfl, fun j _ => h.alone j⟩
    · rw [hd, hlast, hdispatched, Function.update_self, hk, Function.update_self]
      show if c.kind = .conn then _ else _
      rw [if_pos hk]
      exact ⟨hrotates.2 hk, rfl⟩
  · refine h.move hd ?_ (by rw [hdispatched]) hcall fun hi => ?_
    · rw [hlast, Function.update_of_ne (Ne.symm hk)]
    · show if c.kind = .conn then _ else _
      rw [if_neg hk]
      exact h.due hpc (fun _ _ hr => hr.1) hi

theorem push (h : Rotation s) {i item : ℕ} {c : Call} {tid : ℤ}
    (hpc : s.dispatcher i = .filled c item tid)
    (hd : s'.dispatcher = Function.update s.dispatcher i (.pushed ⟨c.kind, tid.toNat⟩))
    (hlast : s'.lastThread = s.lastThread)
    (hdispatched : s'.dispatched = Function.update s.dispatched c.kind
      (s.dispatched c.kind ++ [(tid.toNat, c.msg)])) : Rotation s' := by
  by_cases hk : c.kind = .conn
  · obtain rfl : i = 0 := h.alone i c (by rw [hpc]; rfl) hk
    have hrotates := h.rotates
    rw [hpc] at hrotates
    obtain ⟨htid, hlast'⟩ : tid = _ ∧ _ = tid := by
      have hr : if c.kind = .conn then _ else _ := hrotates
      rwa [if_pos hk] at hr
    have happend : s'.dispatched .conn = s.dispatched .conn ++ [(tid.toNat, c.msg)] := by
      rw [hdispatched, hk, Function.update_self]
    refine ⟨fun k p hp => ?_, ?_, ?_⟩
    · rw [happend] at hp
      rcases Nat.lt_trichotomy k (s.dispatched .conn).length with hlt | heq | hgt
      · rw [List.getElem?_append_left hlt] at hp
        exact h.order k p hp
      · rw [heq, List.getElem?_concat_length] at hp
        rw [← Option.some.inj hp, heq]
        show tid.toNat = _
        rw [htid, Int.toNat_natCast]
      · rw [List.getElem?_eq_none (by simp; omega)] at hp
        cases hp
    · rw [hd]
      exact (Function.forall_update_iff s.dispatcher fun j pc =>
        ∀ c, pc.call = some c → c.kind = .conn → j = 0).mpr
          ⟨fun _ _ _ => rfl, fun j _ => h.alone j⟩
    · rw [hd, Function.update_self, hlast, hlast', htid, happend, List.length_append,
        List.length_singleton]
      exact due_succ _
  · refine h.move hd (by rw [hlast]) ?_ nofun fun hi => ?_
    · rw [hdispatched, Function.update_of_ne (Ne.symm hk)]
    · refine h.due hpc (fun last len hr => ?_) hi
      have hr : if c.kind = .conn then _ else Due last len := hr
      rwa [if_neg hk] at hr

/-- With one main thread, every step keeps the rotation. -/
theorem step {l : Label} {place : Owner → List ℕ} (h : Rotation s) (hinv : Inv s place)
    (hstep : Step {0} s l s') : Rotation s' := by
  cases hstep with
  | call i c hpc hmain =>
    refine h.move rfl rfl rfl ?_ fun hi => h.due hpc (fun _ _ hr => hr) hi
    rintro c' ⟨rfl⟩ hk
    exact hmain hk
  | takeFree i c list item hpc hrun =>
    have hcall : (DispatcherPc.taken c item).call = some c := by
      cases item <;> rfl
    refine h.move rfl rfl rfl (fun c' hc' => h.alone i c' ?_) fun hi => ?_
    · rw [hpc, ← hc', hcall]
      rfl
    · have hdue := h.due hpc (fun _ _ hr => hr) hi
      cases item <;> exact hdue
  | mallocFail i c hpc =>
    exact h.move rfl rfl rfl nofun fun hi => h.due hpc (fun _ _ hr => hr) hi
  | malloc i c item junk hpc hfree =>
    exact h.move rfl rfl rfl (fun c' hc' => h.alone i c' (by rw [hpc]; exact hc'))
      fun hi => h.due hpc (fun _ _ hr => hr) hi
  | splice i c item heap list hpc hrun =>
    exact h.move rfl rfl rfl (fun c' hc' => h.alone i c' (by rw [hpc]; exact hc'))
      fun hi => h.due hpc (fun _ _ hr => hr) hi
  | load i c item old hpc hitem =>
    refine h.move rfl rfl rfl (fun c' hc' => h.alone i c' (by rw [hpc]; exact hc'))
      fun hi => ?_
    have hdue := h.due hpc (fun _ _ hr => hr) hi
    refine ⟨hdue, fun hk => ?_⟩
    rw [hk]
    exact hdue
  | store i c item tid old hpc hitem => exact h.store hpc rfl rfl rfl
  | push i c item tid heap cq hpc htid hrun => exact h.push hpc rfl rfl rfl
  | notify i w hpc =>
    exact h.move rfl rfl rfl nofun fun hi => h.due hpc (fun _ _ hr => hr) hi
  | read w b rest hw hpc hpipe => exact h.frame rfl rfl rfl
  | ignore w b hpc hb => exact h.frame rfl rfl rfl
  | pop w b cq item hpc hb hrun => exact h.frame rfl rfl rfl
  | process w b a item m hpc hitem hrun => exact h.frame rfl rfl rfl
  | free w a heap list hpc hrun => exact h.frame rfl rfl rfl
  | undef l s' hundef => exact absurd hundef hinv.not_undef

end Rotation

theorem reachable_rotation (h : (machine {0}).Reachable s) : Rotation s := by
  refine h.invariant (fun s hs => ?_) (fun s l s' hr hi hstep => ?_)
  · subst hs
    exact rotation_initial
  · obtain ⟨place, hinv⟩ := reachable_inv hr
    exact hi.step hinv hstep

/-! ## Queues and pipes -/

/-- The queue of `w` is in step with its pipe, and `w` works on exactly what was pushed to
it. -/
structure InStep (s : State) (w : Worker) : Prop where
  finite : (s.pending w).Finite
  /-- The length of the queue, and what is in it. -/
  queue : ∃ q, LinkedQueue (nextOf s.heap) (s.queue w).head (s.queue w).tail q ∧
    q.length = (s.pipe w).length + (s.pending w).ncard + (s.handler w).reading ∧
    (s.pushed w).map some =
      (s.processed w).map some ++ ((s.handler w).inHand ++ q).map (msgOf w.kind s.heap)
  /-- `cq_pop` never returns `NULL` to a handler. -/
  pops : ∀ b, s.handler w = .read b → ∃ cq a, cqPop s.heap (s.queue w) = some (cq, some a)
  /-- Nothing stays behind in a queue without a byte to come for it. -/
  drained : s.pipe w = [] → s.pending w = ∅ → (s.handler w).reading = 0 →
    (s.queue w).head = none
  order : s.processed w <+: s.pushed w
  complete : s.pipe w = [] → s.pending w = ∅ → s.handler w = .idle →
    s.processed w = s.pushed w

theorem Inv.inStep {place : Owner → List ℕ} (h : Inv s place) (w : Worker) : InStep s w := by
  have hqueue := h.custody.linkedQueue (o := .queue w) rfl
  have hflow := h.flow w
  have hdrained : s.pipe w = [] → s.pending w = ∅ → (s.handler w).reading = 0 →
      place (.queue w) = [] := by
    intro hpipe hpending hreading
    have hcount := hflow.count
    rw [hpipe, hpending, hreading, Set.ncard_empty] at hcount
    exact List.length_eq_zero_iff.mp hcount
  exact
    { finite := hflow.finite
      queue := ⟨place (.queue w), hqueue, hflow.count, hflow.messages⟩
      pops := by
        intro b hb
        obtain ⟨a, ha⟩ := h.queue_nonempty hb
        cases hrun : cqPop s.heap (s.queue w) with
        | none => exact absurd (Undef.pop w b hb hrun) h.not_undef
        | some r =>
          obtain ⟨cq, item⟩ := r
          rcases cqPop_eq_some hrun with ⟨hnone, -⟩ | ⟨a', -, rfl, -⟩
          · rw [ha] at hnone
            cases hnone
          · exact ⟨cq, a', rfl⟩
      drained := fun hpipe hpending hreading =>
        hqueue.head_eq_none_iff.mpr (hdrained hpipe hpending hreading)
      order := by
        have hmap : (s.processed w).map some <+: (s.pushed w).map some :=
          ⟨_, hflow.messages.symm⟩
        exact (List.prefix_map_iff_of_injective (Option.some_injective _)).mp hmap
      complete := by
        intro hpipe hpending hidle
        have hmessages := hflow.messages
        rw [hdrained hpipe hpending (by rw [hidle]; rfl), hidle] at hmessages
        simp only [HandlerPc.inHand, List.append_nil, List.map_nil] at hmessages
        exact (List.map_injective_iff.mpr (Option.some_injective _) hmessages).symm }

/-- Queues and notify pipes stay in step, every worker processes exactly what is pushed to
it, in order and as it was given, and connections go to the workers in turn. -/
theorem queues_in_step_with_pipes (s : State) (h : (machine {0}).Reachable s) :
    (∀ w, InStep s w) ∧
      ∀ k p, (s.dispatched .conn)[k]? = some p → p.1 = k % rtPoolNum := by
  obtain ⟨place, hinv⟩ := reachable_inv h
  exact ⟨hinv.inStep, (reachable_rotation h).order⟩

/-- One connection, dispatched to worker 0, whose byte is still to be written. -/
theorem queues_in_step_with_pipes_one :
    ∃ s, (machine {0}).Reachable s ∧
      s.pushed ⟨.conn, 0⟩ = [.conn 7 .connNewCmd 2] ∧ s.pipe ⟨.conn, 0⟩ = [] ∧
      0 ∈ s.pending ⟨.conn, 0⟩ ∧ InStep s ⟨.conn, 0⟩ := by
  have hcalled := (System.Reachable.start (M := machine {0}) rfl).next
    (Step.call 0 (.dispatchConnNew 7 .connNewCmd 2) rfl (fun _ => rfl))
  have hgrow := hcalled.next (Step.takeFree 0 _ none none rfl rfl)
  have hblock := hgrow.next (Step.malloc 0 _ 1000 (fun _ => CqItem.zero) rfl (fun _ _ => rfl))
  -- the block is not evaluated: all the run needs is that its items are allocated
  have hlive : ∀ a ∈ block 1000, cqiNewBlock (fun _ => none) 1000 (fun _ => CqItem.zero) a ≠
      none := fun a ha => cqiNewBlock_ne_none ha
  generalize hheap : cqiNewBlock (fun _ => none) 1000 (fun _ => CqItem.zero) = heap at hlive
  rw [show initial.heap = fun _ => none from rfl, hheap] at hblock
  have hgot := hblock.next (Step.splice 0 _ 1000 _ _ rfl
    (cqiNewSplice_of_live (hlive 1127 (mem_block.mpr (by decide)))))
  obtain ⟨old, hold⟩ := Option.ne_none_iff_exists'.mp (hlive 1000 (mem_block.mpr (by decide)))
  have hloaded := hgot.next (Step.load 0 _ 1000 old rfl
    ((writeNext_of_ne (show 1000 ≠ 1127 by decide) none).trans hold))
  have hfilled := hloaded.next (Step.store 0 _ 1000 _ _ rfl rfl)
  have hs := hfilled.next (Step.push 0 (.dispatchConnNew 7 .connNewCmd 2) 1000 0 _ _ rfl
    (by decide) rfl)
  exact ⟨_, hs, rfl, rfl, rfl, (queues_in_step_with_pipes _ hs).1 _⟩

end Tdm.Thread
