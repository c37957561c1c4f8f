import Tdm.Threadpool.PoolRun
import Tdm.Lib.Fifo

/-!
# The job list is a bounded FIFO queue

The pool refines `Fifo.bounded`: the list from `head` represents the contents of the
abstract queue, accepting a job is its `enqueue`, taking one its `dequeue`, and every
other step is invisible.
-/

namespace Tdm.Threadpool

open Tdm.Lib

variable {n : ℕ} {s s' : State n}

/-- The abstract queue with the history of `s`. -/
def fifoOf (s : State n) : Fifo Buff where
  content := s.accepted.drop s.dequeued.length
  accepted := s.accepted
  delivered := s.dequeued

/-- The pool in `s` represents the abstract queue `q`: following `next` from `head` visits
`queue_cur_num` jobs, ends at `tail`, and meets the buffers of `q` in order. -/
def Represents (s : State n) (q : Fifo Buff) : Prop :=
  q.accepted = s.accepted ∧ q.delivered = s.dequeued ∧
    ∃ as, LinkedQueue (nextOf s.heap) s.pool.head s.pool.tail as ∧
      s.pool.queueCurNum = as.length ∧ as.map (buffOf s.heap) = q.content.map some

theorem Jobs.content_drop {as : List Addr} (h : Jobs s as) :
    as.map (buffOf s.heap) = (s.accepted.drop s.dequeued.length).map some := by
  rw [List.map_drop, h.content, List.drop_left' (List.length_map ..)]

theorem Jobs.represents {as : List Addr} (h : Jobs s as) : Represents s (fifoOf s) :=
  ⟨rfl, rfl, as, h.queue, h.count, h.content_drop⟩

/-- A represented queue is determined by the history. -/
theorem Jobs.eq_fifoOf {as : List Addr} (h : Jobs s as) {q : Fifo Buff}
    (hq : Represents s q) : q = fifoOf s := by
  obtain ⟨hacc, hdel, as', hqueue, -, hcontent⟩ := hq
  obtain rfl : as' = as := hqueue.chain.unique h.queue.chain
  refine Fifo.ext ?_ hacc hdel
  have hmap := hcontent.symm.trans h.content_drop
  exact List.map_injective_iff.mpr (Option.some_injective _) hmap

/-- What a step does to the history: nothing, or it accepts one buffer while there is
room, or it takes the next one off the list. -/
theorem Inv.history_step {l : Label n} (h : Inv s) (hstep : Step s l s') :
    (s'.accepted = s.accepted ∧ s'.dequeued = s.dequeued) ∨
      (∃ b, s'.accepted = s.accepted ++ [b] ∧ s'.dequeued = s.dequeued ∧
        s.pool.queueCurNum ≠ s.pool.queueMaxNum) ∨
      (∃ b rest, s.accepted.drop s.dequeued.length = b :: rest ∧
        s'.accepted = s.accepted ∧ s'.dequeued = s.dequeued ++ [b]) := by
  obtain ⟨hC, as, hJ⟩ := h
  cases hstep with
  | addJobRet i arg malloc pool heap r b hlive hpc hmalloc hrun =>
    rcases threadpoolAddJob_ret hrun with ⟨rfl, -⟩ | ⟨rfl, hroom, -⟩
    · exact Or.inl ⟨rfl, rfl⟩
    · exact Or.inr (Or.inl ⟨arg.buff, rfl, rfl, hroom⟩)
  | workJob w pool pjob job b₁ b₂ f hlive hpc hrun hjob hsignal =>
    obtain ⟨-, -, hhead, -⟩ := threadpoolFunction_job hrun
    have hq := hJ.queue
    rw [hhead] at hq
    obtain ⟨rest, rfl, -⟩ := hq.exists_of_head
    have hc := hJ.content_drop
    rw [List.map_cons] at hc
    obtain ⟨b, bs, hdrop, hb, -⟩ := List.map_eq_cons_iff.mp hc.symm
    refine Or.inr (Or.inr ⟨b, bs, hdrop, rfl, ?_⟩)
    have : some b = some job.buff := hb.trans (by simp [buffOf, hjob])
    rw [Option.some.inj this]
  | addJobUndef i arg malloc _ hlive hpc hmalloc hrun => exact absurd hrun hJ.addJob_defined
  | workUndef w _ hlive hpc hrun => exact absurd hrun hJ.work_defined
  | callbackUndef w pjob k _ hpc hjob => exact absurd hjob (hJ.took_defined hpc)
  | freeJobUndef d p _ hpc hhead hjob =>
    rw [hC.closing_head hJ (d := d) (by rw [hpc]; rfl)] at hhead
    cases hhead
  | _ => exact Or.inl ⟨rfl, rfl⟩

/-- No step changes the capacity. -/
theorem Inv.max_step {l : Label n} (h : Inv s) (hstep : Step s l s') :
    s'.pool.queueMaxNum = s.pool.queueMaxNum := by
  obtain ⟨hC, as, hJ⟩ := h
  cases hstep with
  | addJobWait i arg malloc pool heap hlive hpc hrun =>
    obtain ⟨rfl, -⟩ := threadpoolAddJob_wait hrun
    rfl
  | addJobRet i arg malloc pool heap r b hlive hpc hmalloc hrun =>
    rcases threadpoolAddJob_ret hrun with ⟨-, -, rfl, -⟩ | ⟨-, -, -, -, pjob, -, hl⟩
    · rfl
    · exact hl.sameFlags.max
  | workWait w pool hlive hpc hrun =>
    obtain ⟨rfl, -⟩ := threadpoolFunction_wait hrun
    rfl
  | workExit w pool hlive hpc hrun =>
    obtain ⟨rfl, -⟩ := threadpoolFunction_exit hrun
    rfl
  | workJob w pool pjob job b₁ b₂ f hlive hpc hrun hjob hsignal =>
    obtain ⟨-, -, -, _, -, rfl, -⟩ := threadpoolFunction_job hrun
    dsimp only
    split <;> rfl
  | destroyRet d pool r hlive hpc hrun =>
    obtain ⟨rfl, -⟩ := threadpoolDestroy_ret hrun
    rfl
  | destroyWait d pool hlive hrun =>
    rcases hrun with ⟨-, hrun⟩ | ⟨-, hrun⟩
    · obtain ⟨rfl, -⟩ := threadpoolDestroy_wait hrun
      rfl
    · obtain ⟨rfl, -⟩ := drain_wait hrun
      rfl
  | destroyClosed d pool hlive hrun =>
    rcases hrun with ⟨-, hrun⟩ | ⟨-, hrun⟩
    · obtain ⟨rfl, -⟩ := threadpoolDestroy_closed hrun
      rfl
    · obtain ⟨rfl, -⟩ := drain_closed hrun
      rfl
  | addJobUndef i arg malloc _ hlive hpc hmalloc hrun => exact absurd hrun hJ.addJob_defined
  | workUndef w _ hlive hpc hrun => exact absurd hrun hJ.work_defined
  | callbackUndef w pjob k _ hpc hjob => exact absurd hjob (hJ.took_defined hpc)
  | freeJobUndef d p _ hpc hhead hjob =>
    rw [hC.closing_head hJ (d := d) (by rw [hpc]; rfl)] at hhead
    cases hhead
  | _ => rfl

theorem reachable_max {queueMaxNum : ℤ}
    (h : (machine n queueMaxNum).Reachable s) : s.pool.queueMaxNum = queueMaxNum := by
  refine h.invariant (I := fun s => s.pool.queueMaxNum = queueMaxNum) (fun s hs => ?_)
    (fun s l s' hr hi hstep => ?_)
  · subst hs
    rfl
  · exact ((reachable_inv hr).max_step hstep).trans hi

/-- A step of a caller either returns 0 and accepts the caller's buffer, or leaves the
queue as it was. -/
theorem Inv.producer_step (h : Inv s) {i : ℕ} (hstep : Step s (.producer i) s') :
    (∃ arg, (s.producer i = .entry arg ∨ s.producer i = .woken arg) ∧
        s'.producer i = .returned 0 ∧ s'.accepted = s.accepted ++ [arg.buff]) ∨
      (s'.producer i ≠ .returned 0 ∧ s'.pool = s.pool ∧ s'.heap = s.heap ∧
        s'.accepted = s.accepted ∧ s'.dequeued = s.dequeued) := by
  obtain ⟨hC, as, hJ⟩ := h
  cases hstep with
  | call _ arg hlive hpc =>
    exact Or.inr ⟨by simp [Function.update_self], rfl, rfl, rfl, rfl⟩
  | addJobWait _ arg malloc pool heap hlive hpc hrun =>
    obtain ⟨rfl, rfl, -⟩ := threadpoolAddJob_wait hrun
    exact Or.inr ⟨by simp [Function.update_self], rfl, rfl, rfl, rfl⟩
  | addJobRet _ arg malloc pool heap r b hlive hpc hmalloc hrun =>
    rcases threadpoolAddJob_ret hrun with ⟨rfl, -, rfl, rfl⟩ | ⟨rfl, -⟩
    · exact Or.inr ⟨by simp [Function.update_self], rfl, rfl, rfl, rfl⟩
    · exact Or.inl ⟨arg, hpc, Function.update_self .., rfl⟩
  | addJobUndef _ arg malloc _ hlive hpc hmalloc hrun => exact absurd hrun hJ.addJob_defined
  | producerSpurious _ arg hpc =>
    exact Or.inr ⟨by simp [Function.update_self], rfl, rfl, rfl, rfl⟩

/-! ## The refinement -/

theorem represents_simulates {queueMaxNum : ℤ} (hmax : 1 ≤ queueMaxNum) :
    System.Simulates (Fifo.bounded Buff queueMaxNum.toNat) (machine n queueMaxNum)
      Represents where
  init := by
    rintro s rfl
    exact ⟨Fifo.empty, rfl, (jobs_initial _).represents⟩
  step := by
    intro s l s' q hr hq hstep
    have hinv := reachable_inv hr
    obtain ⟨-, as', hJ'⟩ := hinv.step hstep
    obtain ⟨as, hJ⟩ := hinv.2
    obtain rfl := hJ.eq_fifoOf hq
    refine ⟨fifoOf s', ?_, hJ'.represents⟩
    rcases hinv.history_step hstep with ⟨hacc, hdeq⟩ | ⟨b, hacc, hdeq, hroom⟩ |
      ⟨b, rest, hdrop, hacc, hdeq⟩
    · exact Or.inl (by simp only [fifoOf, hacc, hdeq])
    · have hlen : s.dequeued.length ≤ s.accepted.length := by
        have := hJ.length_accepted
        omega
      have hcap : (fifoOf s).content.length < queueMaxNum.toNat := by
        have hcount := hJ.count
        have hacc' := hJ.length_accepted
        have hbound := hJ.bound
        rw [reachable_max hr] at hroom hbound
        simp only [fifoOf, List.length_drop]
        omega
      have he : fifoOf s' = (fifoOf s).enqueue b := by
        simp only [fifoOf, Fifo.enqueue, hacc, hdeq, List.drop_append_of_le_length hlen]
      exact Or.inr ⟨some b, he ▸ Fifo.Step.enqueue _ b hcap⟩
    · have hrest : s.accepted.drop (s.dequeued.length + 1) = rest := by
        rw [← List.drop_drop, hdrop, List.drop_one, List.tail_cons]
      have he : fifoOf s' = { fifoOf s with
          content := rest, delivered := (fifoOf s).delivered ++ [b] } := by
        simp only [fifoOf, hacc, hdeq, List.length_append, List.length_singleton, hrest]
      exact Or.inr ⟨none, he ▸ Fifo.Step.dequeue _ b rest hdrop⟩

/-- `Buff` holds the caller's bytes followed by zeros. -/
theorem Arg.bytes_buff (arg : Arg) :
    arg.buff.bytes = arg.bytes ++ List.replicate (buffSize - arg.bytes.length) 0 := by
  simp only [Arg.buff, CArray.bytes_overlay, CArray.zero, List.drop_replicate]

/-- What a pool of capacity `queueMaxNum` shows whenever its mutex is free. -/
structure BoundedFifo (queueMaxNum : ℤ) (s : State n) : Prop where
  /-- The list runs from `head` to `tail` and has `queue_cur_num` jobs, those accepted and
  not yet dequeued. -/
  list : ∃ as, LinkedQueue (nextOf s.heap) s.pool.head s.pool.tail as ∧
    s.pool.queueCurNum = as.length ∧
    s.accepted.map some = s.dequeued.map some ++ as.map (buffOf s.heap)
  head : s.pool.head = none ↔ s.pool.queueCurNum = 0
  tail : s.pool.tail = none ↔ s.pool.queueCurNum = 0
  nonneg : 0 ≤ s.pool.queueCurNum
  bound : s.pool.queueCurNum ≤ queueMaxNum
  order : s.dequeued <+: s.accepted
  /-- The callback gets the buffers dequeued, unchanged, each at most once. -/
  handed : ∀ p ∈ s.handed, s.dequeued[p.1]? = some p.2
  once : (s.handed.map Prod.fst).Nodup
  /-- A job dequeued and not yet handed over is in the hands of a worker on its way to the
  callback. -/
  pending : ∀ k < s.dequeued.length,
    k ∈ s.handed.map Prod.fst ∨ ∃ w a, s.worker w = .took a k

/-- Buffers come out in the order they went in, as they do in the queue that is refined. -/
theorem dequeued_in_order {queueMaxNum : ℤ} (hmax : 1 ≤ queueMaxNum) {s : State n}
    (h : (machine n queueMaxNum).Reachable s) : s.dequeued <+: s.accepted := by
  obtain ⟨q, hq, hacc, hdel, -⟩ := (represents_simulates hmax).reachable h
  rw [← hacc, ← hdel]
  exact Fifo.bounded_delivered_prefix hq

theorem Inv.boundedFifo (h : Inv s) (hmax : 0 ≤ s.pool.queueMaxNum)
    (horder : s.dequeued <+: s.accepted) : BoundedFifo s.pool.queueMaxNum s := by
  obtain ⟨-, as, hJ⟩ := h
  exact
    { list := ⟨as, hJ.queue, hJ.count, hJ.content⟩
      head := hJ.queue.head_eq_none_iff.trans hJ.count_eq_zero.symm
      tail := hJ.queue.tail_eq_none_iff.trans hJ.count_eq_zero.symm
      nonneg := by rw [hJ.count]; omega
      bound := hJ.bound hmax
      order := horder
      handed := hJ.handedBuff
      once := hJ.handedNodup
      pending := by
        intro k hk
        by_cases hw : ∃ w a, s.worker w = .took a k
        · exact Or.inr hw
        · refine Or.inl ((hJ.handed k hk).mpr fun w a he => hw ⟨w, a, he⟩) }

/-- The job list refines a bounded first-in-first-out queue: the machine is simulated by
it, in every reachable state the representation is sound and the buffers come out in the
order they went in, and a caller that does not return 0 leaves the queue as it was. -/
theorem jobList_refines_fifo (n : ℕ) (queueMaxNum : ℤ) (hmax : 1 ≤ queueMaxNum) :
    System.Simulates (Fifo.bounded Buff queueMaxNum.toNat) (machine n queueMaxNum)
        Represents ∧
      (∀ arg : Arg,
        arg.buff.bytes = arg.bytes ++ List.replicate (buffSize - arg.bytes.length) 0) ∧
      ∀ s, (machine n queueMaxNum).Reachable s →
        BoundedFifo queueMaxNum s ∧
        ∀ i s', Step s (.producer i) s' →
          (∃ arg, (s.producer i = .entry arg ∨ s.producer i = .woken arg) ∧
            s'.producer i = .returned 0 ∧ s'.accepted = s.accepted ++ [arg.buff]) ∨
          (s'.producer i ≠ .returned 0 ∧ s'.pool = s.pool ∧ s'.heap = s.heap ∧
            s'.accepted = s.accepted ∧ s'.dequeued = s.dequeued) := by
  refine ⟨represents_simulates hmax, Arg.bytes_buff, fun s hs => ?_⟩
  have hinv := reachable_inv hs
  refine ⟨?_, fun i s' hstep => hinv.producer_step hstep⟩
  have hcap := reachable_max hs
  rw [← hcap]
  exact hinv.boundedFifo (by omega) (dequeued_in_order hmax hs)

/-- A pool of one worker and capacity one that has accepted one job. -/
theorem jobList_refines_fifo_one_job :
    ∃ s : State 1, (machine 1 1).Reachable s ∧
      s.accepted = [Arg.buff ⟨[65], by decide⟩] ∧ s.pool.queueCurNum = 1 ∧
      BoundedFifo 1 s := by
  have hcalled := (System.Reachable.start (M := machine 1 1) rfl).next
    (Step.call 0 ⟨[65], by decide⟩ rfl (Or.inl rfl))
  have hs := hcalled.next (Step.addJobRet 0 ⟨[65], by decide⟩ (some 7) _ _ 0 true rfl
    (Or.inl rfl) (fun _ _ => rfl) rfl)
  exact ⟨_, hs, rfl, rfl, ((jobList_refines_fifo 1 1 (by decide)).2.2 _ hs).1⟩

end Tdm.Threadpool
