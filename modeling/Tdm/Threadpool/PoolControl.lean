import Tdm.Threadpool.PoolInvariant

/-!
# Every step keeps `Control`

The lemmas of the first part change one component of the state each; the steps that only
move a program point are instances of them. The two steps that move the counter,
accepting a job and taking one, are done in full.
-/

namespace Tdm.Threadpool

open Tdm.Lib

variable {n : ℕ} {s s' : State n}

/-! ## Changing one component -/

/-- New program points for the callers of `threadpool_add_job`. -/
theorem Control.set_producer (h : Control s) {f : ℕ → ProducerPc}
    (hf : ∀ i arg, f i = .asleep arg → s.pool.queueCurNum = s.pool.queueMaxNum) :
    Control { s with producer := f } :=
  { h with producerAsleep := hf }

/-- New program points for the workers: nobody falls asleep on a closed pool or with jobs
left, nobody exits an open pool, and nobody comes back from `pthread_exit`. -/
theorem Control.set_worker (h : Control s) {f : Fin n → WorkerPc}
    (hasleep : ∀ w, f w = .asleep →
      s.worker w = .asleep ∨ s.pool.queueCurNum = 0 ∧ s.pool.poolClose = false)
    (hexit : ∀ w, f w = .exited → s.pool.poolClose = true)
    (hgone : ∀ w, s.worker w = .exited → f w = .exited) :
    Control { s with worker := f } :=
  { h with
    workerAsleep := fun w hw => (hasleep w hw).elim (h.workerAsleep w) (·.1)
    exited := hexit
    awake := by
      intro d hd w hw
      rcases hasleep w hw with hold | ⟨-, hopen⟩
      · exact h.awake d hd w hold
      · have := h.closing d (DestroyerPc.closing_of_issuedNotEmpty hd)
        rw [hopen] at this
        cases this
    joining := fun d i hd w hw => hgone w (h.joining d i hd w hw)
    joined := fun d hd w => hgone w (h.joined d hd w) }

/-- `Control` reads neither the heap nor the history. -/
theorem Control.frame (h : Control s) (hpool : s'.pool = s.pool)
    (hproducer : s'.producer = s.producer) (hworker : s'.worker = s.worker)
    (hdestroyer : s'.destroyer = s.destroyer) : Control s' := by
  cases s
  cases s'
  subst hpool hproducer hworker hdestroyer
  exact { h with }

/-- A worker that has not exited moves to a program point where it is awake. -/
theorem Control.busy_worker (h : Control s) {w : Fin n} {pc : WorkerPc}
    (hfrom : s.worker w ≠ .exited) (hasleep : pc ≠ .asleep) (hexit : pc ≠ .exited) :
    Control { s with worker := Function.update s.worker w pc } := by
  refine h.set_worker ?_ ?_ ?_
  · exact (Function.forall_update_iff s.worker fun w' q => q = .asleep →
      s.worker w' = .asleep ∨ s.pool.queueCurNum = 0 ∧ s.pool.poolClose = false).mpr
        ⟨fun hq => absurd hq hasleep, fun w' _ hw' => Or.inl hw'⟩
  · exact (Function.forall_update_iff s.worker fun _ q => q = .exited →
      s.pool.poolClose = true).mpr ⟨fun hq => absurd hq hexit, fun w' _ => h.exited w'⟩
  · exact (Function.forall_update_iff s.worker fun w' q => s.worker w' = .exited →
      q = .exited).mpr ⟨fun hq => absurd hq hfrom, fun w' _ hw' => hw'⟩

/-- A new program point for one caller of `threadpool_destroy`. -/
theorem Control.set_destroyer (h : Control s) {d : ℕ} {pc : DestroyerPc}
    (hasleep : pc = .asleep → s.pool.queueCurNum ≠ 0)
    (hpassed : pc.passed = true → s.pool.queueClose = true ∧
      ∀ d', (s.destroyer d').passed = true → d' = d)
    (hclosing : pc.closing = true → s.pool.poolClose = true)
    (hawake : pc.issuedNotEmpty = true → ∀ w, s.worker w ≠ .asleep)
    (hjoining : ∀ i, pc = .joining i → ∀ w : Fin n, w.val < i → s.worker w = .exited)
    (hjoined : pc.joined = true → ∀ w, s.worker w = .exited) :
    Control { s with destroyer := Function.update s.destroyer d pc } :=
  { h with
    destroyerAsleep := (Function.forall_update_iff s.destroyer
      fun _ q => q = .asleep → s.pool.queueCurNum ≠ 0).mpr
        ⟨hasleep, fun d' _ => h.destroyerAsleep d'⟩
    passedUnique := by
      intro d₁ d₂ h₁ h₂
      dsimp only at h₁ h₂
      by_cases e₁ : d₁ = d
      · subst e₁
        by_cases e₂ : d₂ = d₁
        · exact e₂.symm
        · rw [Function.update_self] at h₁
          rw [Function.update_of_ne e₂] at h₂
          exact ((hpassed h₁).2 d₂ h₂).symm
      · rw [Function.update_of_ne e₁] at h₁
        by_cases e₂ : d₂ = d
        · subst e₂
          rw [Function.update_self] at h₂
          exact (hpassed h₂).2 d₁ h₁
        · rw [Function.update_of_ne e₂] at h₂
          exact h.passedUnique d₁ d₂ h₁ h₂
    passedClosed := (Function.forall_update_iff s.destroyer
      fun _ q => q.passed = true → s.pool.queueClose = true).mpr
        ⟨fun hp => (hpassed hp).1, fun d' _ => h.passedClosed d'⟩
    closing := (Function.forall_update_iff s.destroyer
      fun _ q => q.closing = true → s.pool.poolClose = true).mpr
        ⟨hclosing, fun d' _ => h.closing d'⟩
    awake := (Function.forall_update_iff s.destroyer
      fun _ q => q.issuedNotEmpty = true → ∀ w, s.worker w ≠ .asleep).mpr
        ⟨hawake, fun d' _ => h.awake d'⟩
    joining := (Function.forall_update_iff s.destroyer
      fun _ q => ∀ i, q = .joining i → ∀ w : Fin n, w.val < i → s.worker w = .exited).mpr
        ⟨hjoining, fun d' _ => h.joining d'⟩
    joined := (Function.forall_update_iff s.destroyer
      fun _ q => q.joined = true → ∀ w, s.worker w = .exited).mpr
        ⟨hjoined, fun d' _ => h.joined d'⟩ }

/-- A caller of `threadpool_destroy` that was past the closed check moves on. -/
theorem Control.advance_destroyer (h : Control s) {d : ℕ} {pc : DestroyerPc}
    (hfrom : (s.destroyer d).passed = true)
    (hasleep : pc = .asleep → s.pool.queueCurNum ≠ 0)
    (hclosing : pc.closing = true → s.pool.poolClose = true)
    (hawake : pc.issuedNotEmpty = true → ∀ w, s.worker w ≠ .asleep)
    (hjoining : ∀ i, pc = .joining i → ∀ w : Fin n, w.val < i → s.worker w = .exited)
    (hjoined : pc.joined = true → ∀ w, s.worker w = .exited) :
    Control { s with destroyer := Function.update s.destroyer d pc } :=
  h.set_destroyer hasleep
    (fun _ => ⟨h.passedClosed d hfrom, fun d' hd' => h.passedUnique d' d hd' hfrom⟩)
    hclosing hawake hjoining hjoined

/-- Nobody is past the closed check of an open queue. -/
theorem Control.not_passed (h : Control s) (hopen : s.pool.queueClose = false) (d : ℕ) :
    (s.destroyer d).passed ≠ true := by
  intro hd
  have := h.passedClosed d hd
  rw [hopen] at this
  cases this

/-- `queue_close = 1`. -/
theorem Control.close_queue (h : Control s) :
    Control { s with pool := { s.pool with queueClose := true } } :=
  { h with
    closedEmpty := fun hc => ⟨(h.closedEmpty hc).1, rfl⟩
    passedClosed := fun _ _ => rfl }

/-- `pool_close = 1`, on a closed queue that is empty. -/
theorem Control.close_pool (h : Control s) (hzero : s.pool.queueCurNum = 0)
    (hclose : s.pool.queueClose = true) :
    Control { s with pool := { s.pool with poolClose := true } } :=
  { h with
    closedEmpty := fun _ => ⟨hzero, hclose⟩
    exited := fun _ _ => rfl
    closing := fun _ _ => rfl }

/-! ## The steps that move the counter -/

/-- Only the list pointers and the counter differ between two pools. -/
structure SameFlags (p q : Pool) : Prop where
  max : q.queueMaxNum = p.queueMaxNum
  queueClose : q.queueClose = p.queueClose
  poolClose : q.poolClose = p.poolClose

theorem Linked.sameFlags {pool pool' : Pool} {heap heap' : Heap} {arg : Arg} {pjob : Addr}
    {b : Bool} (h : Linked pool heap arg pjob pool' heap' b) : SameFlags pool pool' := by
  cases h <;> exact ⟨rfl, rfl, rfl⟩

theorem Linked.count {pool pool' : Pool} {heap heap' : Heap} {arg : Arg} {pjob : Addr}
    {b : Bool} (h : Linked pool heap arg pjob pool' heap' b) :
    pool'.queueCurNum = pool.queueCurNum + 1 := by
  cases h <;> rfl

/-- Accepting a job: the queue was open, so no caller of `threadpool_destroy` depends on
the counter; a queue that was empty has all its sleeping workers woken. -/
theorem Control.accept (h : Control s) {i : ℕ} {r : ℤ} {pool : Pool} {heap : Heap}
    {b : Bool} {as : List Addr} (hjobs : Jobs s as)
    (hroom : s.pool.queueCurNum ≠ s.pool.queueMaxNum)
    (hq : s.pool.queueClose = false) (hp : s.pool.poolClose = false)
    (hflags : SameFlags s.pool pool) (hb : b = false → s.pool.head ≠ none)
    (acc : List Buff) :
    Control { s with pool := pool, heap := heap
                     producer := Function.update s.producer i (.returned r)
                     worker := if b then fun w => (s.worker w).wake else s.worker
                     accepted := acc } where
  workerAsleep := by
    intro w hw
    -- a worker still asleep means no broadcast, so the queue had a job and nobody slept
    cases b with
    | true => exact absurd hw (WorkerPc.wake_ne_asleep _)
    | false =>
      have hzero := h.workerAsleep w hw
      have hempty : as = [] := by
        have hc := hjobs.count
        rw [hzero] at hc
        exact List.length_eq_zero_iff.mp (by omega)
      exact absurd (hjobs.queue.head_eq_none_iff.mpr hempty) (hb rfl)
  producerAsleep := by
    refine (Function.forall_update_iff s.producer
      fun _ q => ∀ arg, q = .asleep arg → pool.queueCurNum = pool.queueMaxNum).mpr
        ⟨nofun, fun j _ arg hj => ?_⟩
    exact absurd (h.producerAsleep j arg hj) hroom
  destroyerAsleep := by
    intro d hd
    exact absurd (show (s.destroyer d).passed = true by
      rw [show s.destroyer d = .asleep from hd]; rfl) (h.not_passed hq d)
  closedEmpty := by
    intro hc
    rw [show pool.poolClose = s.pool.poolClose from hflags.poolClose, hp] at hc
    cases hc
  exited := by
    intro w hw
    have hold : s.worker w = .exited := by
      cases b with
      | true => exact WorkerPc.wake_eq_exited.mp hw
      | false => exact hw
    have := h.exited w hold
    rw [hp] at this
    cases this
  passedUnique d _ hd := absurd hd (h.not_passed hq d)
  passedClosed d hd := absurd hd (h.not_passed hq d)
  closing d hd := absurd (DestroyerPc.passed_of_closing hd) (h.not_passed hq d)
  awake d hd := absurd (DestroyerPc.passed_of_closing
    (DestroyerPc.closing_of_issuedNotEmpty hd)) (h.not_passed hq d)
  joining d i hd := absurd (show (s.destroyer d).passed = true by
    rw [show s.destroyer d = .joining i from hd]; rfl) (h.not_passed hq d)
  joined d hd := absurd (DestroyerPc.passed_of_closing
    (DestroyerPc.closing_of_issuedNotEmpty (DestroyerPc.issuedNotEmpty_of_issued
      (DestroyerPc.issued_of_joined hd)))) (h.not_passed hq d)

/-- What a signal on `queue_empty` leaves of the program points: at most one sleeper
becomes `woken`. -/
theorem SignalEmpty.cases {f f' : ℕ → DestroyerPc} (h : SignalEmpty f f') (d : ℕ) :
    f' d = f d ∨ (f d = .asleep ∧ f' d = .woken) := by
  rcases h with ⟨d₀, h₀, rfl⟩ | ⟨-, rfl⟩
  · by_cases e : d = d₀
    · subst e
      exact Or.inr ⟨h₀, Function.update_self ..⟩
    · exact Or.inl (Function.update_of_ne e _ _)
  · exact Or.inl rfl

/-- With one sleeper at most, a signal leaves nobody asleep. -/
theorem SignalEmpty.not_asleep {f f' : ℕ → DestroyerPc} (h : SignalEmpty f f')
    (huniq : ∀ d d', f d = .asleep → f d' = .asleep → d = d') (d : ℕ) :
    f' d ≠ .asleep := by
  rcases h with ⟨d₀, h₀, rfl⟩ | ⟨hnone, rfl⟩
  · by_cases e : d = d₀
    · subst e
      simp
    · rw [Function.update_of_ne e]
      exact fun hd => e (huniq d d₀ hd h₀)
  · exact hnone d

/-- Taking a job: a worker that leaves the queue empty signals `queue_empty`, one that
leaves room in a full queue wakes every caller asleep on `queue_not_full`. -/
theorem Control.take (h : Control s) {w : Fin n} {pool : Pool} {pjob : Addr} {k : ℕ}
    {f : ℕ → DestroyerPc} {deq : List Buff}
    (hcur : s.pool.queueCurNum ≠ 0) (hopen : s.pool.poolClose = false)
    (hflags : SameFlags s.pool pool) (hcount : pool.queueCurNum = s.pool.queueCurNum - 1)
    (hf : if s.pool.queueCurNum = 1 then SignalEmpty s.destroyer f else f = s.destroyer) :
    Control { s with pool := pool
                     worker := Function.update s.worker w (.took pjob k)
                     destroyer := f
                     producer := if s.pool.queueCurNum = s.pool.queueMaxNum then
                       fun i => (s.producer i).wake else s.producer
                     dequeued := deq } := by
  -- nobody is past `pool_close = 1`, and the signal only turns `asleep` into `woken`
  have hold : ∀ d, f d = s.destroyer d ∨ (s.destroyer d = .asleep ∧ f d = .woken) := by
    intro d
    split at hf
    · exact hf.cases d
    · exact Or.inl (congrFun hf d)
  have hpassed : ∀ d, (f d).passed = (s.destroyer d).passed := by
    intro d
    rcases hold d with e | ⟨e₁, e₂⟩
    · rw [e]
    · rw [e₁, e₂]; rfl
  have hclosing : ∀ d, (f d).closing ≠ true := by
    intro d hd
    have hd' : (s.destroyer d).closing = true := by
      rcases hold d with e | ⟨-, e₂⟩
      · rwa [e] at hd
      · rw [e₂] at hd; cases hd
    have := h.closing d hd'
    rw [hopen] at this
    cases this
  exact
  { workerAsleep := by
      refine (Function.forall_update_iff s.worker
        fun _ q => q = .asleep → pool.queueCurNum = 0).mpr
          ⟨nofun, fun w' _ hw' => ?_⟩
      exact absurd (h.workerAsleep w' hw') hcur
    producerAsleep := by
      intro i arg hi
      dsimp only at hi
      split at hi
      · exact absurd hi (ProducerPc.wake_ne_asleep _ _)
      · rename_i hne
        exact absurd (h.producerAsleep i arg hi) hne
    destroyerAsleep := by
      intro d hd
      dsimp only at hd ⊢
      rw [hcount]
      split at hf
      · refine absurd hd (hf.not_asleep (fun d₁ d₂ h₁ h₂ => ?_) d)
        exact h.passedUnique d₁ d₂ (by rw [h₁]; rfl) (by rw [h₂]; rfl)
      · rename_i hne
        intro hz
        exact hne (by omega)
    closedEmpty := by
      intro hc
      rw [show pool.poolClose = s.pool.poolClose from hflags.poolClose, hopen] at hc
      cases hc
    exited := by
      refine (Function.forall_update_iff s.worker
        fun _ q => q = .exited → pool.poolClose = true).mpr
          ⟨nofun, fun w' _ hw' => ?_⟩
      rw [hflags.poolClose]
      exact h.exited w' hw'
    passedUnique := fun d d' hd hd' =>
      h.passedUnique d d' ((hpassed d).symm.trans hd) ((hpassed d').symm.trans hd')
    passedClosed := fun d hd => by
      rw [hflags.queueClose]
      exact h.passedClosed d ((hpassed d).symm.trans hd)
    closing := fun d hd => absurd hd (hclosing d)
    awake := fun d hd => absurd (DestroyerPc.closing_of_issuedNotEmpty hd) (hclosing d)
    joining := fun d i hd => absurd (show (f d).closing = true by
      rw [show f d = .joining i from hd]; rfl) (hclosing d)
    joined := fun d hd => absurd (DestroyerPc.closing_of_issuedNotEmpty
      (DestroyerPc.issuedNotEmpty_of_issued (DestroyerPc.issued_of_joined hd)))
      (hclosing d) }

end Tdm.Threadpool
