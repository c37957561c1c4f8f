import Tdm.Threadpool.PoolControl

/-!
# Every step keeps `Jobs`

Linking a job in, unlinking the first one, handing it to the callback and freeing it; the
remaining steps leave list, heap and history alone (`Jobs.frame`).
-/

namespace Tdm.Threadpool

open Tdm.Lib

variable {n : ℕ} {s s' : State n} {as : List Addr}

/-! ## Reading the heap -/

theorem nextOf_update (heap : Heap) (a : Addr) (job : Job) :
    nextOf (Function.update heap a (some job)) =
      Function.update (nextOf heap) a job.next := by
  funext b
  by_cases e : b = a
  · subst e
    simp [nextOf]
  · simp [nextOf, Function.update_of_ne e]

theorem buffOf_update_of_ne {heap : Heap} {a b : Addr} {o : Option Job} (h : b ≠ a) :
    buffOf (Function.update heap a o) b = buffOf heap b := by
  unfold buffOf
  rw [Function.update_of_ne h]

/-- Storing into the `next` field changes no buffer. -/
theorem buffOf_update_next {heap : Heap} {a : Addr} {job : Job} {v : Option Addr}
    (h : heap a = some job) :
    buffOf (Function.update heap a (some { job with next := v })) = buffOf heap := by
  funext b
  by_cases e : b = a
  · subst e
    simp [buffOf, h]
  · exact buffOf_update_of_ne e

theorem buffOf_eq_some {heap : Heap} {a : Addr} {b : Buff} (h : buffOf heap a = some b) :
    ∃ job, heap a = some job ∧ job.buff = b :=
  Option.map_eq_some_iff.mp h

namespace Jobs

/-- The listed jobs are live. -/
theorem live (h : Jobs s as) {a : Addr} (ha : a ∈ as) : ∃ job, s.heap a = some job := by
  have hmem : buffOf s.heap a ∈ s.accepted.map some := by
    rw [h.content]
    exact List.mem_append_right _ (List.mem_map_of_mem ha)
  obtain ⟨b, -, hb⟩ := List.mem_map.mp hmem
  obtain ⟨job, hjob, -⟩ := buffOf_eq_some hb.symm
  exact ⟨job, hjob⟩

/-- The job a worker holds is live, and its buffer is the one dequeued. -/
theorem held_live (h : Jobs s as) {w : Fin n} {a : Addr} {k : ℕ}
    (hw : (s.worker w).job = some (a, k)) :
    ∃ job, s.heap a = some job ∧ s.dequeued[k]? = some job.buff := by
  obtain ⟨-, hk, hb⟩ := h.held w a k hw
  rw [List.getElem?_eq_getElem hk] at hb
  obtain ⟨job, hjob, hbuff⟩ := buffOf_eq_some hb
  exact ⟨job, hjob, by rw [List.getElem?_eq_getElem hk, hbuff]⟩

theorem notMem_of_free (h : Jobs s as) {a : Addr} (ha : s.heap a = none) : a ∉ as := by
  intro hm
  obtain ⟨job, hjob⟩ := h.live hm
  rw [ha] at hjob
  cases hjob

theorem length_accepted (h : Jobs s as) :
    s.accepted.length = s.dequeued.length + as.length := by
  simpa using congrArg List.length h.content

theorem dequeued_prefix (h : Jobs s as) : s.dequeued <+: s.accepted := by
  have hp : s.dequeued.map some <+: s.accepted.map some := ⟨_, h.content.symm⟩
  exact (List.prefix_map_iff_of_injective (Option.some_injective _)).mp hp

/-- The counter is zero exactly when the list is empty. -/
theorem count_eq_zero (h : Jobs s as) : s.pool.queueCurNum = 0 ↔ as = [] := by
  rw [h.count, ← List.length_eq_zero_iff]
  omega

/-! ## No undefined behaviour -/

theorem addJob_defined (h : Jobs s as) {arg : Arg} {malloc : Option Addr} :
    threadpoolAddJob s.pool s.heap arg malloc ≠ none := by
  intro hnone
  obtain ⟨pjob, -, hhead, htail⟩ := threadpoolAddJob_undef hnone
  have hne : as ≠ [] := fun he => hhead (h.queue.head_eq_none_iff.mpr he)
  obtain ⟨t, ht⟩ : ∃ t, as.getLast? = some t := ⟨_, List.getLast?_eq_some_getLast hne⟩
  obtain ⟨job, hjob⟩ := h.live (List.mem_of_getLast? ht)
  rw [htail t (h.queue.last.trans ht)] at hjob
  cases hjob

theorem work_defined (h : Jobs s as) : threadpoolFunction s.pool s.heap ≠ none := by
  intro hnone
  obtain ⟨hcur, hhead⟩ := threadpoolFunction_undef hnone
  cases as with
  | nil => exact hcur (h.count_eq_zero.mpr rfl)
  | cons a rest =>
    obtain ⟨job, hjob⟩ := h.live (List.mem_cons_self ..)
    rw [hhead a h.queue.chain.1] at hjob
    cases hjob

/-- The job a worker is about to hand to the callback is live. -/
theorem took_defined (h : Jobs s as) {w : Fin n} {a : Addr} {k : ℕ}
    (hpc : s.worker w = .took a k) : s.heap a ≠ none := by
  intro hnone
  obtain ⟨job, hlive, -⟩ := h.held_live (show (s.worker w).job = some (a, k) by rw [hpc]; rfl)
  rw [hnone] at hlive
  cases hlive

/-! ## The steps -/

/-- A step that touches neither the list nor the heap nor the history. -/
theorem frame (h : Jobs s as) (hhead : s'.pool.head = s.pool.head)
    (htail : s'.pool.tail = s.pool.tail)
    (hcur : s'.pool.queueCurNum = s.pool.queueCurNum)
    (hmax : s'.pool.queueMaxNum = s.pool.queueMaxNum) (hheap : s'.heap = s.heap)
    (hacc : s'.accepted = s.accepted) (hdeq : s'.dequeued = s.dequeued)
    (hhanded : s'.handed = s.handed) (hjob : ∀ w, (s'.worker w).job = (s.worker w).job)
    (htook : ∀ w a k, s'.worker w = .took a k ↔ s.worker w = .took a k) : Jobs s' as where
  queue := by rw [hhead, htail, hheap]; exact h.queue
  nodup := h.nodup
  count := hcur.trans h.count
  bound := by rw [hcur, hmax]; exact h.bound
  content := by rw [hacc, hdeq, hheap]; exact h.content
  held w a k hw := by rw [hdeq, hheap]; exact h.held w a k ((hjob w).symm.trans hw)
  heldAddr w w' a k k' hw hw' :=
    h.heldAddr w w' a k k' ((hjob w).symm.trans hw) ((hjob w').symm.trans hw')
  heldIndex w w' a a' k hw hw' :=
    h.heldIndex w w' a a' k ((hjob w).symm.trans hw) ((hjob w').symm.trans hw')
  handedBuff := by rw [hdeq, hhanded]; exact h.handedBuff
  handedNodup := by rw [hhanded]; exact h.handedNodup
  handed k hk := by
    rw [hhanded, h.handed k (by rwa [hdeq] at hk)]
    exact forall₂_congr fun w a => not_congr (htook w a k).symm

/-- The list after a fresh job was linked in. -/
theorem linked_queue (h : Jobs s as) {arg : Arg} {pjob : Addr} {pool : Pool} {heap : Heap}
    {b : Bool} (hfree : s.heap pjob = none) (hl : Linked s.pool s.heap arg pjob pool heap b) :
    LinkedQueue (nextOf heap) pool.head pool.tail (as ++ [pjob]) := by
  have hmem := h.notMem_of_free hfree
  -- writing the new cell does not disturb the list: it is not on it
  have hq : LinkedQueue (nextOf (Function.update s.heap pjob (some ⟨arg.buff, none⟩)))
      s.pool.head s.pool.tail as := by
    rw [nextOf_update]
    refine h.queue.congr fun a ha => Function.update_of_ne ?_ _ _
    exact fun he => hmem (he ▸ ha)
  have hnull : nextOf (Function.update s.heap pjob (some ⟨arg.buff, none⟩)) pjob = none := by
    rw [nextOf_update, Function.update_self]
  cases hl with
  | first hhead => exact hq.push_empty (hq.head_eq_none_iff.mp hhead) hnull
  | behind t job hhead ht hjob =>
    rw [nextOf_update]
    rw [ht] at hq
    exact hq.push h.nodup hmem hnull

/-- Linking a job in changes no buffer but its own. -/
theorem linked_buffOf {arg : Arg} {pjob : Addr} {pool pool' : Pool} {heap heap' : Heap}
    {b : Bool} (hl : Linked pool heap arg pjob pool' heap' b) :
    buffOf heap' pjob = some arg.buff ∧ ∀ a, a ≠ pjob → buffOf heap' a = buffOf heap a := by
  have hnew : buffOf (Function.update heap pjob (some ⟨arg.buff, none⟩)) pjob
      = some arg.buff := by
    simp [buffOf]
  cases hl with
  | first hhead => exact ⟨hnew, fun a ha => buffOf_update_of_ne ha⟩
  | behind t job hhead ht hjob =>
    rw [buffOf_update_next hjob]
    exact ⟨hnew, fun a ha => buffOf_update_of_ne ha⟩

/-- Accepting a job. -/
theorem accept (h : Jobs s as) {arg : Arg} {pjob : Addr} {pool : Pool} {heap : Heap}
    {b : Bool} {f : ℕ → ProducerPc} (hfree : s.heap pjob = none)
    (hroom : s.pool.queueCurNum ≠ s.pool.queueMaxNum)
    (hl : Linked s.pool s.heap arg pjob pool heap b) :
    Jobs { s with pool := pool, heap := heap, producer := f
                  worker := if b then fun w => (s.worker w).wake else s.worker
                  accepted := s.accepted ++ [arg.buff] } (as ++ [pjob]) := by
  have hmem := h.notMem_of_free hfree
  obtain ⟨hnew, hold⟩ := linked_buffOf hl
  have hjob : ∀ w, ((if b then fun w => (s.worker w).wake else s.worker) w).job
      = (s.worker w).job := by
    intro w
    cases b <;> simp
  have htook : ∀ w a k, (if b then fun w => (s.worker w).wake else s.worker) w = .took a k ↔
      s.worker w = .took a k := by
    intro w a k
    cases b <;> simp
  have hheld : ∀ w a k, (s.worker w).job = some (a, k) → a ≠ pjob := by
    rintro w a k hw rfl
    obtain ⟨job, hlive, -⟩ := h.held_live hw
    rw [hfree] at hlive
    cases hlive
  exact
  { queue := h.linked_queue hfree hl
    nodup := by
      refine List.nodup_append.mpr ⟨h.nodup, List.nodup_singleton _, ?_⟩
      intro a ha b hb
      rw [List.mem_singleton.mp hb]
      exact fun he => hmem (he ▸ ha)
    count := by
      have hc := h.count
      have hl' := hl.count
      simp only [List.length_append, List.length_singleton]
      omega
    bound := by
      have hb := h.bound
      have hl' := hl.count
      have hm := hl.sameFlags.max
      simp only
      omega
    content := by
      have hmap : as.map (buffOf heap) = as.map (buffOf s.heap) :=
        List.map_congr_left fun a ha => hold a fun he => hmem (he ▸ ha)
      simp only [List.map_append, hmap, hnew, List.map_cons, List.map_nil, h.content,
        List.append_assoc]
    held := by
      intro w a k hw
      rw [hjob w] at hw
      obtain ⟨ha, hk, hb⟩ := h.held w a k hw
      refine ⟨?_, hk, (hold a (hheld w a k hw)).trans hb⟩
      simp only [List.mem_append, List.mem_singleton, not_or]
      exact ⟨ha, hheld w a k hw⟩
    heldAddr := fun w w' a k k' hw hw' =>
      h.heldAddr w w' a k k' ((hjob w).symm.trans hw) ((hjob w').symm.trans hw')
    heldIndex := fun w w' a a' k hw hw' =>
      h.heldIndex w w' a a' k ((hjob w).symm.trans hw) ((hjob w').symm.trans hw')
    handedBuff := h.handedBuff
    handedNodup := h.handedNodup
    handed := by
      intro k hk
      rw [h.handed k hk]
      exact forall₂_congr fun w a => not_congr (htook w a k).symm }

/-- The list after its first job was unlinked. -/
theorem unlinked_queue (h : Jobs s as) {pool : Pool} {a : Addr} {job : Job}
    (hhead : s.pool.head = some a) (hjob : s.heap a = some job)
    (hpool : pool = if s.pool.queueCurNum = 1 then
        { s.pool with queueCurNum := s.pool.queueCurNum - 1, head := none, tail := none }
      else { s.pool with queueCurNum := s.pool.queueCurNum - 1, head := job.next }) :
    ∃ rest, as = a :: rest ∧ LinkedQueue (nextOf s.heap) pool.head pool.tail rest := by
  have hq := h.queue
  rw [hhead] at hq
  obtain ⟨rest, rfl, -⟩ := hq.exists_of_head
  refine ⟨rest, rfl, ?_⟩
  have hnext : nextOf s.heap a = job.next := by simp [nextOf, hjob]
  have hpop := hq.pop
  have hone : s.pool.queueCurNum = 1 ↔ rest = [] := by
    rw [h.count, List.length_cons, ← List.length_eq_zero_iff]
    omega
  rw [hpool]
  by_cases he : rest = []
  · rw [if_pos (hone.mpr he)]
    subst he
    exact LinkedQueue.empty _
  · rw [if_neg (fun hc => he (hone.mp hc))]
    rw [if_neg he, hnext] at hpop
    exact hpop

/-- Taking the first job. -/
theorem take (h : Jobs s as) {w : Fin n} {pool : Pool} {a : Addr} {job : Job}
    {f : ℕ → ProducerPc} {g : ℕ → DestroyerPc} (hpc : (s.worker w).job = none)
    (hhead : s.pool.head = some a) (hjob : s.heap a = some job)
    (hpool : pool = if s.pool.queueCurNum = 1 then
        { s.pool with queueCurNum := s.pool.queueCurNum - 1, head := none, tail := none }
      else { s.pool with queueCurNum := s.pool.queueCurNum - 1, head := job.next }) :
    ∃ rest, as = a :: rest ∧
      Jobs { s with pool := pool
                    worker := Function.update s.worker w (.took a s.dequeued.length)
                    destroyer := g
                    producer := f
                    dequeued := s.dequeued ++ [job.buff] } rest := by
  obtain ⟨rest, rfl, hqueue⟩ := h.unlinked_queue hhead hjob hpool
  refine ⟨rest, rfl, ?_⟩
  have hcur : pool.queueCurNum = s.pool.queueCurNum - 1 := by rw [hpool]; split <;> rfl
  have hmax : pool.queueMaxNum = s.pool.queueMaxNum := by rw [hpool]; split <;> rfl
  have ha : a ∉ rest := (List.nodup_cons.mp h.nodup).1
  have hbuff : buffOf s.heap a = some job.buff := by simp [buffOf, hjob]
  -- what the other workers hold is older than this job, and elsewhere
  have hother : ∀ w' a' k, (s.worker w').job = some (a', k) →
      w' ≠ w ∧ a' ≠ a ∧ a' ∉ rest ∧ k < s.dequeued.length ∧
        buffOf s.heap a' = s.dequeued[k]? := by
    intro w' a' k hw'
    obtain ⟨hmem, hk, hb⟩ := h.held w' a' k hw'
    refine ⟨?_, fun he => hmem (he ▸ List.mem_cons_self ..),
      fun hm => hmem (List.mem_cons_of_mem _ hm), hk, hb⟩
    rintro rfl
    rw [hpc] at hw'
    cases hw'
  have hcases : ∀ w' a' k,
      (Function.update s.worker w (.took a s.dequeued.length) w').job = some (a', k) →
      (w' = w ∧ a' = a ∧ k = s.dequeued.length) ∨ (s.worker w').job = some (a', k) := by
    intro w' a' k hw'
    by_cases e : w' = w
    · subst e
      rw [Function.update_self] at hw'
      simp only [WorkerPc.job, Option.some.injEq, Prod.mk.injEq] at hw'
      exact Or.inl ⟨rfl, hw'.1.symm, hw'.2.symm⟩
    · rw [Function.update_of_ne e] at hw'
      exact Or.inr hw'
  exact
  { queue := hqueue
    nodup := (List.nodup_cons.mp h.nodup).2
    count := by
      have hc := h.count
      rw [List.length_cons] at hc
      simp only
      omega
    bound := by
      have hb := h.bound
      simp only
      omega
    content := by
      have hc := h.content
      rw [List.map_cons, hbuff] at hc
      simp only [hc, List.map_append, List.map_cons, List.map_nil, List.append_assoc,
        List.singleton_append]
    held := by
      intro w' a' k hw'
      simp only [List.length_append, List.length_singleton]
      rcases hcases w' a' k hw' with ⟨-, rfl, rfl⟩ | hold
      · exact ⟨ha, by omega, by rw [hbuff]; simp⟩
      · obtain ⟨-, -, hmem, hk, hb⟩ := hother w' a' k hold
        exact ⟨hmem, by omega, by rw [hb, List.getElem?_append_left hk]⟩
    heldAddr := by
      intro w₁ w₂ a' k₁ k₂ h₁ h₂
      rcases hcases w₁ a' k₁ h₁ with ⟨rfl, rfl, -⟩ | o₁ <;>
        rcases hcases w₂ a' k₂ h₂ with ⟨rfl, e, -⟩ | o₂
      · rfl
      · exact absurd rfl (hother w₂ a' k₂ o₂).2.1
      · exact absurd e (hother w₁ a' k₁ o₁).2.1
      · exact h.heldAddr w₁ w₂ a' k₁ k₂ o₁ o₂
    heldIndex := by
      intro w₁ w₂ a₁ a₂ k h₁ h₂
      rcases hcases w₁ a₁ k h₁ with ⟨rfl, -, rfl⟩ | o₁ <;>
        rcases hcases w₂ a₂ _ h₂ with ⟨rfl, -, e⟩ | o₂
      · rfl
      · exact absurd (hother w₂ a₂ _ o₂).2.2.2.1 (lt_irrefl _)
      · exact absurd (e ▸ (hother w₁ a₁ k o₁).2.2.2.1) (lt_irrefl _)
      · exact h.heldIndex w₁ w₂ a₁ a₂ k o₁ o₂
    handedBuff := by
      intro p hp
      have hb := h.handedBuff p hp
      have hlt : p.1 < s.dequeued.length := (List.getElem?_eq_some_iff.mp hb).1
      simp only
      rw [List.getElem?_append_left hlt, hb]
    handedNodup := h.handedNodup
    handed := by
      intro k hk
      simp only [List.length_append, List.length_singleton] at hk
      rcases Nat.lt_succ_iff_lt_or_eq.mp hk with hlt | rfl
      · rw [h.handed k hlt]
        refine forall₂_congr fun w' a' => not_congr ?_
        by_cases e : w' = w
        · subst e
          simp only [Function.update_self, WorkerPc.took.injEq]
          constructor
          · intro hw'
            rw [hw'] at hpc
            cases hpc
          · rintro ⟨-, rfl⟩
            exact absurd hlt (lt_irrefl _)
        · simp only [Function.update_of_ne e]
      · -- the new job is the one this worker is about to hand over
        constructor
        · intro hmem
          obtain ⟨p, hp, hpk⟩ := List.mem_map.mp hmem
          have hb := h.handedBuff p hp
          rw [hpk] at hb
          exact absurd (List.getElem?_eq_some_iff.mp hb).1 (lt_irrefl _)
        · intro hall
          exact absurd (Function.update_self w _ _) (hall w a) }

/-- The callback is called with the job's buffer. -/
theorem callback (h : Jobs s as) {w : Fin n} {a : Addr} {k : ℕ} {job : Job}
    (hpc : s.worker w = .took a k) (hjob : s.heap a = some job) :
    Jobs { s with worker := Function.update s.worker w (.callback a k)
                  handed := s.handed ++ [(k, job.buff)] } as := by
  have hwj : (s.worker w).job = some (a, k) := by rw [hpc]; rfl
  obtain ⟨-, hk, hb⟩ := h.held w a k hwj
  have hsame : ∀ w', (Function.update s.worker w (.callback a k) w').job
      = (s.worker w').job := by
    intro w'
    by_cases e : w' = w
    · subst e
      rw [Function.update_self, hwj]
      rfl
    · rw [Function.update_of_ne e]
  have hfresh : k ∉ s.handed.map Prod.fst := fun hm => (h.handed k hk).mp hm w a hpc
  exact
  { h with
    held := fun w' a' k' hw' => h.held w' a' k' ((hsame w').symm.trans hw')
    heldAddr := fun w₁ w₂ a' k₁ k₂ h₁ h₂ =>
      h.heldAddr w₁ w₂ a' k₁ k₂ ((hsame w₁).symm.trans h₁) ((hsame w₂).symm.trans h₂)
    heldIndex := fun w₁ w₂ a₁ a₂ k' h₁ h₂ =>
      h.heldIndex w₁ w₂ a₁ a₂ k' ((hsame w₁).symm.trans h₁) ((hsame w₂).symm.trans h₂)
    handedBuff := by
      intro p hp
      rcases List.mem_append.mp hp with hp | hp
      · exact h.handedBuff p hp
      · rw [List.mem_singleton.mp hp]
        simp only
        rw [← hb]
        simp [buffOf, hjob]
    handedNodup := by
      rw [List.map_append]
      refine List.nodup_append.mpr ⟨h.handedNodup, List.nodup_singleton _, ?_⟩
      intro k₁ h₁ k₂ h₂
      rw [List.map_cons, List.map_nil, List.mem_singleton] at h₂
      rw [h₂]
      rintro rfl
      exact hfresh h₁
    handed := by
      intro k' hk'
      simp only [List.map_append, List.map_cons, List.map_nil, List.mem_append,
        List.mem_singleton]
      by_cases e : k' = k
      · subst e
        simp only [or_true, true_iff]
        intro w' a' hw'
        by_cases ew : w' = w
        · subst ew
          rw [Function.update_self] at hw'
          cases hw'
        · -- no second worker holds the same position
          rw [Function.update_of_ne ew] at hw'
          exact ew (h.heldIndex w' w a' a k' (by rw [hw']; rfl) hwj)
      · rw [or_iff_left e, h.handed k' hk']
        refine forall₂_congr fun w' a' => not_congr ?_
        by_cases ew : w' = w
        · subst ew
          rw [Function.update_self, hpc]
          simp only [WorkerPc.took.injEq, reduceCtorEq, iff_false, not_and]
          exact fun _ => fun he => e he.symm
        · rw [Function.update_of_ne ew] }

/-- `free(pjob)` after the callback. -/
theorem finish (h : Jobs s as) {w : Fin n} {a : Addr} {k : ℕ}
    (hpc : s.worker w = .callback a k) :
    Jobs { s with heap := Function.update s.heap a none
                  worker := Function.update s.worker w .top } as := by
  have hwj : (s.worker w).job = some (a, k) := by rw [hpc]; rfl
  obtain ⟨hmem, hk, hb⟩ := h.held w a k hwj
  have hold : ∀ w' a' k', (Function.update s.worker w .top w').job = some (a', k') →
      w' ≠ w ∧ (s.worker w').job = some (a', k') := by
    intro w' a' k' hw'
    by_cases e : w' = w
    · subst e
      rw [Function.update_self] at hw'
      cases hw'
    · rw [Function.update_of_ne e] at hw'
      exact ⟨e, hw'⟩
  exact
  { h with
    queue := by
      refine h.queue.congr fun b hb => ?_
      have hne : b ≠ a := fun he => hmem (he ▸ hb)
      simp only [nextOf, Function.update_of_ne hne]
    content := by
      have hmap : as.map (buffOf (Function.update s.heap a none)) = as.map (buffOf s.heap) :=
        List.map_congr_left fun b hb => buffOf_update_of_ne fun he => hmem (he ▸ hb)
      simp only [hmap, h.content]
    held := by
      intro w' a' k' hw'
      obtain ⟨hne, hprev⟩ := hold w' a' k' hw'
      obtain ⟨hmem', hk', hb'⟩ := h.held w' a' k' hprev
      have ha : a' ≠ a := by
        rintro rfl
        exact hne (h.heldAddr w' w a' k' k hprev hwj)
      exact ⟨hmem', hk', (buffOf_update_of_ne ha).trans hb'⟩
    heldAddr := fun w₁ w₂ a' k₁ k₂ h₁ h₂ =>
      h.heldAddr w₁ w₂ a' k₁ k₂ (hold w₁ a' k₁ h₁).2 (hold w₂ a' k₂ h₂).2
    heldIndex := fun w₁ w₂ a₁ a₂ k' h₁ h₂ =>
      h.heldIndex w₁ w₂ a₁ a₂ k' (hold w₁ a₁ k' h₁).2 (hold w₂ a₂ k' h₂).2
    handed := by
      intro k' hk'
      rw [h.handed k' hk']
      refine forall₂_congr fun w' a' => not_congr ?_
      by_cases e : w' = w
      · subst e
        simp only [Function.update_self, hpc, reduceCtorEq]
      · simp only [Function.update_of_ne e] }

end Jobs
end Tdm.Threadpool
