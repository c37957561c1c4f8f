import Tdm.Thread.Workers
import Tdm.Lib.Progress
import Mathlib.Data.Finset.Prod
import Mathlib.Algebra.Order.BigOperators.Group.Finset

/-!
# Starting the workers

`thread_init_pool` calls `thread_init` once for each group of workers. The call sets `init_count`
to 0, sets up the queues and pipes of its group, creates the threads and waits on `init_cond` until
all of them have counted themselves in. The counter is shared by all calls, and the store that
resets it is not protected by `init_lock`.

The machine starts groups of any sizes one after the other. A worker that counts itself in does so
in several steps, so that the unprotected store could come between its load and its store. Running
out of memory, pipes or threads ends the process (`exited`).
-/

namespace Tdm.Thread

open Tdm.Lib

/-! ## Program points -/

/-- The main thread inside `thread_init`, or behind all calls of it. -/
inductive InitPc
  /-- about to store 0 in `init_count` -/
  | reset
  /-- about to set up worker `i`, or to store the array when all are set up -/
  | setup (i : ℕ)
  /-- about to create worker `i`, or to lock when all are created -/
  | create (i : ℕ)
  | lock
  /-- inside `wait_for_thread_registration`, with `init_lock` -/
  | test
  | asleep
  | woken
  | unlock
  | returned
  | exited
deriving DecidableEq

/-- A worker inside `register_thread_initialized`. -/
inductive StartPc
  | absent
  | created
  | locked
  /-- has read `init_count` -/
  | loaded (v : ℕ)
  /-- has stored it and is about to signal and to unlock -/
  | stored
  /-- in `event_base_loop` -/
  | running
deriving DecidableEq

/-- Who holds `init_lock`. A worker is given by its group and its index. -/
inductive Holder
  | main
  | worker (w : ℕ × ℕ)
deriving DecidableEq

/-! ## The machine -/

structure Boot where
  /-- the call of `thread_init` that is running -/
  group : ℕ
  main : InitPc
  initCount : ℕ
  lock : Option Holder
  /-- `setup_thread` has been called -/
  ready : ℕ × ℕ → Bool
  /-- the array of the group has been stored in `*me` -/
  stored : ℕ → Bool
  worker : ℕ × ℕ → StartPc

/-- Where the main thread is when `g` calls have returned. -/
def InitPc.next (sizes : List ℕ) (g : ℕ) : InitPc := if g < sizes.length then .reset else .returned

/-- Before the first call of `thread_init`. -/
def bootInitial (sizes : List ℕ) : Boot where
  group := 0
  main := .next sizes 0
  initCount := 0
  lock := none
  ready := fun _ => false
  stored := fun _ => false
  worker := fun _ => .absent

/-- `nthreads` of a call. -/
def nthreads (sizes : List ℕ) (g : ℕ) : ℕ := sizes.getD g 0

/-- `pthread_cond_signal(&init_cond)`: only the main thread waits there. -/
def InitPc.signal : InitPc → InitPc
  | .asleep => .woken
  | pc => pc

inductive BootLabel
  | main
  | worker (w : ℕ × ℕ)
  /-- a call that the main thread needs fails -/
  | failure
  /-- `pthread_cond_wait` returns without a signal -/
  | spurious

/-- The steps, for groups of the sizes given. -/
inductive BootStep (sizes : List ℕ) (s : Boot) : BootLabel → Boot → Prop
  | reset (hpc : s.main = .reset) :
      BootStep sizes s .main { s with initCount := 0, main := .setup 0 }
  | setup (i : ℕ) (hpc : s.main = .setup i) (hi : i < nthreads sizes s.group) :
      BootStep sizes s .main
        { s with ready := Function.update s.ready (s.group, i) true, main := .setup (i + 1) }
  | store (hpc : s.main = .setup (nthreads sizes s.group)) :
      BootStep sizes s .main
        { s with stored := Function.update s.stored s.group true, main := .create 0 }
  | create (i : ℕ) (hpc : s.main = .create i) (hi : i < nthreads sizes s.group) :
      BootStep sizes s .main
        { s with worker := Function.update s.worker (s.group, i) .created
                 main := .create (i + 1) }
  | created (hpc : s.main = .create (nthreads sizes s.group)) :
      BootStep sizes s .main { s with main := .lock }
  /-- `calloc`, `pipe`, `event_init`, `event_add`, `malloc` or `pthread_create` fails -/
  | exit (i : ℕ) (hpc : s.main = .setup i ∨ s.main = .create i) :
      BootStep sizes s .failure { s with main := .exited }
  | lock (hpc : s.main = .lock ∨ s.main = .woken) (hfree : s.lock = none) :
      BootStep sizes s .main { s with lock := some .main, main := .test }
  | wait (hpc : s.main = .test) (hcount : s.initCount < nthreads sizes s.group) :
      BootStep sizes s .main { s with lock := none, main := .asleep }
  | pass (hpc : s.main = .test) (hcount : nthreads sizes s.group ≤ s.initCount) :
      BootStep sizes s .main { s with main := .unlock }
  /-- the call returns, and the next one begins if there is one -/
  | unlock (hpc : s.main = .unlock) :
      BootStep sizes s .main
        { s with lock := none, group := s.group + 1, main := .next sizes (s.group + 1) }
  | spurious (hpc : s.main = .asleep) : BootStep sizes s .spurious { s with main := .woken }
  | workerLock (w : ℕ × ℕ) (halive : s.main ≠ .exited) (hpc : s.worker w = .created)
      (hfree : s.lock = none) :
      BootStep sizes s (.worker w)
        { s with lock := some (.worker w), worker := Function.update s.worker w .locked }
  | workerLoad (w : ℕ × ℕ) (halive : s.main ≠ .exited) (hpc : s.worker w = .locked) :
      BootStep sizes s (.worker w)
        { s with worker := Function.update s.worker w (.loaded s.initCount) }
  | workerStore (w : ℕ × ℕ) (v : ℕ) (halive : s.main ≠ .exited) (hpc : s.worker w = .loaded v) :
      BootStep sizes s (.worker w)
        { s with initCount := v + 1, worker := Function.update s.worker w .stored }
  | workerSignal (w : ℕ × ℕ) (halive : s.main ≠ .exited) (hpc : s.worker w = .stored) :
      BootStep sizes s (.worker w)
        { s with lock := none, main := s.main.signal
                 worker := Function.update s.worker w .running }

/-- Groups of the sizes given, started one after the other. -/
def boot (sizes : List ℕ) : System Boot BootLabel where
  init s := s = bootInitial sizes
  step := BootStep sizes

/-- `thread_init_pool`. -/
def threadInitPool : System Boot BootLabel := boot [rtPoolNum, poolNum]

/-! ## The invariant -/

/-- Between the lock and the unlock of `register_thread_initialized`. -/
def StartPc.holds : StartPc → Bool
  | .locked | .loaded _ | .stored => true
  | .absent | .created | .running => false

/-- The worker has counted itself in. -/
def StartPc.counted : StartPc → ℕ
  | .stored | .running => 1
  | .absent | .created | .locked | .loaded _ => 0

/-- With `init_lock`. -/
def InitPc.holds : InitPc → Bool
  | .test | .unlock => true
  | _ => false

/-- The number of workers of its group that the main thread has created. -/
def InitPc.made (n : ℕ) : InitPc → ℕ
  | .reset | .setup _ | .returned | .exited => 0
  | .create i => i
  | .lock | .test | .asleep | .woken | .unlock => n

/-- The number of workers of its group that it has set up. -/
def InitPc.prepared (n : ℕ) : InitPc → ℕ
  | .reset | .returned | .exited => 0
  | .setup i => i
  | .create _ | .lock | .test | .asleep | .woken | .unlock => n

/-- The array of its group has been stored. -/
def InitPc.stored : InitPc → Bool
  | .reset | .setup _ | .returned | .exited => false
  | .create _ | .lock | .test | .asleep | .woken | .unlock => true

/-- Between the reset of `init_count` and the return. -/
def InitPc.counting : InitPc → Bool
  | .reset | .returned | .exited => false
  | _ => true

/-- The workers of group `g` when it has `n`. -/
def members (g n : ℕ) : Finset (ℕ × ℕ) := {g} ×ˢ Finset.range n

@[simp] theorem mem_members {g n : ℕ} {w : ℕ × ℕ} : w ∈ members g n ↔ w.1 = g ∧ w.2 < n := by
  rw [members, Finset.mem_product, Finset.mem_singleton, Finset.mem_range]

theorem card_members (g n : ℕ) : (members g n).card = n := by
  rw [members, Finset.card_product, Finset.card_singleton, Finset.card_range, Nat.one_mul]

/-- How many workers have counted themselves in. -/
def Boot.counted (s : Boot) (sizes : List ℕ) : ℕ :=
  ∑ w ∈ members s.group (nthreads sizes s.group), (s.worker w).counted

/-- Which workers there are, and what has been prepared for them. -/
structure Census (sizes : List ℕ) (s : Boot) : Prop where
  /-- the calls that have returned -/
  past : ∀ w, w.1 < s.group → w.2 < nthreads sizes w.1 → s.worker w = .running
  present : ∀ w, s.worker w ≠ .absent → w.2 < nthreads sizes w.1 ∧
    (w.1 < s.group ∨ w.1 = s.group ∧ w.2 < s.main.made (nthreads sizes s.group))
  created : ∀ i, i < s.main.made (nthreads sizes s.group) → s.worker (s.group, i) ≠ .absent
  made_le : s.main.made (nthreads sizes s.group) ≤ nthreads sizes s.group
  prepared_le : s.main.prepared (nthreads sizes s.group) ≤ nthreads sizes s.group
  group_le : s.group ≤ sizes.length
  group_lt : s.main ≠ .returned ↔ s.group < sizes.length
  ready : ∀ w, w.2 < nthreads sizes w.1 →
    (w.1 < s.group ∨ w.1 = s.group ∧ w.2 < s.main.prepared (nthreads sizes s.group)) →
    s.ready w = true
  stored : ∀ g, (g < s.group ∨ g = s.group ∧ s.main.stored = true) → s.stored g = true

/-- Who holds the lock, and what the counter says. -/
structure Counting (sizes : List ℕ) (s : Boot) : Prop where
  lockMain : s.lock = some .main ↔ s.main.holds = true
  lockWorker : ∀ w, s.lock = some (.worker w) ↔ (s.worker w).holds = true
  loaded : ∀ w v, s.worker w = .loaded v → v = s.initCount
  count : s.main.counting = true → s.initCount = s.counted sizes
  asleep : s.main = .asleep →
    s.initCount < nthreads sizes s.group ∨ ∃ w, s.worker w = .stored
  full : s.main = .unlock → nthreads sizes s.group ≤ s.initCount

/-- The invariant, as long as the process lives. -/
def BootInv (sizes : List ℕ) (s : Boot) : Prop := Census sizes s ∧ Counting sizes s

/-- Between two calls the main thread has made nothing and has no lock. -/
theorem InitPc.next_idle (sizes : List ℕ) (g n : ℕ) :
    (InitPc.next sizes g).holds = false ∧ (InitPc.next sizes g).counting = false ∧
      (InitPc.next sizes g).made n = 0 ∧ (InitPc.next sizes g).prepared n = 0 ∧
      (InitPc.next sizes g).stored = false := by
  unfold InitPc.next
  split <;> exact ⟨rfl, rfl, rfl, rfl, rfl⟩

theorem InitPc.next_ne_returned (sizes : List ℕ) (g : ℕ) :
    InitPc.next sizes g ≠ .returned ↔ g < sizes.length := by
  unfold InitPc.next
  split
  · exact iff_of_true nofun ‹_›
  · exact iff_of_false (fun hne => hne rfl) ‹_›

/-- A worker is created when its whole group has been set up. -/
theorem InitPc.prepared_of_made {pc : InitPc} {n i : ℕ} (h : i < pc.made n) :
    pc.prepared n = n ∧ pc.stored = true := by
  cases pc with
  | reset | setup _ | returned | exited => cases h
  | _ => exact ⟨rfl, rfl⟩

theorem InitPc.next_ne {pc : InitPc} (hpc : pc.counting = true) (sizes : List ℕ) (g : ℕ) :
    InitPc.next sizes g ≠ pc := by
  rintro rfl
  rw [(next_idle sizes g 0).2.1] at hpc
  cases hpc

/-! ### Steps of the workers -/

theorem InitPc.signal_cases (pc : InitPc) : pc.signal = pc ∨ pc = .asleep ∧ pc.signal = .woken := by
  cases pc with
  | asleep => exact .inr ⟨rfl, rfl⟩
  | _ => exact .inl rfl

namespace Census

variable {sizes : List ℕ} {s s' : Boot} {w : ℕ × ℕ}

/-- A worker that is counting itself in belongs to the group that is being started. -/
theorem current (h : Census sizes s) (habsent : s.worker w ≠ .absent)
    (hrunning : s.worker w ≠ .running) : w ∈ members s.group (nthreads sizes s.group) := by
  obtain ⟨hlt, hpast | ⟨hgroup, -⟩⟩ := h.present w habsent
  · exact absurd (h.past w hpast hlt) hrunning
  · exact mem_members.mpr ⟨hgroup, hgroup ▸ hlt⟩

/-- The worker that is created next does not exist yet. -/
theorem absent (h : Census sizes s) {i : ℕ} (hpc : s.main = .create i) :
    s.worker (s.group, i) = .absent := by
  by_contra hne
  obtain ⟨-, hlt | ⟨-, hlt⟩⟩ := h.present _ hne
  · exact Nat.lt_irrefl _ hlt
  · rw [hpc] at hlt
    exact Nat.lt_irrefl _ hlt

/-- Such a worker gets further. The main thread is where it was, or has been woken. -/
theorem move (h : Census sizes s) {pc : StartPc} (habsent : s.worker w ≠ .absent)
    (hrunning : s.worker w ≠ .running) (hpc : pc ≠ .absent)
    (hworker : s'.worker = Function.update s.worker w pc) (hgroup : s'.group = s.group)
    (hmain : s'.main = s.main ∨ s.main = .asleep ∧ s'.main = .woken)
    (hready : s'.ready = s.ready) (hstored : s'.stored = s.stored) : Census sizes s' := by
  have hsame : s'.main.made (nthreads sizes s'.group) = s.main.made (nthreads sizes s.group) ∧
      s'.main.prepared (nthreads sizes s'.group) = s.main.prepared (nthreads sizes s.group) ∧
      s'.main.stored = s.main.stored ∧ (s'.main = .returned ↔ s.main = .returned) := by
    rw [hgroup]
    rcases hmain with heq | ⟨hasleep, hwoken⟩
    · rw [heq]
      exact ⟨rfl, rfl, rfl, .rfl⟩
    · rw [hasleep, hwoken]
      exact ⟨rfl, rfl, rfl, iff_of_false nofun nofun⟩
  obtain ⟨hmade, hprepared, hmainStored, hreturned⟩ := hsame
  have habsent' : ∀ w', s'.worker w' = .absent ↔ s.worker w' = .absent := by
    intro w'
    rw [hworker]
    rcases eq_or_ne w' w with rfl | hne
    · rw [Function.update_self]
      exact iff_of_false hpc habsent
    · rw [Function.update_of_ne hne]
  constructor
  · intro w' hlt hsize
    rw [hgroup] at hlt
    have hold := h.past w' hlt hsize
    rw [hworker, Function.update_of_ne]
    · exact hold
    · rintro rfl
      exact hrunning hold
  · intro w' hw'
    rw [hmade, hgroup]
    exact h.present w' (mt (habsent' w').mpr hw')
  · intro i hi
    rw [hmade] at hi
    rw [hgroup]
    exact mt (habsent' _).mp (h.created i hi)
  · rw [hmade, hgroup]
    exact h.made_le
  · rw [hprepared, hgroup]
    exact h.prepared_le
  · rw [hgroup]
    exact h.group_le
  · rw [hgroup, ne_eq, hreturned]
    exact h.group_lt
  · rw [hready, hprepared, hgroup]
    exact h.ready
  · rw [hstored, hmainStored, hgroup]
    exact h.stored

/-- The main thread moves inside the call, and the workers are as they were. -/
theorem stay (h : Census sizes s) (hworker : s'.worker = s.worker) (hgroup : s'.group = s.group)
    (hready : s'.ready = s.ready) (hstored : s'.stored = s.stored)
    (hmade : s'.main.made (nthreads sizes s.group) = s.main.made (nthreads sizes s.group))
    (hprepared : s'.main.prepared (nthreads sizes s.group) =
      s.main.prepared (nthreads sizes s.group))
    (hmain : s'.main.stored = s.main.stored) (hreturned : s.main ≠ .returned)
    (hreturned' : s'.main ≠ .returned) : Census sizes s' where
  past := by
    rw [hworker, hgroup]
    exact h.past
  present := by
    rw [hworker, hgroup, hmade]
    exact h.present
  created := by
    rw [hworker, hgroup, hmade]
    exact h.created
  made_le := by
    rw [hgroup, hmade]
    exact h.made_le
  prepared_le := by
    rw [hgroup, hprepared]
    exact h.prepared_le
  group_le := by
    rw [hgroup]
    exact h.group_le
  group_lt := by
    rw [hgroup]
    exact iff_of_true hreturned' (h.group_lt.mp hreturned)
  ready := by
    rw [hready, hgroup, hprepared]
    exact h.ready
  stored := by
    rw [hstored, hgroup, hmain]
    exact h.stored

theorem setup (h : Census sizes s) {i : ℕ} (hpc : s.main = .setup i)
    (hi : i < nthreads sizes s.group) :
    Census sizes
      { s with ready := Function.update s.ready (s.group, i) true, main := .setup (i + 1) } :=
  { h with
    present := by
      have hp := h.present
      rw [hpc] at hp
      exact hp
    created := nofun
    made_le := Nat.zero_le _
    prepared_le := hi
    group_lt := iff_of_true nofun (h.group_lt.mp (by rw [hpc]; nofun))
    ready := by
      intro w hsize hw
      rcases eq_or_ne w (s.group, i) with rfl | hne
      · exact Function.update_self ..
      · show Function.update s.ready (s.group, i) true w = true
        rw [Function.update_of_ne hne]
        refine h.ready w hsize ?_
        rcases hw with hlt | ⟨hgroup, hlt⟩
        · exact .inl hlt
        · have hlast : w.2 ≠ i := fun he => hne (Prod.ext hgroup he)
          rw [hpc]
          exact .inr ⟨hgroup, Nat.lt_of_le_of_ne (Nat.le_of_lt_succ hlt) hlast⟩
    stored := by
      have hst := h.stored
      rw [hpc] at hst
      exact hst }

theorem store (h : Census sizes s) (hpc : s.main = .setup (nthreads sizes s.group)) :
    Census sizes
      { s with stored := Function.update s.stored s.group true, main := .create 0 } :=
  { h with
    present := by
      have hp := h.present
      rw [hpc] at hp
      exact hp
    created := nofun
    made_le := Nat.zero_le _
    prepared_le := Nat.le_refl _
    group_lt := iff_of_true nofun (h.group_lt.mp (by rw [hpc]; nofun))
    ready := by
      have hr := h.ready
      rw [hpc] at hr
      exact hr
    stored := by
      intro g hg
      rcases eq_or_ne g s.group with rfl | hne
      · exact Function.update_self ..
      · show Function.update s.stored s.group true g = true
        rw [Function.update_of_ne hne]
        exact h.stored g (.inl (hg.resolve_right fun hcur => hne hcur.1)) }

theorem create (h : Census sizes s) {i : ℕ} (hpc : s.main = .create i)
    (hi : i < nthreads sizes s.group) :
    Census sizes
      { s with worker := Function.update s.worker (s.group, i) .created, main := .create (i + 1) } :=
  { h with
    past := by
      intro w hlt hsize
      have hne : w ≠ (s.group, i) := fun he => absurd hlt (by rw [he]; exact Nat.lt_irrefl _)
      show Function.update s.worker (s.group, i) .created w = .running
      rw [Function.update_of_ne hne]
      exact h.past w hlt hsize
    present := by
      intro w hw
      rcases eq_or_ne w (s.group, i) with rfl | hne
      · exact ⟨hi, .inr ⟨rfl, Nat.lt_succ_self i⟩⟩
      · have hold : s.worker w ≠ .absent := by
          intro he
          exact hw ((Function.update_of_ne hne _ _).trans he)
        obtain ⟨hsize, hwhere⟩ := h.present w hold
        rw [hpc] at hwhere
        exact ⟨hsize, hwhere.imp_right fun ⟨hg, hlt⟩ => ⟨hg, Nat.lt_succ_of_lt hlt⟩⟩
    created := by
      intro j hj
      show Function.update s.worker (s.group, i) .created (s.group, j) ≠ .absent
      rcases eq_or_ne j i with rfl | hne
      · rw [Function.update_self]
        nofun
      · rw [Function.update_of_ne fun he => hne (Prod.mk.inj he).2]
        refine h.created j ?_
        rw [hpc]
        exact Nat.lt_of_le_of_ne (Nat.le_of_lt_succ hj) hne
    made_le := hi
    prepared_le := Nat.le_refl _
    group_lt := iff_of_true nofun (h.group_lt.mp (by rw [hpc]; nofun))
    ready := by
      have hr := h.ready
      rw [hpc] at hr
      exact hr
    stored := by
      have hst := h.stored
      rw [hpc] at hst
      exact hst }

/-- The call returns when all workers of its group are in their event loops. -/
theorem unlock (h : Census sizes s) (hpc : s.main = .unlock)
    (hall : ∀ i < nthreads sizes s.group, s.worker (s.group, i) = .running) :
    Census sizes
      { s with lock := none, group := s.group + 1, main := .next sizes (s.group + 1) } := by
  have hlt := h.group_lt.mp (by rw [hpc]; nofun)
  have hnext := fun n => (InitPc.next_idle sizes (s.group + 1) n).2.2
  constructor
  · intro w hw hsize
    rcases Nat.lt_succ_iff_lt_or_eq.mp hw with hold | heq
    · exact h.past w hold hsize
    · rw [heq] at hsize
      have hrun := hall w.2 hsize
      rw [← heq] at hrun
      exact hrun
  · intro w hw
    obtain ⟨hsize, hwhere⟩ := h.present w hw
    refine ⟨hsize, .inl ?_⟩
    show w.1 < s.group + 1
    omega
  · intro i hi
    rw [(hnext _).1] at hi
    cases hi
  · rw [(hnext _).1]
    exact Nat.zero_le _
  · rw [(hnext _).2.1]
    exact Nat.zero_le _
  · exact hlt
  · exact InitPc.next_ne_returned sizes _
  · intro w hsize hw
    refine h.ready w hsize ?_
    rw [hpc]
    rcases hw with hw | ⟨-, hw⟩
    · rcases Nat.lt_succ_iff_lt_or_eq.mp hw with hold | heq
      · exact .inl hold
      · exact .inr ⟨heq, heq ▸ hsize⟩
    · rw [(hnext _).2.1] at hw
      cases hw
  · intro g hg
    refine h.stored g ?_
    rw [hpc]
    rcases hg with hg | ⟨-, hg⟩
    · rcases Nat.lt_succ_iff_lt_or_eq.mp hg with hold | heq
      · exact .inl hold
      · exact .inr ⟨heq, rfl⟩
    · rw [(hnext 0).2.2] at hg
      cases hg

end Census

/-! ### The lock and the counter -/

namespace Counting

variable {sizes : List ℕ} {s s' : Boot} {w : ℕ × ℕ}

/-- With the lock free no worker is inside. -/
theorem not_holds (h : Counting sizes s) (hfree : s.lock ≠ some (.worker w)) :
    (s.worker w).holds = false :=
  Bool.eq_false_iff.mpr (mt (h.lockWorker w).mpr hfree)

theorem main_not_holds (h : Counting sizes s) (hlock : s.lock ≠ some .main) :
    s.main.holds = false :=
  Bool.eq_false_iff.mpr (mt h.lockMain.mpr hlock)

end Counting

namespace BootInv

variable {sizes : List ℕ} {s s' : Boot} {w : ℕ × ℕ}

/-- A step of a worker, with the lock or with the lock free, that counts it in when it stores. -/
theorem move (h : BootInv sizes s) (w : ℕ × ℕ) (pc : StartPc) (habsent : s.worker w ≠ .absent)
    (hrunning : s.worker w ≠ .running) (hpc : pc ≠ .absent)
    (hworker : s'.worker = Function.update s.worker w pc) (hgroup : s'.group = s.group)
    (hmain : s'.main = s.main ∧ s.worker w ≠ .stored ∨ s'.main = s.main.signal)
    (hready : s'.ready = s.ready) (hstored : s'.stored = s.stored)
    (hlock : s.lock = none ∨ s.lock = some (.worker w))
    (hlock' : s'.lock = if pc.holds then some (.worker w) else none)
    (hloaded : ∀ v, pc = .loaded v → v = s'.initCount)
    (hinit : s'.initCount = s.initCount ∨ pc = .stored)
    (hsum : s'.initCount + (s.worker w).counted = s.initCount + pc.counted) :
    BootInv sizes s' := by
  obtain ⟨hcensus, hcount⟩ := h
  have hsame : s'.main = s.main ∨ s.main = .asleep ∧ s'.main = .woken := by
    rcases hmain with ⟨heq, -⟩ | heq
    · exact .inl heq
    · rw [heq]
      exact s.main.signal_cases
  -- the main thread does not have the lock, and no other worker has it
  have hfree : s.main.holds = false := by
    apply hcount.main_not_holds
    rcases hlock with hl | hl <;> rw [hl] <;> nofun
  have hothers : ∀ w', w' ≠ w → (s.worker w').holds = false := by
    intro w' hne
    apply hcount.not_holds
    rcases hlock with hl | hl <;> rw [hl]
    · nofun
    · simpa using hne.symm
  have hself : s'.worker w = pc := by rw [hworker, Function.update_self]
  have hrest : ∀ w', w' ≠ w → s'.worker w' = s.worker w' := by
    intro w' hne
    rw [hworker, Function.update_of_ne hne]
  refine ⟨hcensus.move habsent hrunning hpc hworker hgroup hsame hready hstored, ?_⟩
  constructor
  · refine iff_of_false ?_ ?_
    · rw [hlock']
      split <;> nofun
    · rcases hsame with heq | ⟨-, heq⟩ <;> rw [heq]
      · rw [hfree]
        nofun
      · nofun
  · intro w'
    rcases eq_or_ne w' w with rfl | hne
    · rw [hself, hlock']
      cases pc.holds <;> simp
    · rw [hrest w' hne, hothers w' hne, hlock']
      refine iff_of_false ?_ nofun
      split
      · simpa using hne.symm
      · nofun
  · intro w' v hv
    rcases eq_or_ne w' w with rfl | hne
    · rw [hself] at hv
      exact hloaded v hv
    · rw [hrest w' hne] at hv
      have hno := hothers w' hne
      rw [hv] at hno
      cases hno
  · intro hcounting
    have hold : s.main.counting = true := by
      rcases hsame with heq | ⟨hasleep, -⟩
      · exact heq ▸ hcounting
      · rw [hasleep]
        rfl
    have hupdate := sum_update_add StartPc.counted s.worker (hcensus.current habsent hrunning) pc
    rw [← hworker, ← hgroup] at hupdate
    have hc : s.initCount = s.counted sizes := hcount.count hold
    unfold Boot.counted at hc ⊢
    rw [hgroup] at hupdate ⊢
    omega
  · intro hasleep
    rw [hgroup]
    rcases hmain with ⟨heq, hnot⟩ | heq
    · rcases hinit with hinit | rfl
      · rw [hinit]
        refine (hcount.asleep (heq ▸ hasleep)).imp_right fun ⟨w', hw'⟩ => ⟨w', ?_⟩
        rw [hrest w' fun he => hnot (he ▸ hw')]
        exact hw'
      · exact .inr ⟨w, hself⟩
    · rw [hasleep] at heq
      rcases s.main.signal_cases with hsig | ⟨-, hsig⟩
      · rw [hsig] at heq
        rw [← heq] at hsig
        cases hsig
      · rw [hsig] at heq
        cases heq
  · intro hunlock
    rcases hsame with heq | ⟨-, heq⟩ <;> rw [hunlock] at heq
    · rw [← heq] at hfree
      cases hfree
    · cases heq

/-- A step of the main thread that leaves the workers and the counter as they are. -/
theorem stay (h : BootInv sizes s) (hcensus : Census sizes s') (hworker : s'.worker = s.worker)
    (hgroup : s'.group = s.group) (hinit : s'.initCount = s.initCount)
    (hmain : s'.lock = some .main ↔ s'.main.holds = true)
    (hlock : ∀ w, s'.lock = some (.worker w) ↔ s.lock = some (.worker w))
    (hcounting : s'.main.counting = true → s.main.counting = true)
    (hasleep : s'.main = .asleep → s.initCount < nthreads sizes s.group)
    (hfull : s'.main = .unlock → nthreads sizes s.group ≤ s.initCount) : BootInv sizes s' := by
  obtain ⟨-, hcount⟩ := h
  refine ⟨hcensus, hmain, ?_, ?_, ?_, ?_, ?_⟩
  · intro w
    rw [hlock, hworker]
    exact hcount.lockWorker w
  · rw [hworker, hinit]
    exact hcount.loaded
  · intro hc
    rw [hinit, hcount.count (hcounting hc)]
    unfold Boot.counted
    rw [hgroup, hworker]
  · rw [hinit, hgroup]
    exact fun ha => .inl (hasleep ha)
  · rw [hinit, hgroup]
    exact hfull

/-- Before the first worker of its group has been created, no worker is counting itself in. -/
theorem quiet (h : BootInv sizes s) (hmade : s.main.made (nthreads sizes s.group) = 0)
    (w : ℕ × ℕ) : s.worker w = .absent ∨ s.worker w = .running ∧ w.1 < s.group := by
  by_cases habsent : s.worker w = .absent
  · exact .inl habsent
  · obtain ⟨hsize, hpast | ⟨-, hlt⟩⟩ := h.1.present w habsent
    · exact .inr ⟨h.1.past w hpast hsize, hpast⟩
    · rw [hmade] at hlt
      cases hlt

theorem reset (h : BootInv sizes s) (hpc : s.main = .reset) :
    BootInv sizes { s with initCount := 0, main := .setup 0 } := by
  have hquiet := h.quiet (by rw [hpc]; rfl)
  obtain ⟨hcensus, hcount⟩ := h
  refine ⟨hcensus.stay rfl rfl rfl rfl ?_ ?_ ?_ ?_ nofun, ?_, hcount.lockWorker, ?_, ?_, nofun, nofun⟩
  · rw [hpc]
    rfl
  · rw [hpc]
    rfl
  · rw [hpc]
    rfl
  · rw [hpc]
    nofun
  · have hmain := hcount.lockMain
    rw [hpc] at hmain
    exact hmain
  · intro w v hv
    have hv : s.worker w = .loaded v := hv
    rcases hquiet w with habsent | ⟨hrunning, -⟩
    · rw [habsent] at hv
      cases hv
    · rw [hrunning] at hv
      cases hv
  · intro _
    refine (Finset.sum_eq_zero fun w hw => ?_).symm
    have hgroup : w.1 = s.group := (mem_members.mp hw).1
    rcases hquiet w with habsent | ⟨-, hlt⟩
    · show (s.worker w).counted = 0
      rw [habsent]
      rfl
    · exact absurd hgroup (Nat.ne_of_lt hlt)

theorem create (h : BootInv sizes s) {i : ℕ} (hpc : s.main = .create i)
    (hi : i < nthreads sizes s.group) :
    BootInv sizes
      { s with worker := Function.update s.worker (s.group, i) .created
               main := .create (i + 1) } := by
  obtain ⟨hcensus, hcount⟩ := h
  have habsent := hcensus.absent hpc
  refine ⟨hcensus.create hpc hi, ?_, ?_, ?_, ?_, nofun, nofun⟩
  · have hmain := hcount.lockMain
    rw [hpc] at hmain
    exact hmain
  · intro w
    have hlock := hcount.lockWorker w
    show s.lock = some (.worker w) ↔ (Function.update s.worker (s.group, i) .created w).holds = true
    rcases eq_or_ne w (s.group, i) with rfl | hne
    · rw [Function.update_self]
      rw [habsent] at hlock
      exact hlock
    · rw [Function.update_of_ne hne]
      exact hlock
  · intro w v hv
    have hv : Function.update s.worker (s.group, i) .created w = .loaded v := hv
    rcases eq_or_ne w (s.group, i) with rfl | hne
    · rw [Function.update_self] at hv
      cases hv
    · rw [Function.update_of_ne hne] at hv
      exact hcount.loaded w v hv
  · intro _
    have hc : s.initCount = s.counted sizes := hcount.count (by rw [hpc]; rfl)
    have hmem : (s.group, i) ∈ members s.group (nthreads sizes s.group) :=
      mem_members.mpr ⟨rfl, hi⟩
    have hsum := sum_update_add StartPc.counted s.worker hmem .created
    rw [habsent] at hsum
    exact hc.trans hsum.symm

/-- When the main thread has seen the counter at `nthreads`, all workers of the group are in their
event loops: none can be left between its store and its unlock, since the main thread has the
lock. -/
theorem all_running (h : BootInv sizes s) (hpc : s.main = .unlock) {i : ℕ}
    (hi : i < nthreads sizes s.group) : s.worker (s.group, i) = .running := by
  obtain ⟨-, hcount⟩ := h
  have hlock : s.lock = some .main := hcount.lockMain.mpr (by rw [hpc]; rfl)
  have hone : ∀ w, (s.worker w).counted ≤ 1 := by
    intro w
    cases s.worker w <;> simp [StartPc.counted]
  have hmem : (s.group, i) ∈ members s.group (nthreads sizes s.group) :=
    mem_members.mpr ⟨rfl, hi⟩
  -- a worker that is not counted would leave the sum below `nthreads`
  have hcounted : (s.worker (s.group, i)).counted = 1 := by
    by_contra hne
    have hlt : (s.worker (s.group, i)).counted < 1 := lt_of_le_of_ne (hone _) hne
    have hsum : s.counted sizes < nthreads sizes s.group := by
      calc s.counted sizes
          < ∑ _w ∈ members s.group (nthreads sizes s.group), 1 :=
            Finset.sum_lt_sum (fun w _ => hone w) ⟨_, hmem, hlt⟩
        _ = nthreads sizes s.group := by rw [← Finset.card_eq_sum_ones, card_members]
    have hle := hcount.full hpc
    rw [hcount.count (by rw [hpc]; rfl)] at hle
    omega
  have hholds : (s.worker (s.group, i)).holds = false :=
    hcount.not_holds (by rw [hlock]; nofun)
  cases hw : s.worker (s.group, i) with
  | running => rfl
  | stored =>
    rw [hw] at hholds
    cases hholds
  | _ =>
    rw [hw] at hcounted
    cases hcounted

theorem unlock (h : BootInv sizes s) (hpc : s.main = .unlock) :
    BootInv sizes
      { s with lock := none, group := s.group + 1, main := .next sizes (s.group + 1) } := by
  have hcensus := h.1.unlock hpc fun i hi => h.all_running hpc hi
  have hlock : s.lock = some .main := h.2.lockMain.mpr (by rw [hpc]; rfl)
  obtain ⟨hholds, hcounting, -⟩ := InitPc.next_idle sizes (s.group + 1) 0
  refine ⟨hcensus, iff_of_false nofun ?_, ?_, h.2.loaded, ?_, ?_, ?_⟩
  · rw [hholds]
    nofun
  · intro w
    have hworker : (s.worker w).holds = false := h.2.not_holds (by rw [hlock]; nofun)
    refine iff_of_false nofun ?_
    show ¬ (s.worker w).holds = true
    rw [hworker]
    nofun
  · rw [hcounting]
    nofun
  · exact fun he => absurd he (InitPc.next_ne rfl _ _)
  · exact fun he => absurd he (InitPc.next_ne rfl _ _)

theorem start (sizes : List ℕ) : BootInv sizes (bootInitial sizes) := by
  obtain ⟨hholds, hcounting, -⟩ := InitPc.next_idle sizes 0 0
  have hnext := fun n => (InitPc.next_idle sizes 0 n).2.2
  refine ⟨⟨nofun, fun w hw => absurd rfl hw, ?_, ?_, ?_, Nat.zero_le _, ?_, ?_, ?_⟩,
    iff_of_false nofun ?_, fun w => iff_of_false nofun nofun, nofun, ?_, ?_, ?_⟩
  · intro i hi
    rw [show (bootInitial sizes).main = .next sizes 0 from rfl, (hnext _).1] at hi
    cases hi
  · rw [show (bootInitial sizes).main = .next sizes 0 from rfl, (hnext _).1]
    exact Nat.zero_le _
  · rw [show (bootInitial sizes).main = .next sizes 0 from rfl, (hnext _).2.1]
    exact Nat.zero_le _
  · exact InitPc.next_ne_returned sizes _
  · rintro w - (hlt | ⟨-, hlt⟩)
    · cases hlt
    · rw [show (bootInitial sizes).main = .next sizes 0 from rfl, (hnext _).2.1] at hlt
      cases hlt
  · rintro g (hlt | ⟨-, hst⟩)
    · cases hlt
    · rw [show (bootInitial sizes).main = .next sizes 0 from rfl, (hnext 0).2.2] at hst
      cases hst
  · rw [show (bootInitial sizes).main = .next sizes 0 from rfl, hholds]
    nofun
  · rw [show (bootInitial sizes).main = .next sizes 0 from rfl, hcounting]
    nofun
  · exact fun he => absurd he (InitPc.next_ne rfl _ _)
  · exact fun he => absurd he (InitPc.next_ne rfl _ _)

theorem step {l : BootLabel} (h : BootInv sizes s) (hstep : BootStep sizes s l s') :
    s'.main = .exited ∨ BootInv sizes s' := by
  have hmain : ∀ {pc : InitPc}, s.main = pc → pc.holds = false → s.lock ≠ some .main := by
    intro pc hpc hholds hlock
    have htrue := h.2.lockMain.mp hlock
    rw [hpc, hholds] at htrue
    cases htrue
  cases hstep with
  | exit i hpc => exact .inl rfl
  | reset hpc => exact .inr (h.reset hpc)
  | create i hpc hi => exact .inr (h.create hpc hi)
  | unlock hpc => exact .inr (h.unlock hpc)
  | setup i hpc hi =>
    refine .inr (h.stay (h.1.setup hpc hi) rfl rfl rfl ?_ (fun _ => .rfl) ?_ nofun nofun)
    · exact iff_of_false (hmain hpc rfl) nofun
    · rw [hpc]
      exact id
  | store hpc =>
    refine .inr (h.stay (h.1.store hpc) rfl rfl rfl ?_ (fun _ => .rfl) ?_ nofun nofun)
    · exact iff_of_false (hmain hpc rfl) nofun
    · rw [hpc]
      exact id
  | created hpc =>
    have hcensus : Census sizes { s with main := .lock } := by
      refine h.1.stay rfl rfl rfl rfl ?_ ?_ ?_ ?_ nofun <;> rw [hpc] <;> first | rfl | nofun
    refine .inr (h.stay hcensus rfl rfl rfl ?_ (fun _ => .rfl) ?_ nofun nofun)
    · exact iff_of_false (hmain hpc rfl) nofun
    · rw [hpc]
      exact id
  | lock hpc hfree =>
    have hcensus : Census sizes { s with lock := some .main, main := .test } := by
      rcases hpc with hpc | hpc <;> refine h.1.stay rfl rfl rfl rfl ?_ ?_ ?_ ?_ nofun <;> rw [hpc] <;>
        first | rfl | nofun
    refine .inr (h.stay hcensus rfl rfl rfl (iff_of_true rfl rfl) ?_ ?_ nofun nofun)
    · intro w
      rw [hfree]
      exact iff_of_false nofun nofun
    · rcases hpc with hpc | hpc <;> rw [hpc] <;> exact id
  | wait hpc hcount =>
    have hlock : s.lock = some .main := h.2.lockMain.mpr (by rw [hpc]; rfl)
    have hcensus : Census sizes { s with lock := none, main := .asleep } := by
      refine h.1.stay rfl rfl rfl rfl ?_ ?_ ?_ ?_ nofun <;> rw [hpc] <;> first | rfl | nofun
    refine .inr (h.stay hcensus rfl rfl rfl (iff_of_false nofun nofun) ?_ ?_ (fun _ => hcount)
      nofun)
    · intro w
      rw [hlock]
      exact iff_of_false nofun nofun
    · rw [hpc]
      exact id
  | pass hpc hcount =>
    have hlock : s.lock = some .main := h.2.lockMain.mpr (by rw [hpc]; rfl)
    have hcensus : Census sizes { s with main := .unlock } := by
      refine h.1.stay rfl rfl rfl rfl ?_ ?_ ?_ ?_ nofun <;> rw [hpc] <;> first | rfl | nofun
    refine .inr (h.stay hcensus rfl rfl rfl (iff_of_true hlock rfl) (fun _ => .rfl) ?_ nofun
      (fun _ => hcount))
    rw [hpc]
    exact id
  | spurious hpc =>
    have hcensus : Census sizes { s with main := .woken } := by
      refine h.1.stay rfl rfl rfl rfl ?_ ?_ ?_ ?_ nofun <;> rw [hpc] <;> first | rfl | nofun
    refine .inr (h.stay hcensus rfl rfl rfl ?_ (fun _ => .rfl) ?_ nofun nofun)
    · exact iff_of_false (hmain hpc rfl) nofun
    · rw [hpc]
      exact id
  | workerLock w halive hpc hfree =>
    refine .inr (h.move w .locked (by rw [hpc]; nofun) (by rw [hpc]; nofun) nofun rfl rfl
      (.inl ⟨rfl, by rw [hpc]; nofun⟩) rfl rfl (.inl hfree) rfl nofun (.inl rfl) ?_)
    rw [hpc]
    rfl
  | workerLoad w halive hpc =>
    have hlock : s.lock = some (.worker w) := (h.2.lockWorker w).mpr (by rw [hpc]; rfl)
    refine .inr (h.move w (.loaded s.initCount) (by rw [hpc]; nofun) (by rw [hpc]; nofun) nofun rfl rfl
      (.inl ⟨rfl, by rw [hpc]; nofun⟩) rfl rfl (.inr hlock) hlock ?_ (.inl rfl) ?_)
    · intro v hv
      injection hv with hv
      exact hv.symm
    · rw [hpc]
      rfl
  | workerStore w v halive hpc =>
    have hlock : s.lock = some (.worker w) := (h.2.lockWorker w).mpr (by rw [hpc]; rfl)
    refine .inr (h.move w .stored (by rw [hpc]; nofun) (by rw [hpc]; nofun) nofun rfl rfl
      (.inl ⟨rfl, by rw [hpc]; nofun⟩) rfl rfl (.inr hlock) hlock nofun (.inr rfl) ?_)
    rw [hpc, h.2.loaded w v hpc]
    rfl
  | workerSignal w halive hpc =>
    have hlock : s.lock = some (.worker w) := (h.2.lockWorker w).mpr (by rw [hpc]; rfl)
    refine .inr (h.move w .running (by rw [hpc]; nofun) (by rw [hpc]; nofun) nofun rfl rfl
      (.inr rfl) rfl rfl (.inr hlock) rfl nofun (.inl rfl) ?_)
    rw [hpc]
    rfl

end BootInv

/-- Nothing runs any more when the process has ended. -/
theorem BootStep.alive {sizes : List ℕ} {s s' : Boot} {l : BootLabel}
    (h : BootStep sizes s l s') : s.main ≠ .exited := by
  intro hexited
  cases h with
  | workerLock w halive | workerLoad w halive | workerStore w v halive | workerSignal w halive =>
    exact halive hexited
  | exit i hpc | lock hpc =>
    rw [hexited] at hpc
    rcases hpc with hpc | hpc <;> cases hpc
  | reset hpc | setup i hpc | store hpc | create i hpc | created hpc | wait hpc | pass hpc
  | unlock hpc | spurious hpc =>
    rw [hexited] at hpc
    cases hpc

/-- Only a failure ends the process. -/
theorem BootStep.alive_after {sizes : List ℕ} {s s' : Boot} {l : BootLabel}
    (h : BootStep sizes s l s') (hl : l ≠ .failure) : s'.main ≠ .exited := by
  have halive := h.alive
  cases h with
  | exit i hpc => exact absurd rfl hl
  | workerLock | workerLoad | workerStore => exact halive
  | workerSignal w =>
    show s.main.signal ≠ .exited
    rcases s.main.signal_cases with heq | ⟨-, heq⟩ <;> rw [heq]
    · exact halive
    · nofun
  | unlock hpc =>
    show InitPc.next sizes (s.group + 1) ≠ .exited
    unfold InitPc.next
    split <;> nofun
  | reset | setup | store | create | created | lock | wait | pass | spurious => nofun

/-- Every reachable state in which the process still runs satisfies the invariant. -/
theorem boot_inv {sizes : List ℕ} {s : Boot} (h : (boot sizes).Reachable s) :
    s.main = .exited ∨ BootInv sizes s := by
  refine h.invariant (I := fun s => s.main = .exited ∨ BootInv sizes s) ?_ ?_
  · rintro _ rfl
    exact .inr (BootInv.start sizes)
  · intro s l s' _ hinv hstep
    exact (hinv.resolve_left (BootStep.alive hstep)).step hstep

/-! ## What a started worker can rely on -/

/-- In every reachable state of the process, whatever the order of the steps: the workers of the
calls that have returned are all in their event loops; when a call resets `init_count` no worker is
counting itself in, so that the unprotected store is not lost and loses nothing; a worker that
exists has its queue and pipe, and its array is stored; and inside a call `init_count` is the number
of workers of this call that have counted themselves in. -/
theorem workers_start_in_turn (sizes : List ℕ) (s : Boot) (h : (boot sizes).Reachable s)
    (halive : s.main ≠ .exited) :
    (∀ w, w.1 < s.group → w.2 < nthreads sizes w.1 → s.worker w = .running) ∧
      (s.main = .reset → ∀ w, s.worker w = .absent ∨ s.worker w = .running) ∧
      (∀ w, s.worker w ≠ .absent → s.ready w = true ∧ s.stored w.1 = true) ∧
      (s.main.counting = true → s.initCount = s.counted sizes) ∧
      (s.main = .returned → s.group = sizes.length) := by
  have hinv := (boot_inv h).resolve_left halive
  obtain ⟨hcensus, hcount⟩ := hinv
  refine ⟨hcensus.past, ?_, ?_, hcount.count, ?_⟩
  · intro hpc w
    exact (BootInv.quiet ⟨hcensus, hcount⟩ (by rw [hpc]; rfl) w).imp_right And.left
  · intro w hw
    obtain ⟨hsize, hwhere⟩ := hcensus.present w hw
    have hprepared : w.1 < s.group ∨ w.1 = s.group ∧
        w.2 < s.main.prepared (nthreads sizes s.group) ∧ s.main.stored = true := by
      refine hwhere.imp_right fun ⟨hgroup, hmade⟩ => ⟨hgroup, ?_⟩
      obtain ⟨hall, hst⟩ := InitPc.prepared_of_made hmade
      rw [hall, ← hgroup]
      exact ⟨hsize, hst⟩
    exact ⟨hcensus.ready w hsize (hprepared.imp_right fun hp => ⟨hp.1, hp.2.1⟩),
      hcensus.stored w.1 (hprepared.imp_right fun hp => ⟨hp.1, hp.2.2⟩)⟩
  · intro hpc
    have hge : ¬ s.group < sizes.length := fun hlt => hcensus.group_lt.mpr hlt hpc
    exact Nat.le_antisymm hcensus.group_le (Nat.le_of_not_lt hge)

/-- A worker between its load and its store, before `create_worker` has returned for the last one of
its group. -/
theorem workers_start_in_turn_loaded :
    ∃ s, (boot [2, 1]).Reachable s ∧ s.worker (0, 0) = .loaded 0 ∧ s.main = .create 1 ∧
      s.ready (0, 0) = true ∧ s.stored 0 = true ∧ s.initCount = s.counted [2, 1] := by
  have hreset := (System.Reachable.start (M := boot [2, 1]) rfl).next (.reset rfl)
  have hsetup := (hreset.next (.setup 0 rfl (by decide))).next (.setup 1 rfl (by decide))
  have hcreate := (hsetup.next (.store rfl)).next (.create 0 rfl (by decide))
  have hlocked := hcreate.next (.workerLock (0, 0) nofun rfl rfl)
  have hs := hlocked.next (.workerLoad (0, 0) nofun rfl)
  obtain ⟨-, -, hready, hcount, -⟩ := workers_start_in_turn [2, 1] _ hs nofun
  obtain ⟨hr, hst⟩ := hready (0, 0) nofun
  exact ⟨_, hs, rfl, rfl, hr, hst, hcount rfl⟩

/-! ## The calls return -/

/-- The steps a worker has left until it is in its event loop. -/
def StartPc.turns : StartPc → ℕ
  | .absent => 5
  | .created => 4
  | .locked => 3
  | .loaded _ => 2
  | .stored => 1
  | .running => 0

/-- The steps the main thread has left in a call for `n` workers, if it is not woken again. -/
def InitPc.turns (n : ℕ) : InitPc → ℕ
  | .reset => 2 * n + 8
  | .setup i => (n - i) + n + 7
  | .create i => (n - i) + 6
  | .lock | .woken => 5
  | .test => 4
  | .asleep | .unlock => 3
  | .returned | .exited => 0

/-- The workers of all groups. -/
def everyone (sizes : List ℕ) : Finset (ℕ × ℕ) :=
  (Finset.range sizes.length).biUnion fun g => members g (nthreads sizes g)

theorem mem_everyone {sizes : List ℕ} {w : ℕ × ℕ} :
    w ∈ everyone sizes ↔ w.1 < sizes.length ∧ w.2 < nthreads sizes w.1 := by
  rw [everyone, Finset.mem_biUnion]
  constructor
  · rintro ⟨g, hg, hw⟩
    obtain ⟨rfl, hlt⟩ := mem_members.mp hw
    exact ⟨Finset.mem_range.mp hg, hlt⟩
  · rintro ⟨hg, hlt⟩
    exact ⟨w.1, Finset.mem_range.mpr hg, mem_members.mpr ⟨rfl, hlt⟩⟩

/-- What is left to do: steps of the workers, calls, and steps inside this call. A worker that wakes
the main thread gives it new steps, so its own come first. -/
def bootRank (sizes : List ℕ) (s : Boot) : ℕ × ℕ × ℕ :=
  (∑ w ∈ everyone sizes, (s.worker w).turns, sizes.length - s.group,
    s.main.turns (nthreads sizes s.group))

/-- The machine while nothing fails and the main thread is not woken without a signal. -/
def starting (sizes : List ℕ) : System Boot BootLabel :=
  (boot sizes).restrict fun _ l => l ≠ .failure ∧ l ≠ .spurious

namespace BootInv

variable {sizes : List ℕ} {s s' : Boot} {w : ℕ × ℕ}

theorem mem_everyone (h : BootInv sizes s) (hw : w ∈ members s.group (nthreads sizes s.group))
    (hreturned : s.main ≠ .returned) : w ∈ everyone sizes := by
  obtain ⟨hgroup, hlt⟩ := mem_members.mp hw
  rw [← hgroup] at hlt
  refine Thread.mem_everyone.mpr ⟨?_, hlt⟩
  rw [hgroup]
  exact h.1.group_lt.mp hreturned

/-- A step that moves a worker on lowers the rank. -/
theorem lower_of_worker (hw : w ∈ everyone sizes) {pc : StartPc}
    (hlt : pc.turns < (s.worker w).turns)
    (hworker : s'.worker = Function.update s.worker w pc) :
    Lower (bootRank sizes s') (bootRank sizes s) := by
  refine Prod.Lex.left _ _ ?_
  have hsum := sum_update_add StartPc.turns s.worker hw pc
  rw [hworker]
  omega

/-- A step of the main thread inside its call lowers the rank. -/
theorem lower_of_main (hworker : s'.worker = s.worker) (hgroup : s'.group = s.group)
    (hlt : s'.main.turns (nthreads sizes s.group) < s.main.turns (nthreads sizes s.group)) :
    Lower (bootRank sizes s') (bootRank sizes s) := by
  unfold bootRank
  rw [hworker, hgroup]
  exact Prod.Lex.right _ (Prod.Lex.right _ hlt)

/-- A worker that is counting itself in is in the table of all workers. -/
theorem counting_mem (h : BootInv sizes s) (habsent : s.worker w ≠ .absent)
    (hrunning : s.worker w ≠ .running) : w ∈ everyone sizes := by
  refine h.mem_everyone (h.1.current habsent hrunning) ?_
  intro hreturned
  rcases h.quiet (by rw [hreturned]; rfl) w with hw | ⟨hw, -⟩
  · exact habsent hw
  · exact hrunning hw

theorem lower {l : BootLabel} (h : BootInv sizes s) (hstep : BootStep sizes s l s')
    (hfailure : l ≠ .failure) (hspurious : l ≠ .spurious) :
    Lower (bootRank sizes s') (bootRank sizes s) := by
  cases hstep with
  | exit i hpc => exact absurd rfl hfailure
  | spurious hpc => exact absurd rfl hspurious
  | reset hpc =>
    refine lower_of_main rfl rfl ?_
    rw [hpc]
    show nthreads sizes s.group - 0 + nthreads sizes s.group + 7 < 2 * nthreads sizes s.group + 8
    omega
  | setup i hpc hi =>
    refine lower_of_main rfl rfl ?_
    rw [hpc]
    show nthreads sizes s.group - (i + 1) + nthreads sizes s.group + 7 <
      nthreads sizes s.group - i + nthreads sizes s.group + 7
    omega
  | store hpc =>
    refine lower_of_main rfl rfl ?_
    rw [hpc]
    show nthreads sizes s.group - 0 + 6 <
      nthreads sizes s.group - nthreads sizes s.group + nthreads sizes s.group + 7
    omega
  | create i hpc hi =>
    have hmem : (s.group, i) ∈ members s.group (nthreads sizes s.group) :=
      mem_members.mpr ⟨rfl, hi⟩
    refine lower_of_worker (h.mem_everyone hmem (by rw [hpc]; nofun)) ?_ rfl
    rw [h.1.absent hpc]
    exact Nat.lt_succ_self _
  | created hpc =>
    refine lower_of_main rfl rfl ?_
    rw [hpc]
    show 5 < nthreads sizes s.group - nthreads sizes s.group + 6
    omega
  | lock hpc hfree =>
    refine lower_of_main rfl rfl ?_
    rcases hpc with hpc | hpc <;> rw [hpc] <;> exact Nat.lt_succ_self _
  | wait hpc hcount =>
    refine lower_of_main rfl rfl ?_
    rw [hpc]
    exact Nat.lt_succ_self _
  | pass hpc hcount =>
    refine lower_of_main rfl rfl ?_
    rw [hpc]
    exact Nat.lt_succ_self _
  | unlock hpc =>
    have hlt := h.1.group_lt.mp (by rw [hpc]; nofun)
    refine Prod.Lex.right _ (Prod.Lex.left _ _ ?_)
    show sizes.length - (s.group + 1) < sizes.length - s.group
    omega
  | workerLock w halive hpc hfree | workerLoad w halive hpc | workerStore w v halive hpc
  | workerSignal w halive hpc =>
    refine lower_of_worker (h.counting_mem (by rw [hpc]; nofun) (by rw [hpc]; nofun)) ?_ rfl
    rw [hpc]
    exact Nat.lt_succ_self _

/-- The worker with the lock can always go on. -/
theorem holder_moves (halive : s.main ≠ .exited) (hw : (s.worker w).holds = true) :
    ∃ t, BootStep sizes s (.worker w) t := by
  cases hpc : s.worker w with
  | locked => exact ⟨_, .workerLoad w halive hpc⟩
  | loaded v => exact ⟨_, .workerStore w v halive hpc⟩
  | stored => exact ⟨_, .workerSignal w halive hpc⟩
  | absent | created | running =>
    rw [hpc] at hw
    cases hw

/-- When no step is left, all calls have returned. -/
theorem returned_of_stuck (h : BootInv sizes s) (halive : s.main ≠ .exited)
    (hend : ∀ t, ¬ (starting sizes).Next s t) : s.main = .returned := by
  have hmain : ∀ t, ¬ BootStep sizes s .main t := fun t ht => hend t ⟨_, ht, nofun, nofun⟩
  have hworker : ∀ w t, ¬ BootStep sizes s (.worker w) t :=
    fun w t ht => hend t ⟨_, ht, nofun, nofun⟩
  have hnone : ∀ w, (s.worker w).holds = false := by
    intro w
    by_contra hw
    obtain ⟨t, ht⟩ := holder_moves halive (Bool.not_eq_false _ ▸ hw)
    exact hworker w t ht
  -- nobody has the lock when the main thread has not
  have hfree : s.main.holds = false → s.lock = none := by
    intro hno
    cases hlock : s.lock with
    | none => rfl
    | some holder =>
      cases holder with
      | main =>
        rw [h.2.lockMain.mp hlock] at hno
        cases hno
      | worker w =>
        have hw := (h.2.lockWorker w).mp hlock
        rw [hnone w] at hw
        cases hw
  have hgroup := h.1.made_le
  have hready := h.1.prepared_le
  cases hpc : s.main with
  | returned => rfl
  | exited => exact absurd hpc halive
  | reset => exact absurd (.reset hpc) (hmain _)
  | setup i =>
    rw [hpc] at hready
    rcases Nat.lt_or_eq_of_le hready with hi | rfl
    · exact absurd (.setup i hpc hi) (hmain _)
    · exact absurd (.store hpc) (hmain _)
  | create i =>
    rw [hpc] at hgroup
    rcases Nat.lt_or_eq_of_le hgroup with hi | rfl
    · exact absurd (.create i hpc hi) (hmain _)
    · exact absurd (.created hpc) (hmain _)
  | lock => exact absurd (.lock (.inl hpc) (hfree (by rw [hpc]; rfl))) (hmain _)
  | woken => exact absurd (.lock (.inr hpc) (hfree (by rw [hpc]; rfl))) (hmain _)
  | test =>
    rcases Nat.lt_or_ge s.initCount (nthreads sizes s.group) with hlt | hge
    · exact absurd (.wait hpc hlt) (hmain _)
    · exact absurd (.pass hpc hge) (hmain _)
  | unlock => exact absurd (.unlock hpc) (hmain _)
  | asleep =>
    -- all workers of the group exist and none can go on, so they have all counted themselves in
    have hrunning : ∀ w ∈ members s.group (nthreads sizes s.group), (s.worker w).counted = 1 := by
      intro w hw
      obtain ⟨hg, hi⟩ := mem_members.mp hw
      have hpresent := h.1.created w.2 (by rw [hpc]; exact hi)
      rw [← hg] at hpresent
      have hno := hnone w
      cases hstart : s.worker w with
      | absent => exact absurd hstart hpresent
      | created =>
        exact absurd (.workerLock w halive hstart (hfree (by rw [hpc]; rfl))) (hworker w _)
      | stored | running => rfl
      | locked | loaded v =>
        rw [hstart] at hno
        cases hno
    have hcount : s.initCount = nthreads sizes s.group := by
      rw [h.2.count (by rw [hpc]; rfl), Boot.counted, Finset.sum_congr rfl hrunning,
        ← Finset.card_eq_sum_ones, card_members]
    rcases h.2.asleep hpc with hlt | ⟨w, hw⟩
    · omega
    · have hno := hnone w
      rw [hw] at hno
      cases hno

end BootInv

theorem boot_settles {sizes : List ℕ} {s : Boot} (h : (boot sizes).Reachable s)
    (halive : s.main ≠ .exited) :
    Settles (starting sizes).Next (fun t => (boot sizes).Reachable t ∧ t.main = .returned) s := by
  have hkeep : ∀ t t', ((boot sizes).Reachable t ∧ t.main ≠ .exited) →
      (starting sizes).Next t t' → (boot sizes).Reachable t' ∧ t'.main ≠ .exited := by
    rintro t t' ⟨ht, ha⟩ ⟨l, hstep, hfailure, -⟩
    exact ⟨ht.next hstep, BootStep.alive_after hstep hfailure⟩
  refine Settles.of_rank wellFounded_lower (bootRank sizes) hkeep ?_ ?_ ⟨h, halive⟩
  · rintro t t' ⟨ht, ha⟩ ⟨l, hstep, hfailure, hspurious⟩
    exact ((boot_inv ht).resolve_left ha).lower hstep hfailure hspurious
  · rintro t ⟨ht, ha⟩ hend
    exact ⟨ht, ((boot_inv ht).resolve_left ha).returned_of_stuck ha hend⟩

/-- From every state of the start in which the process has not exited: as long as nothing fails and
the main thread is not woken without a signal, the steps cannot go on for ever in any order, and
when none is left every call has returned and every worker is in its event loop. -/
theorem workers_all_start (sizes : List ℕ) (s : Boot) (h : (boot sizes).Reachable s)
    (halive : s.main ≠ .exited) :
    (∀ run : ℕ → Boot, run 0 = s → ¬ ∀ k, (starting sizes).Next (run k) (run (k + 1))) ∧
    ∀ t, Relation.ReflTransGen (starting sizes).Next s t → (∀ u, ¬ (starting sizes).Next t u) →
      t.main = .returned ∧
        ∀ g i, g < sizes.length → i < nthreads sizes g → t.worker (g, i) = .running := by
  have hsettles := boot_settles h halive
  refine ⟨fun run h₀ => hsettles.no_infinite_run h₀, fun t hrun hend => ?_⟩
  obtain ⟨ht, hpc⟩ := hsettles.of_stuck hrun hend
  obtain ⟨hcensus, -⟩ := (boot_inv ht).resolve_left (by rw [hpc]; nofun)
  refine ⟨hpc, fun g i hg hi => hcensus.past (g, i) ?_ hi⟩
  have hge : ¬ t.group < sizes.length := fun hlt => hcensus.group_lt.mpr hlt hpc
  exact Nat.lt_of_lt_of_le hg (Nat.le_of_not_lt hge)

/-- `thread_init_pool` returns with all workers of both groups in their event loops. -/
theorem workers_all_start_pool :
    ∃ t, threadInitPool.Reachable t ∧ t.main = .returned ∧
      (∀ i < rtPoolNum, t.worker (0, i) = .running) ∧ ∀ i < poolNum, t.worker (1, i) = .running := by
  have hstart := System.Reachable.start (M := boot [rtPoolNum, poolNum]) rfl
  have halive : (bootInitial [rtPoolNum, poolNum]).main ≠ .exited := by decide
  obtain ⟨t, hrun, hend, hreach, -⟩ := (boot_settles hstart halive).exists_end
  obtain ⟨hpc, hall⟩ := (workers_all_start _ _ hstart halive).2 t hrun hend
  exact ⟨t, hreach, hpc, fun i hi => hall 0 i (by decide) hi, fun i hi => hall 1 i (by decide) hi⟩

end Tdm.Thread
