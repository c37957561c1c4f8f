import Tdm.Thread.Dispatch

/-!
# The worker threads seen from outside

What a caller can see of `thread.c`: which calls are going on, and what has been pushed to a worker
and not been worked on yet (`waiting`), in the order of the pushes. Free lists, links, pipes and
program points are gone. `Step.traffic` says what a step does to that: it begins a call, gives one
up for want of memory, hands a message over to a worker, lets a worker work on its first message, or
is not seen at all.
-/

namespace Tdm.Thread

open Tdm.Lib

variable {main : Set ℕ} {s t : State}

/-- The calls that are going on and have not pushed yet. -/
def State.calls (s : State) (i : ℕ) : Option Call := (s.dispatcher i).call

/-- What `w` still has to work on. -/
def State.waiting (s : State) (w : Worker) : List Msg :=
  (s.pushed w).drop (s.processed w).length

/-- What a step does to the calls and to what waits. -/
inductive Traffic (s t : State) : Label → Prop
  | call (i : ℕ) (c : Call) (hpc : s.dispatcher i = .idle)
      (hcalls : t.calls = Function.update s.calls i (some c)) (hwaiting : t.waiting = s.waiting) :
      Traffic s t (.dispatcher i)
  | giveUp (i : ℕ) (c : Call) (hgrow : s.dispatcher i = .grow c) (hpc : t.dispatcher i = .idle)
      (hcalls : t.calls = Function.update s.calls i none) (hwaiting : t.waiting = s.waiting) :
      Traffic s t (.dispatcher i)
  | push (i : ℕ) (c : Call) (w : Worker) (hcall : s.calls i = some c) (hkind : w.kind = c.kind)
      (hpc : t.dispatcher i = .pushed w) (hcalls : t.calls = Function.update s.calls i none)
      (hwaiting : t.waiting = Function.update s.waiting w (s.waiting w ++ [c.msg])) :
      Traffic s t (.dispatcher i)
  | process (w : Worker) (m : Msg) (rest : List Msg) (hpc : s.handler w ≠ .idle)
      (hfirst : s.waiting w = m :: rest)
      (hcalls : t.calls = s.calls) (hwaiting : t.waiting = Function.update s.waiting w rest)
      (hprocessed : t.processed w = s.processed w ++ [m]) : Traffic s t (.handler w)
  | unseen (l : Label) (hcalls : t.calls = s.calls) (hwaiting : t.waiting = s.waiting)
      (hprocessed : ∀ w, l = .handler w → t.processed w = s.processed w) : Traffic s t l

/-! ## The calls -/

theorem calls_update {i : ℕ} {pc : DispatcherPc} {c : Option Call}
    (h : t.dispatcher = Function.update s.dispatcher i pc) (hpc : pc.call = c) :
    t.calls = Function.update s.calls i c := by
  funext j
  unfold State.calls
  rw [h]
  by_cases hj : j = i
  · subst hj
    rw [Function.update_self, Function.update_self, hpc]
  · rw [Function.update_of_ne hj, Function.update_of_ne hj]

theorem calls_same {i : ℕ} {pc : DispatcherPc}
    (h : t.dispatcher = Function.update s.dispatcher i pc) (hpc : pc.call = (s.dispatcher i).call) :
    t.calls = s.calls := by
  rw [calls_update h hpc]
  exact Function.update_eq_self i s.calls

/-! ## What waits -/

theorem waiting_push {place : Owner → List ℕ} (hinv : Inv s place) {w : Worker} {m : Msg}
    (hd : t.dispatched = Function.update s.dispatched w.kind
      (s.dispatched w.kind ++ [(w.idx, m)])) (hprocessed : t.processed = s.processed) :
    t.waiting = Function.update s.waiting w (s.waiting w ++ [m]) := by
  obtain ⟨hself, hothers⟩ := Inv.pushed_append hd
  funext w'
  unfold State.waiting
  by_cases hw' : w' = w
  · subst hw'
    rw [Function.update_self, hself, hprocessed,
      List.drop_append_of_le_length (hinv.inStep w').order.length_le]
  · rw [Function.update_of_ne hw', hothers w' hw', hprocessed]

/-- A prefix that grows by one element takes it from what is left. -/
theorem drop_of_prefix_append {α : Type*} {done all : List α} {a : α} (h : done ++ [a] <+: all) :
    all.drop done.length = a :: all.drop (done ++ [a]).length := by
  obtain ⟨rest, rfl⟩ := h
  rw [List.append_assoc, List.drop_left, List.length_append, ← List.drop_drop, List.drop_left]
  rfl

theorem waiting_process {place : Owner → List ℕ} (hinv : Inv t place) {w : Worker} {m : Msg}
    (hd : t.dispatched = s.dispatched)
    (hprocessed : t.processed = Function.update s.processed w (s.processed w ++ [m])) :
    s.waiting w = m :: t.waiting w ∧ t.waiting = Function.update s.waiting w (t.waiting w) := by
  have hpushed : t.pushed = s.pushed := by
    unfold State.pushed
    rw [hd]
  have horder := (hinv.inStep w).order
  rw [hpushed, hprocessed, Function.update_self] at horder
  unfold State.waiting
  rw [hpushed, hprocessed, Function.update_self]
  refine ⟨drop_of_prefix_append horder, ?_⟩
  funext w'
  by_cases hw' : w' = w
  · subst hw'
    rw [Function.update_self, Function.update_self]
  · rw [Function.update_of_ne hw', Function.update_of_ne hw']

/-! ## The steps -/

theorem Step.traffic {l : Label} {place : Owner → List ℕ} (hinv : Inv s place)
    (h : Step main s l t) : Traffic s t l := by
  obtain ⟨place', hinv'⟩ := hinv.step h
  cases h with
  | call i c hpc => exact .call i c hpc (calls_update rfl rfl) rfl
  | takeFree i c list item hpc =>
    refine .unseen _ (calls_same rfl ?_) rfl nofun
    rw [hpc]
    cases item <;> rfl
  | mallocFail i c hpc =>
    exact .giveUp i c hpc (Function.update_self ..) (calls_update rfl rfl) rfl
  | malloc i c item junk hpc => exact .unseen _ (calls_same rfl (by rw [hpc]; rfl)) rfl nofun
  | splice i c item heap list hpc => exact .unseen _ (calls_same rfl (by rw [hpc]; rfl)) rfl nofun
  | load i c item old hpc => exact .unseen _ (calls_same rfl (by rw [hpc]; rfl)) rfl nofun
  | store i c item tid old hpc => exact .unseen _ (calls_same rfl (by rw [hpc]; rfl)) rfl nofun
  | push i c item tid heap cq hpc htid hrun =>
    exact .push i c ⟨c.kind, tid.toNat⟩ (by rw [State.calls, hpc]; rfl) rfl
      (Function.update_self ..) (calls_update rfl rfl) (waiting_push hinv rfl rfl)
  | notify i w hpc => exact .unseen _ (calls_same rfl (by rw [hpc]; rfl)) rfl nofun
  | read w b rest => exact .unseen _ rfl rfl fun _ _ => rfl
  | ignore w b => exact .unseen _ rfl rfl fun _ _ => rfl
  | pop w b cq item => exact .unseen _ rfl rfl fun _ _ => rfl
  | process w b a item m hpc hitem hrun =>
    obtain ⟨m', -, hhandle⟩ := hinv.message_eq hpc hitem
    obtain rfl : m = some m' := Option.some.inj (hrun.symm.trans hhandle)
    obtain ⟨hfirst, hrest⟩ := waiting_process (s := s) (w := w) (m := m') hinv' rfl rfl
    exact .process w m' _ (by rw [hpc]; nofun) hfirst rfl hrest (Function.update_self ..)
  | free w a heap list => exact .unseen _ rfl rfl fun _ _ => rfl
  | undef l t hundef => exact absurd hundef hinv.not_undef

end Tdm.Thread
