import Tdm.Thread.WorkersRun

/-!
# Every item has one owner

The machine is run together with a record of the blocks it has allocated, each with the
group it was allocated for. `Tracked` is the invariant: the allocated items are just those of
the blocks on record, and an item is only ever in a place of its block's group. `Owned` is
what it comes to, in the terms of `thread.c`: its lists, its queues and the variables of its
threads.
-/

namespace Tdm.Thread

open Tdm.Lib

/-- The machine with a record of the blocks allocated so far. -/
def recorded (main : Set ℕ) : System (State × List (Kind × ℕ)) Label where
  init t := t = (initial, [])
  step t l t' := Step main t.1 l t'.1 ∧ t'.2 = t.2 ++ newBlocks t.1 t'.1 l

/-- The record only watches: every run of the machine is one with a record. -/
theorem recorded_simulates (main : Set ℕ) :
    System.Simulates (recorded main) (machine main) fun s t => t.1 = s where
  init s hs := ⟨(initial, []), rfl, hs.symm⟩
  step := by
    rintro s l s' t - rfl hstep
    exact ⟨(s', t.2 ++ newBlocks t.1 s' l), .inr ⟨l, hstep, rfl⟩, rfl⟩

theorem exists_record {main : Set ℕ} {s : State} (h : (machine main).Reachable s) :
    ∃ blocks, (recorded main).Reachable (s, blocks) := by
  obtain ⟨⟨_, blocks⟩, hreach, rfl⟩ := (recorded_simulates main).reachable h
  exact ⟨blocks, hreach⟩

/-! ## The invariant -/

structure Tracked (s : State) (blocks : List (Kind × ℕ)) (place : Owner → List ℕ) : Prop where
  inv : Inv s place
  live : ∀ a, s.heap a ≠ none ↔ ∃ b ∈ blocks, a ∈ block b.2
  kind : ∀ b ∈ blocks, ∀ a ∈ block b.2, ∀ o, a ∈ place o → s.ownerKind o = some b.1
  apart : blocks.Pairwise fun b b' => ∀ a ∈ block b.2, a ∉ block b'.2

theorem tracked_initial : Tracked initial [] (fun _ => []) where
  inv := inv_initial
  live := fun _ => iff_of_false (fun h => h rfl) nofun
  kind := nofun
  apart := List.Pairwise.nil

namespace Tracked

variable {s s' : State} {blocks : List (Kind × ℕ)} {place place' : Owner → List ℕ}

theorem step {l : Label} (h : Tracked s blocks place) (hinv : Inv s' place')
    (hcarried : Carried s s' l place place') :
    Tracked s' (blocks ++ newBlocks s s' l) place' where
  inv := hinv
  live := by
    intro a
    rw [hcarried.live a, h.live a]
    simp only [List.mem_append, or_and_right, exists_or]
  kind := by
    intro b hb a ha o ho
    have hlive : b ∈ blocks → s.heap a ≠ none := fun hb => (h.live a).mpr ⟨b, hb, ha⟩
    rcases hcarried.kind o a ho with ⟨y, hy, hkind⟩ | ⟨b', hb', ha', hkind⟩
    · -- the item was there before the step, so its block is not the new one
      rw [hkind]
      rcases List.mem_append.mp hb with hb | hb
      · exact h.kind b hb a ha y hy
      · exact absurd (hcarried.fresh b hb a ha) (h.inv.live_of_mem hy)
    · rw [hkind]
      rcases List.mem_append.mp hb with hb | hb
      · exact absurd (hcarried.fresh b' hb' a ha') (hlive hb)
      · rcases newBlocks_cases s s' l with hnew | ⟨b₀, hnew⟩
        · rw [hnew] at hb
          cases hb
        · rw [hnew, List.mem_singleton] at hb hb'
          rw [hb, hb']
  apart := by
    refine List.pairwise_append.mpr ⟨h.apart, ?_, ?_⟩
    · rcases newBlocks_cases s s' l with hnew | ⟨b, hnew⟩
      · rw [hnew]
        exact List.Pairwise.nil
      · rw [hnew]
        exact List.pairwise_singleton _ b
    · intro b hb b' hb' a ha ha'
      exact (h.live a).mpr ⟨b, hb, ha⟩ (hcarried.fresh b' hb' a ha')

end Tracked

theorem reachable_tracked {main : Set ℕ} {t : State × List (Kind × ℕ)}
    (h : (recorded main).Reachable t) : ∃ place, Tracked t.1 t.2 place := by
  refine h.invariant (I := fun t => ∃ place, Tracked t.1 t.2 place) (fun t ht => ?_)
    (fun t l t' _ hi hstep => ?_)
  · rw [show t = (initial, []) from ht]
    exact ⟨_, tracked_initial⟩
  · obtain ⟨place, hi⟩ := hi
    obtain ⟨place', hinv, hcarried⟩ := hi.inv.step_carried hstep.1
    rw [hstep.2]
    exact ⟨place', hi.step hinv hcarried⟩

/-! ## Ownership -/

/-- The items of `blocks` lie in the lists `place`, each in one of them. -/
structure Owned (s : State) (blocks : List (Kind × ℕ)) (place : Owner → List ℕ) : Prop where
  /-- `place` holds what the free lists, the queues and the threads hold. -/
  freeLists : ∀ k, Chain (nextOf s.heap) (s.freelist k) (place (.free k))
  queues : ∀ w, LinkedQueue (nextOf s.heap) (s.queue w).head (s.queue w).tail
    (place (.queue w))
  dispatchers : ∀ i, place (.dispatcher i) = (s.dispatcher i).items
  handlers : ∀ w, place (.handler w) = (s.handler w).items
  acyclic : ∀ o, (place o).Nodup
  /-- Blocks do not overlap, and nothing but their items is anywhere. -/
  apart : blocks.Pairwise fun b b' => ∀ a ∈ block b.2, a ∉ block b'.2
  allocated : ∀ o, ∀ a ∈ place o, ∃ b ∈ blocks, a ∈ block b.2
  owner : ∀ b ∈ blocks, ∀ a ∈ block b.2, ∃! o, a ∈ place o
  kind : ∀ b ∈ blocks, ∀ a ∈ block b.2, ∀ o, a ∈ place o → s.ownerKind o = some b.1

theorem Tracked.owned {s : State} {blocks : List (Kind × ℕ)} {place : Owner → List ℕ}
    (h : Tracked s blocks place) : Owned s blocks place where
  freeLists k := h.inv.custody.stack_chain (o := .free k) rfl
  queues w := h.inv.custody.linkedQueue (o := .queue w) rfl
  dispatchers := h.inv.dispatcher_items
  handlers := h.inv.handler_items
  acyclic := h.inv.custody.nodup
  apart := h.apart
  allocated o a ha := (h.live a).mp (h.inv.live_of_mem ha)
  owner := by
    intro b hb a ha
    obtain ⟨o, ho⟩ := (h.inv.custody.live a).mp ((h.live a).mpr ⟨b, hb, ha⟩)
    exact ⟨o, ho, fun o' ho' => h.inv.custody.disjoint o' o a ho' ho⟩
  kind := h.kind

/-- Nothing queued, nothing in hand: everything is on the free list it belongs to. -/
theorem Owned.all_free {s : State} {blocks : List (Kind × ℕ)} {place : Owner → List ℕ}
    (h : Owned s blocks place) (hqueue : ∀ w, (s.queue w).head = none)
    (hdispatcher : ∀ i, s.dispatcher i = .idle) (hhandler : ∀ w, s.handler w = .idle)
    {b : Kind × ℕ} (hb : b ∈ blocks) {a : ℕ} (ha : a ∈ block b.2) :
    a ∈ place (.free b.1) := by
  obtain ⟨o, ho, -⟩ := h.owner b hb a ha
  have hkind := h.kind b hb a ha o ho
  cases o with
  | free k =>
    obtain rfl : k = b.1 := Option.some.inj hkind
    exact ho
  | queue w =>
    rw [(h.queues w).head_eq_none_iff.mp (hqueue w)] at ho
    cases ho
  | dispatcher i =>
    rw [h.dispatchers i, hdispatcher i] at ho
    cases ho
  | handler w =>
    rw [h.handlers w, hhandler w] at ho
    cases ho

/-- What `cqi_new_base` returns comes from the free list, or from the block the dispatcher
has just allocated. -/
theorem Inv.got_from {main : Set ℕ} {s s' : State} {place : Owner → List ℕ}
    (h : Inv s place) {i item : ℕ} {c : Call} (hstep : Step main s (.dispatcher i) s')
    (hgot : s'.dispatcher i = .got c item) :
    item ∈ place (.free c.kind) ∨ item ∈ place (.dispatcher i) := by
  -- of all steps only two end at this program point
  have hpc : ∀ {pc : DispatcherPc}, Function.update s.dispatcher i pc i = .got c item →
      pc = .got c item := fun hpc => (Function.update_self ..).symm.trans hpc
  cases hstep with
  | takeFree _ c' list found hentry hrun =>
    obtain ⟨rfl, -⟩ := cqiNewPop_eq_some hrun
    have htaken := hpc hgot
    cases hfree : s.freelist c'.kind with
    | none =>
      rw [hfree] at htaken
      cases htaken
    | some a =>
      rw [hfree] at htaken
      obtain ⟨rfl, rfl⟩ := DispatcherPc.got.inj htaken
      have hchain := h.custody.stack_chain (o := .free c'.kind) rfl
      rw [hfree] at hchain
      exact .inl (List.mem_of_head? hchain.start_eq.symm)
  | splice _ c' item' heap list hsplice hrun =>
    obtain ⟨rfl, rfl⟩ := DispatcherPc.got.inj (hpc hgot)
    right
    rw [h.dispatcher_items i, hsplice]
    exact mem_block.mpr ⟨Nat.le_refl _, by unfold itemsPerAlloc; omega⟩
  | undef _ _ hundef => exact absurd hundef h.not_undef
  | _ => cases hpc hgot

/-- In every run every item of every block is in exactly one place, of its block's group;
the lists are in order; what `cqi_new_base` returns was neither queued nor in use; and when
nothing is queued and nobody runs, everything is free. -/
theorem items_have_one_owner (main : Set ℕ) (s : State) (blocks : List (Kind × ℕ))
    (h : (recorded main).Reachable (s, blocks)) :
    ∃ place, Owned s blocks place ∧
      (∀ i s' c item, Step main s (.dispatcher i) s' → s'.dispatcher i = .got c item →
        (∀ w, item ∉ place (.queue w)) ∧ (∀ w, item ∉ (s.handler w).items) ∧
          ∀ j ≠ i, item ∉ (s.dispatcher j).items) ∧
      ((∀ w, (s.queue w).head = none) → (∀ i, s.dispatcher i = .idle) →
        (∀ w, s.handler w = .idle) →
        ∀ b ∈ blocks, ∀ a ∈ block b.2, a ∈ place (.free b.1)) := by
  obtain ⟨place, htracked⟩ := reachable_tracked h
  have howned := htracked.owned
  refine ⟨place, howned, fun i s' c item hstep hgot => ?_,
    fun hqueue hdispatcher hhandler b hb a ha =>
      howned.all_free hqueue hdispatcher hhandler hb ha⟩
  have hfrom := htracked.inv.got_from hstep hgot
  have honly : ∀ o, item ∈ place o → o = .free c.kind ∨ o = .dispatcher i := by
    intro o ho
    have hdisjoint := htracked.inv.custody.disjoint
    rcases hfrom with hfree | hhand
    · exact .inl (hdisjoint o _ item ho hfree)
    · exact .inr (hdisjoint o _ item ho hhand)
  refine ⟨fun w hw => ?_, fun w hw => ?_, fun j hj hw => ?_⟩
  · rcases honly _ hw with he | he <;> cases he
  · rw [← howned.handlers w] at hw
    rcases honly _ hw with he | he <;> cases he
  · rw [← howned.dispatchers j] at hw
    rcases honly _ hw with he | he
    · cases he
    · exact hj (Owner.dispatcher.inj he)

/-- A dispatcher that has just allocated a block for connections holds its first item; the
other 127 are on the free list for connections. -/
theorem items_have_one_owner_block :
    ∃ s, (recorded {0}).Reachable (s, [(.conn, 1000)]) ∧ (s.dispatcher 0).items = [1000] ∧
      ∃ place, Owned s [(.conn, 1000)] place := by
  have hcalled : (recorded {0}).Reachable (_, []) := (System.Reachable.start rfl).next
    ⟨Step.call 0 (.dispatchConnNew 7 .connNewCmd 2) rfl (fun _ => rfl), rfl⟩
  have hgrow : (recorded {0}).Reachable (_, []) :=
    hcalled.next ⟨Step.takeFree 0 _ none none rfl rfl, rfl⟩
  have hblock : (recorded {0}).Reachable (_, [(.conn, 1000)]) :=
    hgrow.next ⟨Step.malloc 0 _ 1000 (fun _ => CqItem.zero) rfl (fun _ _ => rfl), rfl⟩
  have hlive : ∀ a ∈ block 1000, cqiNewBlock (fun _ => none) 1000 (fun _ => CqItem.zero) a ≠
      none := fun a ha => cqiNewBlock_ne_none ha
  generalize hheap : cqiNewBlock (fun _ => none) 1000 (fun _ => CqItem.zero) = heap at hlive
  rw [show initial.heap = fun _ => none from rfl, hheap] at hblock
  have hgot : (recorded {0}).Reachable (_, [(.conn, 1000)]) :=
    hblock.next ⟨Step.splice 0 _ 1000 _ _ rfl
      (cqiNewSplice_of_live (hlive 1127 (mem_block.mpr (by decide)))), rfl⟩
  obtain ⟨place, howned, -⟩ := items_have_one_owner {0} _ _ hgot
  exact ⟨_, hgot, rfl, place, howned⟩

end Tdm.Thread
