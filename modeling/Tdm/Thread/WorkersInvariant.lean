import Tdm.Thread.WorkersTheorems
import Tdm.Lib.Custody
import Mathlib.Data.Set.Card

/-!
# The invariant of the worker threads

Three facts hold together in every reachable state (`Inv`):

* every allocated item is in exactly one place: a free list, a queue, or the hands of one
  thread (`Custody`);
* what a dispatcher holds is as far prepared as its program point says (`Ready`);
* for each worker, the messages pushed are those processed, then the one in hand, then
  those queued; and the queue is as long as the bytes in the pipe, the dispatchers that
  still owe their byte and the byte just read say together (`Flow`).
-/

namespace Tdm.Thread

open Tdm.Lib

/-! ## Who holds which item -/

/-- The places an item can be in. -/
inductive Owner
  | free (k : Kind)
  | queue (w : Worker)
  | dispatcher (i : ℕ)
  | handler (w : Worker)
deriving DecidableEq

/-- The items a dispatcher has in hand. -/
def DispatcherPc.items : DispatcherPc → List ℕ
  | .splice _ item => block item
  | .got _ item | .loaded _ item _ | .filled _ item _ => [item]
  | _ => []

/-- The item a handler has in hand. -/
def HandlerPc.items : HandlerPc → List ℕ
  | .popped _ a | .done a => [a]
  | _ => []

/-- The item a handler has popped and not worked on yet. -/
def HandlerPc.inHand : HandlerPc → List ℕ
  | .popped _ a => [a]
  | _ => []

/-- One for a handler that has read a byte and not popped yet. -/
def HandlerPc.reading : HandlerPc → ℕ
  | .read _ => 1
  | _ => 0

def anchorOf (freelist : Kind → Option ℕ) (queue : Worker → Cq)
    (dispatcher : ℕ → DispatcherPc) (handler : Worker → HandlerPc) : Owner → Anchor ℕ
  | .free k => .stack (freelist k)
  | .queue w => .queue (queue w).head (queue w).tail
  | .dispatcher i => .hands (dispatcher i).items
  | .handler w => .hands (handler w).items

/-- Where the program keeps the items of each place. -/
def State.anchor (s : State) : Owner → Anchor ℕ :=
  anchorOf s.freelist s.queue s.dispatcher s.handler

section Anchor
variable (f : Kind → Option ℕ) (q : Worker → Cq) (d : ℕ → DispatcherPc)
  (h : Worker → HandlerPc)

theorem anchorOf_freelist (k : Kind) (list : Option ℕ) :
    anchorOf (Function.update f k list) q d h =
      Function.update (anchorOf f q d h) (.free k) (.stack list) := by
  funext o
  cases o with
  | free k' =>
    by_cases hk : k' = k
    · subst hk
      simp [anchorOf]
    · simp [anchorOf, hk]
  | _ => simp [anchorOf]

theorem anchorOf_queue (w : Worker) (cq : Cq) :
    anchorOf f (Function.update q w cq) d h =
      Function.update (anchorOf f q d h) (.queue w) (.queue cq.head cq.tail) := by
  funext o
  cases o with
  | queue w' =>
    by_cases hw : w' = w
    · subst hw
      simp [anchorOf]
    · simp [anchorOf, hw]
  | _ => simp [anchorOf]

theorem anchorOf_dispatcher (i : ℕ) (pc : DispatcherPc) :
    anchorOf f q (Function.update d i pc) h =
      Function.update (anchorOf f q d h) (.dispatcher i) (.hands pc.items) := by
  funext o
  cases o with
  | dispatcher j =>
    by_cases hj : j = i
    · subst hj
      simp [anchorOf]
    · simp [anchorOf, hj]
  | _ => simp [anchorOf]

theorem anchorOf_handler (w : Worker) (pc : HandlerPc) :
    anchorOf f q d (Function.update h w pc) =
      Function.update (anchorOf f q d h) (.handler w) (.hands pc.items) := by
  funext o
  cases o with
  | handler w' =>
    by_cases hw : w' = w
    · subst hw
      simp [anchorOf]
    · simp [anchorOf, hw]
  | _ => simp [anchorOf]

end Anchor

/-! ## How far an item is prepared -/

/-- What a dispatcher's program point says about the items in its hands. -/
def DispatcherPc.Ready (heap : Heap) : DispatcherPc → Prop
  | .splice _ item => ∀ a, item < a → a + 1 < item + itemsPerAlloc →
      nextOf heap a = some (a + 1)
  | .loaded c item tid => heap item = some CqItem.zero ∧ 0 ≤ tid ∧ tid < c.kind.num
  | .filled c item tid =>
      heap item = some (c.fill CqItem.zero) ∧ 0 ≤ tid ∧ tid < c.kind.num
  | _ => True

/-- A program point only speaks about items in hand. -/
theorem DispatcherPc.Ready.congr {heap heap' : Heap} {pc : DispatcherPc}
    (h : pc.Ready heap) (hag : ∀ a ∈ pc.items, heap' a = heap a) : pc.Ready heap' := by
  cases pc with
  | splice c item =>
    intro a ha hlast
    have hmem : a ∈ block item := mem_block.mpr ⟨Nat.le_of_lt ha, Nat.lt_of_succ_lt hlast⟩
    unfold nextOf
    rw [hag a hmem]
    exact h a ha hlast
  | loaded c item tid =>
    refine ⟨?_, h.2⟩
    rw [hag item (List.mem_singleton_self item)]
    exact h.1
  | filled c item tid =>
    refine ⟨?_, h.2⟩
    rw [hag item (List.mem_singleton_self item)]
    exact h.1
  | _ => trivial

/-! ## What flows through a worker -/

/-- The dispatchers that have pushed to `w` and not yet written their byte. -/
def State.pending (s : State) (w : Worker) : Set ℕ := {i | s.dispatcher i = .pushed w}

/-- The queue of `w`, which holds the items `q`, is in step with its pipe and with the
history. -/
structure Flow (s : State) (w : Worker) (q : List ℕ) : Prop where
  messages : (s.pushed w).map some =
    (s.processed w).map some ++ ((s.handler w).inHand ++ q).map (msgOf w.kind s.heap)
  bytes : ∀ b ∈ s.pipe w, b = w.kind.byte
  byteRead : ∀ b, s.handler w = .read b → b = w.kind.byte
  bytePopped : ∀ b a, s.handler w = .popped b a → b = w.kind.byte
  finite : (s.pending w).Finite
  count : q.length = (s.pipe w).length + (s.pending w).ncard + (s.handler w).reading

theorem Flow.frame {s s' : State} {w : Worker} {q : List ℕ} (h : Flow s w q)
    (hpushed : s'.pushed w = s.pushed w) (hprocessed : s'.processed w = s.processed w)
    (hhandler : s'.handler w = s.handler w) (hpipe : s'.pipe w = s.pipe w)
    (hpending : s'.pending w = s.pending w)
    (hmsg : ∀ a ∈ (s.handler w).inHand ++ q,
      msgOf w.kind s'.heap a = msgOf w.kind s.heap a) : Flow s' w q where
  messages := by
    rw [hpushed, hprocessed, hhandler, List.map_congr_left hmsg]
    exact h.messages
  bytes := by
    rw [hpipe]
    exact h.bytes
  byteRead := by
    rw [hhandler]
    exact h.byteRead
  bytePopped := by
    rw [hhandler]
    exact h.bytePopped
  finite := by
    rw [hpending]
    exact h.finite
  count := by
    rw [hpipe, hpending, hhandler]
    exact h.count

/-! ## The invariant -/

/-- The invariant, with the lists of items in each place. -/
structure Inv (s : State) (place : Owner → List ℕ) : Prop where
  custody : Custody (nextOf s.heap) (fun a => s.heap a ≠ none) s.anchor place
  ready : ∀ i, (s.dispatcher i).Ready s.heap
  last : ∀ k, -1 ≤ s.lastThread k ∧ s.lastThread k < k.num
  flow : ∀ w, Flow s w (place (.queue w))

theorem inv_initial : Inv initial (fun _ => []) where
  custody :=
    { holds := by
        intro o
        cases o with
        | free k => exact rfl
        | queue w => exact LinkedQueue.empty _
        | dispatcher i => exact rfl
        | handler w => exact rfl
      nodup := fun _ => List.nodup_nil
      disjoint := fun _ _ _ h => absurd h List.not_mem_nil
      live := fun a => iff_of_false (fun h => h rfl)
        (fun ⟨_, h⟩ => absurd h List.not_mem_nil) }
  ready _ := trivial
  last k := by
    cases k <;> decide
  flow w :=
    { messages := rfl
      bytes := fun _ h => absurd h List.not_mem_nil
      byteRead := fun _ h => by cases h
      bytePopped := fun _ _ h => by cases h
      finite := by
        rw [show initial.pending w = ∅ from Set.eq_empty_of_forall_notMem (fun _ h => by cases h)]
        exact Set.finite_empty
      count := by
        rw [show initial.pending w = ∅ from Set.eq_empty_of_forall_notMem (fun _ h => by cases h),
          Set.ncard_empty]
        rfl }

end Tdm.Thread
