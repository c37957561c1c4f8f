import Tdm.Thread.WorkersFlow
import Tdm.Thread.Blocks

/-!
# The invariant of the worker threads holds in every run

`Inv.dispatcher_step` and `Inv.handler_step` are the frames: what a step has to show when
only one dispatcher, or one worker, is concerned. The steps are then instances of the
rules of `Custody`, and `reachable_inv` is the invariant of every reachable state.
-/

namespace Tdm.Thread

open Tdm.Lib

variable {s s' : State} {place place' : Owner → List ℕ}

namespace Inv

/-! ## Frames -/

theorem dispatcher_items (h : Inv s place) (i : ℕ) :
    place (.dispatcher i) = (s.dispatcher i).items :=
  h.custody.hands_eq rfl

theorem handler_items (h : Inv s place) (w : Worker) :
    place (.handler w) = (s.handler w).items :=
  h.custody.hands_eq rfl

theorem live_of_mem (h : Inv s place) {o : Owner} {a : ℕ} (ha : a ∈ place o) :
    s.heap a ≠ none :=
  h.custody.live_of_mem ha

/-- The items a handler works on or will work on are in its hands or in its queue. -/
theorem mem_place_of_flow (h : Inv s place) {w : Worker} {a : ℕ}
    (ha : a ∈ (s.handler w).inHand ++ place (.queue w)) :
    a ∈ place (.handler w) ∨ a ∈ place (.queue w) := by
  rw [h.handler_items w]
  rcases List.mem_append.mp ha with ha | ha
  · left
    cases hpc : s.handler w with
    | popped b c =>
      rw [hpc] at ha
      exact ha
    | _ =>
      rw [hpc] at ha
      exact absurd ha List.not_mem_nil
  · exact Or.inr ha

theorem pending_update {i : ℕ} {pc : DispatcherPc} {w : Worker}
    (hd : s'.dispatcher = Function.update s.dispatcher i pc)
    (hold : s.dispatcher i ≠ .pushed w) (hnew : pc ≠ .pushed w) :
    s'.pending w = s.pending w := by
  ext j
  show s'.dispatcher j = _ ↔ s.dispatcher j = _
  rw [hd]
  by_cases hj : j = i
  · subst hj
    rw [Function.update_self]
    exact iff_of_false hnew hold
  · rw [Function.update_of_ne hj]

/-- A step of dispatcher `i` that leaves the queues and the pipes alone and stores only into
items that nobody else holds. -/
theorem dispatcher_step (h : Inv s place) {i : ℕ} {pc : DispatcherPc} {heap : Heap}
    {freelist : Kind → Option ℕ} {lastThread : Kind → ℤ}
    (hold : ∀ w, s.dispatcher i ≠ .pushed w) (hnew : ∀ w, pc ≠ .pushed w)
    (hcustody : Custody (nextOf heap) (fun a => heap a ≠ none)
      (anchorOf freelist s.queue (Function.update s.dispatcher i pc) s.handler) place')
    (hplace : ∀ w, place' (.queue w) = place (.queue w))
    (hheap : ∀ o, o ≠ .dispatcher i → ∀ a ∈ place o, heap a = s.heap a)
    (hready : pc.Ready heap)
    (hlast : ∀ k, -1 ≤ lastThread k ∧ lastThread k < k.num) :
    Inv { s with heap := heap, freelist := freelist, lastThread := lastThread
                 dispatcher := Function.update s.dispatcher i pc } place' where
  custody := hcustody
  ready := by
    intro j
    show (Function.update s.dispatcher i pc j).Ready heap
    by_cases hj : j = i
    · subst hj
      rw [Function.update_self]
      exact hready
    · rw [Function.update_of_ne hj]
      apply (h.ready j).congr
      intro a ha
      rw [← h.dispatcher_items j] at ha
      exact hheap (.dispatcher j) (by simpa using hj) a ha
  last := hlast
  flow := by
    intro w
    rw [hplace w]
    refine (h.flow w).frame rfl rfl rfl rfl (pending_update rfl (hold w) (hnew w)) ?_
    intro a ha
    have hsame : heap a = s.heap a := by
      rcases h.mem_place_of_flow ha with ha | ha
      · exact hheap _ (by simp) a ha
      · exact hheap _ (by simp) a ha
    show msgOf w.kind heap a = msgOf w.kind s.heap a
    unfold msgOf
    rw [hsame]

/-- A step of the handler of `w`, which moves links but no message. -/
theorem handler_step (h : Inv s place) (w : Worker) (place' : Owner → List ℕ)
    (hcustody : Custody (nextOf s'.heap) (fun a => s'.heap a ≠ none) s'.anchor place')
    (hheap : ∀ i, ∀ a ∈ place (.dispatcher i), s'.heap a = s.heap a)
    (hmsg : ∀ k, msgOf k s'.heap = msgOf k s.heap)
    (hdispatcher : s'.dispatcher = s.dispatcher) (hlast : s'.lastThread = s.lastThread)
    (hdispatched : s'.dispatched = s.dispatched)
    (hother : ∀ w', w' ≠ w → s'.pipe w' = s.pipe w' ∧ s'.handler w' = s.handler w' ∧
      s'.processed w' = s.processed w' ∧ place' (.queue w') = place (.queue w'))
    (hflow : Flow s' w (place' (.queue w))) : Inv s' place' where
  custody := hcustody
  ready := by
    intro i
    rw [hdispatcher]
    apply (h.ready i).congr
    intro a ha
    rw [← h.dispatcher_items i] at ha
    exact hheap i a ha
  last := by
    rw [hlast]
    exact h.last
  flow := by
    intro w'
    by_cases hw : w' = w
    · subst hw
      exact hflow
    · obtain ⟨hpipe, hhandler, hprocessed, hplace⟩ := hother w' hw
      rw [hplace]
      refine (h.flow w').frame ?_ hprocessed hhandler hpipe ?_ ?_
      · unfold State.pushed
        rw [hdispatched]
      · unfold State.pending
        rw [hdispatcher]
      · intro a _
        rw [hmsg]

/-! ## Dispatchers -/

/-- A dispatcher moves on with the same items in hand. -/
theorem anchor_same_items {i : ℕ} {pc : DispatcherPc}
    (hitems : pc.items = (s.dispatcher i).items) :
    anchorOf s.freelist s.queue (Function.update s.dispatcher i pc) s.handler = s.anchor := by
  rw [anchorOf_dispatcher, hitems]
  exact Function.update_eq_self (Owner.dispatcher i) s.anchor

/-- A dispatcher moves on and nothing else happens. -/
theorem move_dispatcher (h : Inv s place) {i : ℕ} {pc : DispatcherPc}
    (hold : ∀ w, s.dispatcher i ≠ .pushed w) (hnew : ∀ w, pc ≠ .pushed w)
    (hitems : pc.items = (s.dispatcher i).items) (hready : pc.Ready s.heap) :
    Inv { s with dispatcher := Function.update s.dispatcher i pc } place := by
  refine h.dispatcher_step hold hnew ?_ (fun _ => rfl) (fun _ _ _ _ => rfl) hready h.last
  rw [anchor_same_items hitems]
  exact h.custody

theorem takeFree (h : Inv s place) {i : ℕ} {c : Call} {list item : Option ℕ}
    (hpc : s.dispatcher i = .entry c)
    (hrun : cqiNewPop s.heap (s.freelist c.kind) = some (list, item)) :
    ∃ place', Inv { s with freelist := Function.update s.freelist c.kind list
                           dispatcher := Function.update s.dispatcher i (.taken c item) }
      place' ∧ Custody.Moved (.free c.kind) (.dispatcher i) place place' := by
  have hold : ∀ w, s.dispatcher i ≠ .pushed w := by
    intro w
    rw [hpc]
    nofun
  obtain ⟨rfl, hlist⟩ := cqiNewPop_eq_some hrun
  cases hfree : s.freelist c.kind with
  | none =>
    rw [hfree] at hlist
    have hsame : Function.update s.freelist c.kind list = s.freelist := by
      rw [hlist, Option.bind_none, ← hfree, Function.update_eq_self]
    rw [hsame]
    exact ⟨place, h.move_dispatcher hold nofun (by rw [hpc]; rfl) trivial, .refl _ _ _⟩
  | some a =>
    rw [hfree] at hlist
    have hstack : s.anchor (.free c.kind) = .stack (some a) := by
      rw [← hfree]
      rfl
    have hhands : s.anchor (.dispatcher i) = .hands [] := by
      show Anchor.hands (s.dispatcher i).items = _
      rw [hpc]
      rfl
    obtain ⟨rest, hrest, hpop⟩ := h.custody.pop_stack hstack hhands
    have hanchor : Function.update (Function.update s.anchor (.free c.kind)
        (.stack (nextOf s.heap a))) (.dispatcher i) (.hands [a]) =
        anchorOf (Function.update s.freelist c.kind list) s.queue
          (Function.update s.dispatcher i (.got c a)) s.handler := by
      rw [anchorOf_dispatcher, anchorOf_freelist, hlist]
      rfl
    rw [hanchor] at hpop
    refine ⟨_, h.dispatcher_step hold nofun hpop (fun w => ?_) (fun _ _ _ _ => rfl)
      trivial h.last, Custody.moved_head hrest⟩
    simp

theorem malloc (h : Inv s place) {i : ℕ} {c : Call} {item : ℕ} {junk : ℕ → CqItem}
    (hpc : s.dispatcher i = .grow c)
    (hfree : ∀ j < itemsPerAlloc, s.heap (item + j) = none) :
    ∃ place', Inv { s with heap := cqiNewBlock s.heap item junk
                           dispatcher := Function.update s.dispatcher i (.splice c item) }
      place' ∧ ∀ x, ∀ a ∈ place' x, a ∈ place x ∨ (x = .dispatcher i ∧ a ∈ block item) := by
  have hold : ∀ w, s.dispatcher i ≠ .pushed w := by
    intro w
    rw [hpc]
    nofun
  have hhands : s.anchor (.dispatcher i) = .hands [] := by
    show Anchor.hands (s.dispatcher i).items = _
    rw [hpc]
    rfl
  have hnone : ∀ a ∈ block item, s.heap a = none := by
    intro a ha
    obtain ⟨hle, hlt⟩ := mem_block.mp ha
    have hj := hfree (a - item) (by omega)
    rwa [Nat.add_sub_cancel' hle] at hj
  have hlinks : ∀ a, a ∉ block item →
      nextOf (cqiNewBlock s.heap item junk) a = nextOf s.heap a := by
    intro a ha
    unfold nextOf
    rw [cqiNewBlock_of_notMem ha]
  have hlive : ∀ a, cqiNewBlock s.heap item junk a ≠ none ↔
      s.heap a ≠ none ∨ a ∈ block item := by
    intro a
    by_cases ha : a ∈ block item
    · exact iff_of_true (cqiNewBlock_ne_none ha) (Or.inr ha)
    · rw [cqiNewBlock_of_notMem ha]
      exact (or_iff_left ha).symm
  have hcustody := (h.custody.alloc hhands (block_nodup item)
    (fun a ha hlive => hlive (hnone a ha)) _ hlinks).congr_live _ hlive
  have hanchor : Function.update s.anchor (.dispatcher i) (.hands (block item)) =
      anchorOf s.freelist s.queue (Function.update s.dispatcher i (.splice c item))
        s.handler := by
    rw [anchorOf_dispatcher]
    rfl
  rw [hanchor] at hcustody
  refine ⟨_, h.dispatcher_step hold nofun hcustody (fun w => ?_) (fun o _ a ha => ?_)
    (fun a ha hlast => nextOf_cqiNewBlock ha hlast) h.last, fun x a ha => ?_⟩
  · simp
  · -- the block was not allocated before, so nobody else holds any of it
    apply cqiNewBlock_of_notMem
    intro hblock
    exact h.live_of_mem ha (hnone a hblock)
  · by_cases hx : x = .dispatcher i
    · subst hx
      rw [Function.update_self] at ha
      exact .inr ⟨rfl, ha⟩
    · rw [Function.update_of_ne hx] at ha
      exact .inl ha

theorem splice (h : Inv s place) {i : ℕ} {c : Call} {item : ℕ} {heap : Heap}
    {list : Option ℕ} (hpc : s.dispatcher i = .splice c item)
    (hrun : cqiNewSplice s.heap (s.freelist c.kind) item = some (heap, list)) :
    ∃ place', Inv { s with heap := heap, freelist := Function.update s.freelist c.kind list
                           dispatcher := Function.update s.dispatcher i (.got c item) }
      place' ∧ Custody.Moved (.dispatcher i) (.free c.kind) place place' := by
  have hold : ∀ w, s.dispatcher i ≠ .pushed w := by
    intro w
    rw [hpc]
    nofun
  obtain ⟨rfl, rfl⟩ := cqiNewSplice_eq_some hrun
  have hhands : s.anchor (.dispatcher i) =
      .hands ([item] ++ List.range' (item + 1) (itemsPerAlloc - 1)) := by
    show Anchor.hands (s.dispatcher i).items = _
    rw [hpc, ← block_eq_cons]
    rfl
  have hmem : item + (itemsPerAlloc - 1) ∈ place (.dispatcher i) := by
    rw [h.dispatcher_items i, hpc]
    exact mem_block.mpr ⟨by omega, by unfold itemsPerAlloc; omega⟩
  have hnext := nextOf_writeNext (h.live_of_mem hmem) (s.freelist c.kind)
  -- nobody else holds the item stored into
  have hother : ∀ o, o ≠ .dispatcher i → ∀ a ∈ place o, a ≠ item + (itemsPerAlloc - 1) := by
    rintro o ho a ha rfl
    exact ho (h.custody.disjoint _ _ _ ha hmem)
  have hlinks : ∀ b, item + 1 ≤ b → b < item + 1 + (itemsPerAlloc - 2) →
      Function.update (nextOf s.heap) (item + (itemsPerAlloc - 1)) (s.freelist c.kind) b =
        some (b + 1) := by
    intro b hb hlt
    have hready := h.ready i
    rw [hpc] at hready
    have hsize : itemsPerAlloc = 128 := rfl
    rw [Function.update_of_ne (by omega)]
    exact hready b (by omega) (by omega)
  have hlast : Function.update (nextOf s.heap) (item + (itemsPerAlloc - 1))
      (s.freelist c.kind) (item + 1 + (itemsPerAlloc - 2)) = s.freelist c.kind :=
    Function.update_self ..
  have hfree : Chain (Function.update (nextOf s.heap) (item + (itemsPerAlloc - 1))
      (s.freelist c.kind)) (s.freelist c.kind) (place (.free c.kind)) := by
    refine Chain.congr (fun a ha => ?_) (h.custody.stack_chain rfl)
    exact Function.update_of_ne (hother (.free c.kind) (by simp) a ha) _ _
  have hinside : ∀ a, a ∉ [item] ++ List.range' (item + 1) (itemsPerAlloc - 1) →
      Function.update (nextOf s.heap) (item + (itemsPerAlloc - 1)) (s.freelist c.kind) a =
        nextOf s.heap a := by
    intro a ha
    apply Function.update_of_ne
    rintro rfl
    rw [h.dispatcher_items i, hpc] at hmem
    rw [← block_eq_cons] at ha
    exact ha hmem
  have hsplice := h.custody.splice [item] _ hhands rfl hinside
    (hfree.range_append (itemsPerAlloc - 2) (item + 1) hlinks hlast)
  have hanchor : Function.update (Function.update s.anchor (.dispatcher i) (.hands [item]))
      (.free c.kind) (.stack (some (item + 1))) =
      anchorOf (Function.update s.freelist c.kind (some (item + 1))) s.queue
        (Function.update s.dispatcher i (.got c item)) s.handler := by
    rw [anchorOf_freelist, anchorOf_dispatcher]
    rfl
  rw [hanchor, ← hnext] at hsplice
  have hcustody := hsplice.congr_live
    (fun a => writeNext s.heap (item + (itemsPerAlloc - 1)) (s.freelist c.kind) a ≠ none)
    fun a => not_congr writeNext_eq_none
  have hplace : place (.dispatcher i) = [item] ++ List.range' (item + 1) (itemsPerAlloc - 1) :=
    h.custody.hands_eq hhands
  refine ⟨_, h.dispatcher_step hold nofun hcustody (fun w => ?_) (fun o ho a ha => ?_)
    trivial h.last, Custody.moved_update (fun a ha => ?_) (fun a ha => ?_)⟩
  · simp
  · exact writeNext_of_ne (hother o ho a ha) _
  · rw [hplace]
    exact List.mem_append_left _ ha
  · rw [hplace]
    rcases List.mem_append.mp ha with ha | ha
    · exact .inl (List.mem_append_right _ ha)
    · exact .inr ha

/-- A dispatcher stores into the one item in its hands. -/
theorem store_item (h : Inv s place) {i item : ℕ} {pc : DispatcherPc} {new : CqItem}
    {lastThread : Kind → ℤ} (hold : ∀ w, s.dispatcher i ≠ .pushed w)
    (hnew : ∀ w, pc ≠ .pushed w) (hhas : (s.dispatcher i).items = [item])
    (hkeeps : pc.items = [item])
    (hready : pc.Ready (Function.update s.heap item (some new)))
    (hlast : ∀ k, -1 ≤ lastThread k ∧ lastThread k < k.num) :
    Inv { s with heap := Function.update s.heap item (some new), lastThread := lastThread
                 dispatcher := Function.update s.dispatcher i pc } place := by
  have hmem : item ∈ place (.dispatcher i) := by
    rw [h.dispatcher_items i, hhas]
    exact List.mem_singleton_self item
  have hhands : s.anchor (.dispatcher i) = .hands [item] := by
    show Anchor.hands (s.dispatcher i).items = _
    rw [hhas]
  have hlinks : ∀ a, a ∉ [item] →
      nextOf (Function.update s.heap item (some new)) a = nextOf s.heap a := by
    intro a ha
    rw [nextOf_update, Function.update_of_ne (by simpa using ha)]
  have hlive : ∀ a, Function.update s.heap item (some new) a ≠ none ↔ s.heap a ≠ none := by
    intro a
    by_cases ha : a = item
    · subst ha
      rw [Function.update_self]
      exact iff_of_true nofun (h.live_of_mem hmem)
    · rw [Function.update_of_ne ha]
  have hcustody := (h.custody.write hhands hlinks).congr_live _ hlive
  have hanchor : anchorOf s.freelist s.queue (Function.update s.dispatcher i pc) s.handler =
      s.anchor := anchor_same_items (hkeeps.trans hhas.symm)
  rw [← hanchor] at hcustody
  refine h.dispatcher_step hold hnew hcustody (fun _ => rfl) (fun o ho a ha => ?_) hready hlast
  apply Function.update_of_ne
  rintro rfl
  exact ho (h.custody.disjoint _ _ _ ha hmem)

/-- `(last_thread + 1) % n` is the index of a worker. -/
theorem tid_range (h : Inv s place) (k : Kind) :
    0 ≤ (s.lastThread k + 1).tmod k.num ∧ (s.lastThread k + 1).tmod k.num < k.num := by
  have hlast := (h.last k).1
  have hnum : (0 : ℤ) < k.num := by
    cases k <;> decide
  exact ⟨Int.tmod_nonneg _ (by omega), Int.tmod_lt_of_pos _ hnum⟩

theorem load (h : Inv s place) {i item : ℕ} {c : Call}
    (hpc : s.dispatcher i = .got c item) :
    Inv { s with heap := Function.update s.heap item (some CqItem.zero)
                 dispatcher := Function.update s.dispatcher i
                   (.loaded c item ((s.lastThread c.kind + 1).tmod c.kind.num)) } place := by
  refine h.store_item (by rw [hpc]; nofun) nofun (by rw [hpc]; rfl) rfl ?_ h.last
  exact ⟨Function.update_self .., h.tid_range c.kind⟩

theorem store (h : Inv s place) {i item : ℕ} {c : Call} {tid : ℤ} {old : CqItem}
    (hpc : s.dispatcher i = .loaded c item tid) (hitem : s.heap item = some old) :
    Inv { s with heap := Function.update s.heap item (some (c.fill old))
                 lastThread := Function.update s.lastThread c.kind tid
                 dispatcher := Function.update s.dispatcher i (.filled c item tid) }
      place := by
  have hready := h.ready i
  rw [hpc] at hready
  obtain ⟨hzero, htid⟩ := hready
  obtain rfl : old = CqItem.zero := Option.some.inj (hitem.symm.trans hzero)
  refine h.store_item (by rw [hpc]; nofun) nofun (by rw [hpc]; rfl) rfl ?_ ?_
  · exact ⟨Function.update_self .., htid⟩
  · intro k
    by_cases hk : k = c.kind
    · subst hk
      rw [Function.update_self]
      omega
    · rw [Function.update_of_ne hk]
      exact h.last k

/-- The history of a push is seen by the worker pushed to, and by no other. -/
theorem pushed_append {w : Worker} {m : Msg}
    (hd : s'.dispatched = Function.update s.dispatched w.kind
      (s.dispatched w.kind ++ [(w.idx, m)])) :
    s'.pushed w = s.pushed w ++ [m] ∧ ∀ w', w' ≠ w → s'.pushed w' = s.pushed w' := by
  unfold State.pushed
  rw [hd]
  constructor
  · rw [Function.update_self, List.filter_append, List.map_append]
    simp
  · intro w' hw'
    by_cases hk : w'.kind = w.kind
    · have hidx : w.idx ≠ w'.idx := by
        intro he
        apply hw'
        cases w
        cases w'
        simp_all
      rw [hk, Function.update_self, List.filter_append, List.map_append]
      simp [hidx]
    · rw [Function.update_of_ne hk]

theorem push (h : Inv s place) {i item : ℕ} {c : Call} {tid : ℤ} {heap : Heap} {cq : Cq}
    (hpc : s.dispatcher i = .filled c item tid)
    (hrun : cqPush s.heap (s.queue ⟨c.kind, tid.toNat⟩) item = some (heap, cq)) :
    ∃ place', Inv { s with heap := heap
                           queue := Function.update s.queue ⟨c.kind, tid.toNat⟩ cq
                           dispatched := Function.update s.dispatched c.kind
                             (s.dispatched c.kind ++ [(tid.toNat, c.msg)])
                           dispatcher := Function.update s.dispatcher i
                             (.pushed ⟨c.kind, tid.toNat⟩) } place' ∧
      Custody.Moved (.dispatcher i) (.queue ⟨c.kind, tid.toNat⟩) place place' := by
  obtain ⟨rfl, hlive, hnext, hsame, hmsg⟩ := cqPush_eq_some hrun
  set w : Worker := ⟨c.kind, tid.toNat⟩ with hw
  have hhands : s.anchor (.dispatcher i) = .hands [item] := by
    show Anchor.hands (s.dispatcher i).items = _
    rw [hpc]
    rfl
  have hmem : item ∈ place (.dispatcher i) := by
    rw [h.dispatcher_items i, hpc]
    exact List.mem_singleton_self item
  have hlinks : ∀ a, a ∉ [item] →
      Function.update (nextOf s.heap) item none a = nextOf s.heap a := fun a ha =>
    Function.update_of_ne (by simpa using ha) _ _
  have hcustody := ((h.custody.write hhands hlinks).push_queue hhands
    (Function.update_self ..) (show s.anchor (.queue w) = .queue _ _ from rfl) hnext).congr_live
    (fun a => heap a ≠ none) fun a => not_congr (hlive a)
  have hanchor : Function.update (Function.update s.anchor (.dispatcher i) (.hands []))
      (.queue w) (.queue (if (s.queue w).tail = none then some item else (s.queue w).head)
        (some item)) =
      anchorOf s.freelist (Function.update s.queue w
        ⟨if (s.queue w).tail = none then some item else (s.queue w).head, some item⟩)
        (Function.update s.dispatcher i (.pushed w)) s.handler := by
    rw [anchorOf_queue, anchorOf_dispatcher]
    rfl
  rw [hanchor] at hcustody
  have hready := h.ready i
  rw [hpc] at hready
  have hitem : msgOf w.kind s.heap item = some c.msg := by
    unfold msgOf
    rw [hready.1, Option.bind_some, hw, handle_fill]
    rfl
  have hnot : ∀ w', i ∉ s.pending w' := by
    intro w' hi
    have hi : s.dispatcher i = .pushed w' := hi
    rw [hpc] at hi
    cases hi
  have hhistory : ∀ {s' : State}, s'.dispatched = Function.update s.dispatched c.kind
      (s.dispatched c.kind ++ [(tid.toNat, c.msg)]) →
      s'.pushed w = s.pushed w ++ [c.msg] ∧ ∀ w', w' ≠ w → s'.pushed w' = s.pushed w' :=
    fun hd => pushed_append hd
  refine ⟨_, ⟨hcustody, ?_, h.last, ?_⟩, Custody.moved_update nofun (fun a ha => ?_)⟩
  · intro j
    show (Function.update s.dispatcher i (.pushed w) j).Ready heap
    by_cases hj : j = i
    · subst hj
      rw [Function.update_self]
      trivial
    · rw [Function.update_of_ne hj]
      apply (h.ready j).congr
      intro a ha
      rw [← h.dispatcher_items j] at ha
      -- the items stored into are the one pushed and the tail of the queue
      apply hsame a
      · rintro rfl
        exact hj (by simpa using h.custody.disjoint _ _ _ ha hmem)
      · intro htail
        have hq := (h.custody.linkedQueue (o := .queue w) rfl).last
        have hin : a ∈ place (.queue w) := List.mem_of_getLast? (hq.symm.trans htail)
        have := h.custody.disjoint _ _ _ ha hin
        cases this
  · intro w'
    by_cases hw' : w' = w
    · subst hw'
      rw [Function.update_self]
      refine (h.flow _).push (hhistory rfl).1 rfl rfl rfl ?_ (hnot _) (hmsg _) hitem
      ext j
      show Function.update s.dispatcher i _ j = _ ↔ _
      by_cases hj : j = i
      · subst hj
        simp
      · rw [Function.update_of_ne hj, Set.mem_insert_iff, or_iff_right hj]
        rfl
    · have hplace : Function.update (Function.update place (.dispatcher i) []) (.queue w)
          (place (.queue w) ++ [item]) (.queue w') = place (.queue w') := by
        rw [Function.update_of_ne (by simpa using hw'), Function.update_of_ne (by simp)]
      rw [hplace]
      refine (h.flow w').frame ((hhistory rfl).2 w' hw') rfl rfl rfl
        (pending_update rfl (hnot w') (by simpa using Ne.symm hw')) ?_
      intro a _
      show msgOf w'.kind heap a = _
      rw [hmsg]
  · rcases List.mem_append.mp ha with ha | ha
    · exact .inr ha
    · rw [List.mem_singleton.mp ha]
      exact .inl hmem

theorem notify (h : Inv s place) {i : ℕ} {w : Worker} (hpc : s.dispatcher i = .pushed w) :
    Inv { s with pipe := Function.update s.pipe w (s.pipe w ++ [w.kind.byte])
                 dispatcher := Function.update s.dispatcher i .idle } place where
  custody := by
    have hanchor : anchorOf s.freelist s.queue (Function.update s.dispatcher i .idle)
        s.handler = s.anchor := anchor_same_items (by rw [hpc]; rfl)
    show Custody _ _ (anchorOf _ _ _ _) _
    rw [hanchor]
    exact h.custody
  ready := by
    refine (Function.forall_update_iff s.dispatcher fun _ pc => pc.Ready s.heap).mpr
      ⟨trivial, fun j _ => h.ready j⟩
  last := h.last
  flow := by
    intro w'
    by_cases hw' : w' = w
    · subst hw'
      refine (h.flow w').notify rfl rfl rfl (Function.update_self ..) ?_ hpc rfl
      ext j
      show Function.update s.dispatcher i _ j = _ ↔ _
      by_cases hj : j = i
      · subst hj
        simp
      · rw [Function.update_of_ne hj]
        show s.dispatcher j = _ ↔ s.dispatcher j = _ ∧ j ∉ ({i} : Set ℕ)
        rw [Set.mem_singleton_iff]
        exact (and_iff_left hj).symm
    · refine (h.flow w').frame rfl rfl rfl (Function.update_of_ne hw' _ _)
        (pending_update rfl ?_ nofun) (fun _ _ => rfl)
      rw [hpc]
      simpa using Ne.symm hw'

/-! ## Handlers -/

/-- A handler moves on with the same items in hand. -/
theorem custody_same_hands (h : Inv s place) {w : Worker} {pc : HandlerPc}
    (hitems : pc.items = (s.handler w).items) :
    Custody (nextOf s.heap) (fun a => s.heap a ≠ none)
      (anchorOf s.freelist s.queue s.dispatcher (Function.update s.handler w pc)) place := by
  have hanchor : Function.update s.anchor (.handler w) (s.anchor (.handler w)) = s.anchor :=
    Function.update_eq_self ..
  rw [anchorOf_handler, hitems]
  exact hanchor.symm ▸ h.custody

theorem read (h : Inv s place) {w : Worker} {b : UInt8} {rest : List UInt8}
    (hpc : s.handler w = .idle) (hpipe : s.pipe w = b :: rest) :
    Inv { s with pipe := Function.update s.pipe w rest
                 handler := Function.update s.handler w (.read b) } place := by
  refine h.handler_step w place ?_ (fun _ _ _ => rfl) (fun _ => rfl) rfl rfl rfl
    (fun w' hw' => ?_) ?_
  · exact h.custody_same_hands (by rw [hpc]; rfl)
  · exact ⟨Function.update_of_ne hw' _ _, Function.update_of_ne hw' _ _, rfl, rfl⟩
  · exact (h.flow w).read rfl rfl hpc (Function.update_self ..) hpipe
      (Function.update_self ..) rfl rfl

/-- A handler that has read a byte finds an item in its queue. -/
theorem queue_nonempty (h : Inv s place) {w : Worker} {b : UInt8}
    (hpc : s.handler w = .read b) : ∃ a, (s.queue w).head = some a := by
  have hcount := (h.flow w).count
  rw [hpc] at hcount
  have hne : place (.queue w) ≠ [] := by
    intro hempty
    rw [hempty, List.length_nil] at hcount
    simp only [HandlerPc.reading] at hcount
    omega
  have hhead := (h.custody.linkedQueue (o := .queue w) rfl).head_eq_none_iff
  exact Option.ne_none_iff_exists'.mp fun he => hne (hhead.mp he)

theorem pop (h : Inv s place) {w : Worker} {b : UInt8} {cq : Cq} {item : Option ℕ}
    (hpc : s.handler w = .read b) (hrun : cqPop s.heap (s.queue w) = some (cq, item)) :
    ∃ place', Inv { s with queue := Function.update s.queue w cq
                           handler := Function.update s.handler w (.taken b item) }
      place' ∧ Custody.Moved (.queue w) (.handler w) place place' := by
  obtain ⟨a, hhead⟩ := h.queue_nonempty hpc
  rcases cqPop_eq_some hrun with ⟨hnone, -⟩ | ⟨a', hhead', rfl, rfl⟩
  · rw [hhead] at hnone
    cases hnone
  obtain rfl : a = a' := Option.some.inj (hhead.symm.trans hhead')
  have hhands : s.anchor (.handler w) = .hands [] := by
    show Anchor.hands (s.handler w).items = _
    rw [hpc]
    rfl
  have hqueue : s.anchor (.queue w) = .queue (some a) (s.queue w).tail := by
    show Anchor.queue (s.queue w).head (s.queue w).tail = _
    rw [hhead]
  obtain ⟨rest, hrest, hcustody⟩ := h.custody.pop_queue hqueue hhands
  have hplace : ∀ w', w' ≠ w →
      Function.update (Function.update place (.queue w) rest) (.handler w) [a] (.queue w') =
        place (.queue w') := by
    intro w' hw'
    rw [Function.update_of_ne (by simp), Function.update_of_ne (by simpa using hw')]
  refine ⟨_, h.handler_step w (Function.update (Function.update place (.queue w) rest)
    (.handler w) [a]) ?_ (fun _ _ _ => rfl) (fun _ => rfl) rfl rfl rfl
    (fun w' hw' => ⟨rfl, Function.update_of_ne hw' _ _, rfl, hplace w' hw'⟩) ?_,
    Custody.moved_head hrest⟩
  · show Custody _ _ (anchorOf _ _ _ _) _
    rw [anchorOf_handler, anchorOf_queue]
    exact hcustody
  · have hflow := h.flow w
    rw [hrest] at hflow
    rw [Function.update_of_ne (by simp), Function.update_self]
    exact hflow.pop rfl rfl hpc (Function.update_self ..) rfl rfl rfl

/-- What the handler works on is the message its item holds. -/
theorem message_eq (h : Inv s place) {w : Worker} {b : UInt8} {a : ℕ} {item : CqItem}
    (hpc : s.handler w = .popped b a) (hitem : s.heap a = some item) :
    ∃ m, msgOf w.kind s.heap a = some m ∧ handle w.kind b item = some (some m) := by
  obtain ⟨m, hm⟩ := (h.flow w).message_inHand hpc
  refine ⟨m, hm, ?_⟩
  rw [(h.flow w).bytePopped b a hpc]
  unfold msgOf at hm
  rw [hitem, Option.bind_some, Option.join_eq_some_iff] at hm
  exact hm

theorem process (h : Inv s place) {w : Worker} {b : UInt8} {a : ℕ} {item : CqItem}
    {m : Option Msg} (hpc : s.handler w = .popped b a) (hitem : s.heap a = some item)
    (hrun : handle w.kind b item = some m) :
    Inv { s with handler := Function.update s.handler w (.done a)
                 processed := Function.update s.processed w (s.processed w ++ m.toList) }
      place := by
  obtain ⟨m', hm', hhandle⟩ := h.message_eq hpc hitem
  obtain rfl : m = some m' := Option.some.inj (hrun.symm.trans hhandle)
  refine h.handler_step w place ?_ (fun _ _ _ => rfl) (fun _ => rfl) rfl rfl rfl
    (fun w' hw' => ?_) ?_
  · exact h.custody_same_hands (by rw [hpc]; rfl)
  · exact ⟨rfl, Function.update_of_ne hw' _ _, Function.update_of_ne hw' _ _, rfl⟩
  · exact (h.flow w).process rfl (Function.update_self ..) hpc (Function.update_self ..) rfl
      rfl rfl hm'

theorem free (h : Inv s place) {w : Worker} {a : ℕ} {heap : Heap} {list : Option ℕ}
    (hpc : s.handler w = .done a)
    (hrun : cqiFreeBase s.heap (s.freelist w.kind) a = some (heap, list)) :
    ∃ place', Inv { s with heap := heap
                           freelist := Function.update s.freelist w.kind list
                           handler := Function.update s.handler w .idle } place' ∧
      Custody.Moved (.handler w) (.free w.kind) place place' := by
  obtain ⟨rfl, rfl⟩ := cqiFreeBase_eq_some hrun
  have hmem : a ∈ place (.handler w) := by
    rw [h.handler_items w, hpc]
    exact List.mem_singleton_self a
  have hhands : s.anchor (.handler w) = .hands [a] := by
    show Anchor.hands (s.handler w).items = _
    rw [hpc]
    rfl
  have hcustody := (h.custody.push_stack hhands
    (show s.anchor (.free w.kind) = .stack _ from rfl)).congr_live
    (fun b => writeNext s.heap a (s.freelist w.kind) b ≠ none)
    fun b => not_congr writeNext_eq_none
  rw [← nextOf_writeNext (h.live_of_mem hmem)] at hcustody
  refine ⟨_, h.handler_step w (Function.update (Function.update place (.handler w) [])
    (.free w.kind) (a :: place (.free w.kind))) ?_ (fun i b hb => ?_)
    (fun k => msgOf_writeNext k a _) rfl rfl rfl (fun w' hw' => ?_) ?_,
    Custody.moved_update nofun (fun b hb => ?_)⟩
  · show Custody _ _ (anchorOf _ _ _ _) _
    rw [anchorOf_freelist, anchorOf_handler]
    exact hcustody
  · apply writeNext_of_ne
    rintro rfl
    have := h.custody.disjoint _ _ _ hb hmem
    cases this
  · exact ⟨rfl, Function.update_of_ne hw' _ _, rfl, by simp⟩
  · rw [Function.update_of_ne (by simp), Function.update_of_ne (by simp)]
    exact (h.flow w).free rfl rfl hpc (Function.update_self ..) rfl rfl
      (msgOf_writeNext w.kind a _)
  · rcases List.mem_cons.mp hb with rfl | hb
    · exact .inl hmem
    · exact .inr hb

/-! ## Every run -/

/-- Nothing is undefined. -/
theorem not_undef (h : Inv s place) {l : Label} : ¬ Undef s l := by
  intro hundef
  have hdispatcher : ∀ i a, a ∈ (s.dispatcher i).items → s.heap a ≠ none := by
    intro i a ha
    rw [← h.dispatcher_items i] at ha
    exact h.live_of_mem ha
  have hhandler : ∀ w a, a ∈ (s.handler w).items → s.heap a ≠ none := by
    intro w a ha
    rw [← h.handler_items w] at ha
    exact h.live_of_mem ha
  cases hundef with
  | takeFree i c hpc hrun =>
    obtain ⟨a, hlist, hnone⟩ := cqiNewPop_eq_none hrun
    have hchain := h.custody.stack_chain (o := .free c.kind) rfl
    rw [hlist] at hchain
    have hmem : a ∈ place (.free c.kind) := List.mem_of_head? hchain.start_eq.symm
    exact h.live_of_mem hmem hnone
  | splice i c item hpc hrun =>
    refine hdispatcher i _ ?_ (cqiNewSplice_eq_none hrun)
    rw [hpc]
    exact mem_block.mpr ⟨by omega, by unfold itemsPerAlloc; omega⟩
  | load i c item hpc hitem =>
    exact hdispatcher i item (by rw [hpc]; exact List.mem_singleton_self item) hitem
  | store i c item tid hpc hitem =>
    exact hdispatcher i item (by rw [hpc]; exact List.mem_singleton_self item) hitem
  | thread i c item tid hpc htid =>
    have hready := h.ready i
    rw [hpc] at hready
    exact htid hready.2
  | push i c item tid hpc hrun =>
    rcases cqPush_eq_none hrun with hnone | ⟨t, htail, hnone⟩
    · exact hdispatcher i item (by rw [hpc]; exact List.mem_singleton_self item) hnone
    · have hlast := (h.custody.linkedQueue (o := .queue ⟨c.kind, tid.toNat⟩) rfl).last
      rw [htail] at hlast
      exact h.live_of_mem (List.mem_of_getLast? hlast.symm) hnone
  | pop w b hpc hrun =>
    obtain ⟨a, hhead, hnone⟩ := cqPop_eq_none hrun
    have hchain := (h.custody.linkedQueue (o := .queue w) rfl).chain
    rw [hhead] at hchain
    exact h.live_of_mem (List.mem_of_head? hchain.start_eq.symm) hnone
  | process w b a hpc hitem =>
    have hlive := hhandler w a (by rw [hpc]; exact List.mem_singleton_self a)
    obtain ⟨item, hsome⟩ := Option.ne_none_iff_exists'.mp hlive
    obtain ⟨m, -, hm⟩ := h.message_eq hpc hsome
    rw [hitem item hsome] at hm
    cases hm
  | free w a hpc hrun =>
    exact hhandler w a (by rw [hpc]; exact List.mem_singleton_self a)
      (cqiFreeBase_eq_none hrun)

/-- Every step keeps the invariant, and moves items within a group only. -/
theorem step_carried {main : Set ℕ} {l : Label} (h : Inv s place)
    (hstep : Step main s l s') : ∃ place', Inv s' place' ∧ Carried s s' l place place' := by
  -- what a step of a dispatcher that has or takes no block leaves as it was
  have hnew : ∀ {i : ℕ}, (∀ c, s.dispatcher i ≠ .grow c) → ∀ s' : State,
      newBlocks s s' (.dispatcher i) = [] := fun hpc _ => newBlocks_eq_nil hpc
  cases hstep with
  | call i c hpc hmain =>
    refine ⟨place, h.move_dispatcher (by rw [hpc]; nofun) nofun (by rw [hpc]; rfl) trivial, ?_⟩
    exact .of_same (fun _ _ => h.ownerKind_eq rfl (.inl (by rw [hpc]; rfl)))
      (fun _ => Iff.rfl) (hnew (by simp [hpc]) _)
  | takeFree i c list item hpc hrun =>
    obtain ⟨place', hinv, hmoved⟩ := h.takeFree hpc hrun
    refine ⟨place', hinv, .of_moved hmoved
      (fun _ _ => h.ownerKind_eq rfl (.inl (by rw [hpc]; rfl))) ?_
      (fun _ => Iff.rfl) (hnew (by simp [hpc]) _)⟩
    show (Function.update s.dispatcher i _ i).kind = _
    rw [Function.update_self]
    cases item <;> rfl
  | mallocFail i c hpc =>
    refine ⟨place, h.move_dispatcher (by rw [hpc]; nofun) nofun (by rw [hpc]; rfl) trivial, ?_⟩
    refine .of_same (fun _ _ => h.ownerKind_eq rfl (.inl (by rw [hpc]; rfl)))
      (fun _ => Iff.rfl) ?_
    simp only [newBlocks, hpc, Function.update_self]
  | malloc i c item junk hpc hfree =>
    obtain ⟨place', hinv, hplace⟩ := h.malloc hpc hfree
    exact ⟨place', hinv, h.carried_malloc item junk hpc hfree rfl rfl hplace⟩
  | splice i c item heap list hpc hrun =>
    obtain ⟨place', hinv, hmoved⟩ := h.splice hpc hrun
    obtain ⟨rfl, -⟩ := cqiNewSplice_eq_some hrun
    refine ⟨place', hinv, .of_moved hmoved
      (fun _ _ => h.ownerKind_eq rfl (.inr (by rw [hpc]; rfl))) ?_
      (fun _ => writeNext_eq_none) (hnew (by simp [hpc]) _)⟩
    show some c.kind = (s.dispatcher i).kind
    rw [hpc]
    rfl
  | load i c item old hpc hitem =>
    exact ⟨place, h.load hpc, .of_same
      (fun _ _ => h.ownerKind_eq rfl (.inr (by rw [hpc]; rfl)))
      (update_eq_none hitem) (hnew (by simp [hpc]) _)⟩
  | store i c item tid old hpc hitem =>
    exact ⟨place, h.store hpc hitem, .of_same
      (fun _ _ => h.ownerKind_eq rfl (.inr (by rw [hpc]; rfl)))
      (update_eq_none hitem) (hnew (by simp [hpc]) _)⟩
  | push i c item tid heap cq hpc htid hrun =>
    obtain ⟨place', hinv, hmoved⟩ := h.push hpc hrun
    obtain ⟨-, hlive, -⟩ := cqPush_eq_some hrun
    refine ⟨place', hinv, .of_moved hmoved
      (fun _ _ => h.ownerKind_eq rfl (.inr (by rw [hpc]; rfl))) ?_
      hlive (hnew (by simp [hpc]) _)⟩
    show some c.kind = (s.dispatcher i).kind
    rw [hpc]
    rfl
  | notify i w hpc =>
    exact ⟨place, h.notify hpc, .of_same
      (fun _ _ => h.ownerKind_eq rfl (.inl (by rw [hpc]; rfl)))
      (fun _ => Iff.rfl) (hnew (by simp [hpc]) _)⟩
  | read w b rest hw hpc hpipe =>
    exact ⟨place, h.read hpc hpipe, .of_same (fun _ _ _ => rfl) (fun _ => Iff.rfl) rfl⟩
  | ignore w b hpc hb =>
    -- every byte in a pipe is one its handler acts on
    rw [(h.flow w).byteRead b hpc] at hb
    cases hk : w.kind <;> rw [hk] at hb <;> cases hb
  | pop w b cq item hpc hb hrun =>
    obtain ⟨place', hinv, hmoved⟩ := h.pop hpc hrun
    exact ⟨place', hinv, .of_moved hmoved (fun _ _ _ => rfl) rfl (fun _ => Iff.rfl) rfl⟩
  | process w b a item m hpc hitem hrun =>
    exact ⟨place, h.process hpc hitem hrun,
      .of_same (fun _ _ _ => rfl) (fun _ => Iff.rfl) rfl⟩
  | free w a heap list hpc hrun =>
    obtain ⟨place', hinv, hmoved⟩ := h.free hpc hrun
    obtain ⟨rfl, -⟩ := cqiFreeBase_eq_some hrun
    exact ⟨place', hinv,
      .of_moved hmoved (fun _ _ _ => rfl) rfl (fun _ => writeNext_eq_none) rfl⟩
  | undef l s' hundef => exact absurd hundef h.not_undef

theorem step {main : Set ℕ} {l : Label} (h : Inv s place) (hstep : Step main s l s') :
    ∃ place', Inv s' place' := by
  obtain ⟨place', hinv, -⟩ := h.step_carried hstep
  exact ⟨place', hinv⟩

end Inv

/-- The invariant of every reachable state. -/
theorem reachable_inv {main : Set ℕ} (h : (machine main).Reachable s) :
    ∃ place, Inv s place := by
  refine h.invariant (I := fun s => ∃ place, Inv s place) (fun s hs => ?_)
    (fun s l s' _ hi hstep => ?_)
  · subst hs
    exact ⟨_, inv_initial⟩
  · obtain ⟨place, hinv⟩ := hi
    exact hinv.step hstep

end Tdm.Thread
