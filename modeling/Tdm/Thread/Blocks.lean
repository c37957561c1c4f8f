import Tdm.Thread.WorkersInvariant

/-!
# The blocks of items and the group each place belongs to

`cqi_new_base` allocates `ITEMS_PER_ALLOC` items at a time for one of the two groups of
workers. `newBlocks` reads off a step which block it allocated and for which group, and
`State.ownerKind` says which group a place belongs to: a free list, a queue and a handler
always the same one, a dispatcher the one of the call it runs. `Carried` is what every step
does with the items: they move between places of one group, no item is lost, and the items
of a new block were not allocated before.
-/

namespace Tdm.Thread

open Tdm.Lib

variable {s s' : State} {place place' : Owner → List ℕ}

/-- The group of the call a dispatcher runs. -/
def DispatcherPc.kind : DispatcherPc → Option Kind
  | .idle => none
  | .entry c | .grow c | .splice c _ | .got c _ | .loaded c _ _ | .filled c _ _ => some c.kind
  | .pushed w => some w.kind

/-- The group a place belongs to; a dispatcher without a call belongs to none. -/
def State.ownerKind (s : State) : Owner → Option Kind
  | .free k => some k
  | .queue w | .handler w => some w.kind
  | .dispatcher i => (s.dispatcher i).kind

/-- The block a step from `s` to `s'` allocated: its group and its first item. -/
def newBlocks (s s' : State) : Label → List (Kind × ℕ)
  | .dispatcher i =>
    match s.dispatcher i, s'.dispatcher i with
    | .grow c, .splice _ item => [(c.kind, item)]
    | _, _ => []
  | .handler _ => []

theorem newBlocks_eq_nil {i : ℕ} (h : ∀ c, s.dispatcher i ≠ .grow c) :
    newBlocks s s' (.dispatcher i) = [] := by
  cases hpc : s.dispatcher i with
  | grow c => exact absurd hpc (h c)
  | _ => simp only [newBlocks, hpc]

/-- A step allocates at most one block. -/
theorem newBlocks_cases (s s' : State) (l : Label) :
    newBlocks s s' l = [] ∨ ∃ b, newBlocks s s' l = [b] := by
  unfold newBlocks
  split
  · split
    · exact .inr ⟨_, rfl⟩
    · exact .inl rfl
  · exact .inl rfl

/-- What a step does with the items. -/
structure Carried (s s' : State) (l : Label) (place place' : Owner → List ℕ) : Prop where
  /-- An item stays within its group, or comes in with a new block of it. -/
  kind : ∀ x, ∀ a ∈ place' x, (∃ y, a ∈ place y ∧ s'.ownerKind x = s.ownerKind y) ∨
    ∃ b ∈ newBlocks s s' l, a ∈ block b.2 ∧ s'.ownerKind x = some b.1
  live : ∀ a, s'.heap a ≠ none ↔ s.heap a ≠ none ∨ ∃ b ∈ newBlocks s s' l, a ∈ block b.2
  fresh : ∀ b ∈ newBlocks s s' l, ∀ a ∈ block b.2, s.heap a = none

/-- A dispatcher that has items in hand goes on with the call it has them for. -/
theorem Inv.ownerKind_eq (h : Inv s place) {i : ℕ} {pc : DispatcherPc}
    (hd : s'.dispatcher = Function.update s.dispatcher i pc)
    (hkind : (s.dispatcher i).items = [] ∨ pc.kind = (s.dispatcher i).kind)
    {x : Owner} {a : ℕ} (ha : a ∈ place x) : s'.ownerKind x = s.ownerKind x := by
  cases x with
  | dispatcher j =>
    show (s'.dispatcher j).kind = (s.dispatcher j).kind
    rw [hd]
    by_cases hj : j = i
    · subst hj
      rw [Function.update_self]
      rcases hkind with hnone | hkind
      · have hitems : place (.dispatcher j) = (s.dispatcher j).items := h.custody.hands_eq rfl
        rw [hitems, hnone] at ha
        cases ha
      · exact hkind
    · rw [Function.update_of_ne hj]
  | _ => rfl

/-- A step that allocates nothing and moves items from `o` to `o'`. -/
theorem Carried.of_moved {l : Label} {o o' : Owner} (hmoved : Custody.Moved o o' place place')
    (hsame : ∀ x, ∀ a ∈ place x, s'.ownerKind x = s.ownerKind x)
    (hkind : s'.ownerKind o' = s.ownerKind o)
    (hheap : ∀ a, s'.heap a = none ↔ s.heap a = none) (hnew : newBlocks s s' l = []) :
    Carried s s' l place place' where
  kind := by
    intro x a ha
    left
    rcases hmoved x a ha with hold | ⟨rfl, hfrom⟩
    · exact ⟨x, hold, hsame x a hold⟩
    · exact ⟨o, hfrom, hkind⟩
  live := by
    intro a
    rw [hnew]
    simp [hheap a]
  fresh := by
    rw [hnew]
    nofun

/-- A step that allocates nothing and moves no item. -/
theorem Carried.of_same {l : Label}
    (hsame : ∀ x, ∀ a ∈ place x, s'.ownerKind x = s.ownerKind x)
    (hheap : ∀ a, s'.heap a = none ↔ s.heap a = none) (hnew : newBlocks s s' l = []) :
    Carried s s' l place place :=
  .of_moved (.refl (.free .conn) (.free .conn) place) hsame rfl hheap hnew

/-- A dispatcher takes a block that was not allocated before. -/
theorem Inv.carried_malloc (h : Inv s place) {i : ℕ} {c : Call} (item : ℕ)
    (junk : ℕ → CqItem) (hpc : s.dispatcher i = .grow c)
    (hfree : ∀ j < itemsPerAlloc, s.heap (item + j) = none)
    (hd : s'.dispatcher = Function.update s.dispatcher i (.splice c item))
    (hheap : s'.heap = cqiNewBlock s.heap item junk)
    (hplace : ∀ x, ∀ a ∈ place' x, a ∈ place x ∨ (x = .dispatcher i ∧ a ∈ block item)) :
    Carried s s' (.dispatcher i) place place' := by
  have hnew : newBlocks s s' (.dispatcher i) = [(c.kind, item)] := by
    simp only [newBlocks, hd, hpc, Function.update_self]
  refine ⟨fun x a ha => ?_, fun a => ?_, fun b hb a ha => ?_⟩
  · rw [hnew]
    rcases hplace x a ha with hold | ⟨rfl, hin⟩
    · exact .inl ⟨x, hold, h.ownerKind_eq hd (.inl (by rw [hpc]; rfl)) hold⟩
    · refine .inr ⟨_, List.mem_singleton_self _, hin, ?_⟩
      show (s'.dispatcher i).kind = _
      rw [hd, Function.update_self]
      rfl
  · rw [hnew, hheap]
    by_cases ha : a ∈ block item
    · exact iff_of_true (cqiNewBlock_ne_none ha) (.inr ⟨_, List.mem_singleton_self _, ha⟩)
    · rw [cqiNewBlock_of_notMem ha]
      simp [ha]
  · rw [hnew, List.mem_singleton] at hb
    subst hb
    obtain ⟨hle, hlt⟩ := mem_block.mp ha
    have hj := hfree (a - item) (by omega)
    rwa [Nat.add_sub_cancel' hle] at hj

/-- Storing into an allocated item allocates nothing. -/
theorem update_eq_none {heap : Heap} {item : ℕ} {old new : CqItem}
    (hitem : heap item = some old) (a : ℕ) :
    Function.update heap item (some new) a = none ↔ heap a = none := by
  by_cases ha : a = item
  · subst ha
    rw [Function.update_self, hitem]
    exact iff_of_false nofun nofun
  · rw [Function.update_of_ne ha]

end Tdm.Thread
