import Tdm.Thread.Workers

/-!
# What the list operations of `thread.c` do

Each operation in terms of the links (`nextOf`) and the messages (`msgOf`) the heap holds:
the operations on lists move links and never a message, a dispatcher's stores make the
message that was asked for, and nothing is undefined on allocated items.
-/

namespace Tdm.Thread

open Tdm.Lib

variable {heap heap' : Heap}

/-- The `next` field of an item. -/
def nextOf (heap : Heap) (a : ℕ) : Option ℕ := (heap a).bind CqItem.next

/-- What the handler of group `k` works on when it gets the item at `a`. -/
def msgOf (k : Kind) (heap : Heap) (a : ℕ) : Option Msg :=
  ((heap a).bind (handle k k.byte)).join

/-! ## Storing a link -/

theorem setNext_eq_some {a : ℕ} {v : Option ℕ} :
    setNext heap a v = some heap' ↔ heap a ≠ none ∧ heap' = writeNext heap a v := by
  unfold setNext
  cases heap a <;> simp [eq_comm]

theorem setNext_eq_none {a : ℕ} {v : Option ℕ} :
    setNext heap a v = none ↔ heap a = none := by
  unfold setNext
  cases heap a <;> simp

theorem writeNext_self (a : ℕ) (v : Option ℕ) :
    writeNext heap a v a = (heap a).map fun item => { item with next := v } :=
  Function.update_self ..

theorem writeNext_of_ne {a b : ℕ} (h : b ≠ a) (v : Option ℕ) :
    writeNext heap a v b = heap b :=
  Function.update_of_ne h _ _

theorem writeNext_eq_none {a b : ℕ} {v : Option ℕ} :
    writeNext heap a v b = none ↔ heap b = none := by
  by_cases hb : b = a
  · subst hb
    rw [writeNext_self, Option.map_eq_none_iff]
  · rw [writeNext_of_ne hb]

theorem nextOf_writeNext {a : ℕ} (ha : heap a ≠ none) (v : Option ℕ) :
    nextOf (writeNext heap a v) = Function.update (nextOf heap) a v := by
  funext b
  obtain ⟨item, hitem⟩ := Option.ne_none_iff_exists'.mp ha
  unfold nextOf
  by_cases hb : b = a
  · subst hb
    rw [writeNext_self, hitem, Function.update_self]
    rfl
  · rw [writeNext_of_ne hb, Function.update_of_ne hb]

/-- A handler does not look at the link of its item. -/
theorem handle_next (k : Kind) (b : UInt8) (item : CqItem) (v : Option ℕ) :
    handle k b { item with next := v } = handle k b item := by
  cases k <;> rfl

theorem msgOf_writeNext (k : Kind) (a : ℕ) (v : Option ℕ) :
    msgOf k (writeNext heap a v) = msgOf k heap := by
  funext b
  unfold msgOf
  by_cases hb : b = a
  · subst hb
    rw [writeNext_self]
    cases heap b with
    | none => rfl
    | some item =>
      show (handle k k.byte { item with next := v }).join = (handle k k.byte item).join
      rw [handle_next]
  · rw [writeNext_of_ne hb]

theorem nextOf_update (heap : Heap) (a : ℕ) (item : CqItem) :
    nextOf (Function.update heap a (some item)) =
      Function.update (nextOf heap) a item.next := by
  funext b
  unfold nextOf
  by_cases hb : b = a
  · subst hb
    simp
  · simp [Function.update_of_ne hb]

/-! ## A fresh block -/

/-- The loop of `cqi_new_base` after `n` turns: items `1` to `n` point at their neighbour. -/
theorem linkLoop (heap : Heap) (item n a : ℕ) :
    (List.range' 2 n).foldl
        (fun heap i => writeNext heap (item + (i - 1)) (some (item + i))) heap a =
      if item + 1 ≤ a ∧ a ≤ item + n then
        (heap a).map fun old => { old with next := some (a + 1) }
      else heap a := by
  induction n with
  | zero =>
    rw [if_neg (show ¬ (item + 1 ≤ a ∧ a ≤ item + 0) by omega)]
    rfl
  | succ n ih =>
    rw [List.range'_1_concat, List.foldl_append, List.foldl_cons, List.foldl_nil]
    -- the last turn stores into item `n + 1`, which no turn before it touched
    have hturn : item + (2 + n - 1) = item + (n + 1) := by omega
    rw [hturn]
    by_cases ha : a = item + (n + 1)
    · subst ha
      rw [writeNext_self, ih, if_neg (by omega), if_pos (by omega)]
      have hnext : item + (2 + n) = item + (n + 1) + 1 := by omega
      rw [hnext]
    · rw [writeNext_of_ne ha, ih]
      by_cases hn : item + 1 ≤ a ∧ a ≤ item + n
      · rw [if_pos hn, if_pos (by omega)]
      · rw [if_neg hn, if_neg (by omega)]

/-- The addresses of a block. -/
def block (item : ℕ) : List ℕ := List.range' item itemsPerAlloc

theorem mem_block {item a : ℕ} : a ∈ block item ↔ item ≤ a ∧ a < item + itemsPerAlloc := by
  unfold block
  rw [List.mem_range'_1]

theorem block_nodup (item : ℕ) : (block item).Nodup := List.nodup_range'

theorem block_eq_cons (item : ℕ) :
    block item = [item] ++ List.range' (item + 1) (itemsPerAlloc - 1) := by
  show List.range' item (127 + 1) = [item] ++ List.range' (item + 1) 127
  rw [List.range'_succ, List.singleton_append]

theorem cqiNewBlock_of_notMem {item a : ℕ} {junk : ℕ → CqItem} (ha : a ∉ block item) :
    cqiNewBlock heap item junk a = heap a := by
  rw [mem_block] at ha
  have hlast : a ≤ item + (itemsPerAlloc - 2) → a < item + itemsPerAlloc := by
    unfold itemsPerAlloc
    omega
  unfold cqiNewBlock
  rw [linkLoop, if_neg (by omega), if_neg ha]

theorem cqiNewBlock_ne_none {item a : ℕ} {junk : ℕ → CqItem} (ha : a ∈ block item) :
    cqiNewBlock heap item junk a ≠ none := by
  rw [mem_block] at ha
  unfold cqiNewBlock
  rw [linkLoop, if_pos ha]
  split <;> simp

/-- All items of a block but the first and the last point at their neighbour. -/
theorem nextOf_cqiNewBlock {item a : ℕ} {junk : ℕ → CqItem} (ha : item < a)
    (hlast : a + 1 < item + itemsPerAlloc) :
    nextOf (cqiNewBlock heap item junk) a = some (a + 1) := by
  have hpos : item + 1 ≤ a ∧ a ≤ item + (itemsPerAlloc - 2) := by omega
  have hin : item ≤ a ∧ a < item + itemsPerAlloc := by omega
  unfold nextOf cqiNewBlock
  rw [linkLoop, if_pos hpos, if_pos hin]
  rfl

/-! ## The free lists and the queues -/

theorem cqiNewPop_eq_some {list list' item : Option ℕ}
    (h : cqiNewPop heap list = some (list', item)) :
    item = list ∧ list' = list.bind (nextOf heap) := by
  unfold cqiNewPop at h
  split at h
  · simp only [Option.some.injEq, Prod.mk.injEq] at h
    exact ⟨h.2.symm, h.1.symm⟩
  · rename_i a
    split at h
    · cases h
    · rename_i it hit
      simp only [Option.some.injEq, Prod.mk.injEq] at h
      refine ⟨h.2.symm, ?_⟩
      rw [← h.1, Option.bind_some, nextOf, hit, Option.bind_some]

theorem cqiNewPop_eq_none {list : Option ℕ} (h : cqiNewPop heap list = none) :
    ∃ a, list = some a ∧ heap a = none := by
  unfold cqiNewPop at h
  split at h
  · cases h
  · rename_i a
    split at h
    · exact ⟨a, rfl, by assumption⟩
    · cases h

theorem cqiNewSplice_eq_some {list list' : Option ℕ} {item : ℕ}
    (h : cqiNewSplice heap list item = some (heap', list')) :
    heap' = writeNext heap (item + (itemsPerAlloc - 1)) list ∧ list' = some (item + 1) := by
  unfold cqiNewSplice at h
  split at h
  · cases h
  · rename_i hset
    simp only [Option.some.injEq, Prod.mk.injEq] at h
    rw [← h.1, ← h.2]
    exact ⟨(setNext_eq_some.mp hset).2, rfl⟩

theorem cqiNewSplice_eq_none {list : Option ℕ} {item : ℕ}
    (h : cqiNewSplice heap list item = none) : heap (item + (itemsPerAlloc - 1)) = none := by
  unfold cqiNewSplice at h
  split at h
  · exact setNext_eq_none.mp (by assumption)
  · cases h

theorem cqiNewSplice_of_live {list : Option ℕ} {item : ℕ}
    (h : heap (item + (itemsPerAlloc - 1)) ≠ none) :
    cqiNewSplice heap list item =
      some (writeNext heap (item + (itemsPerAlloc - 1)) list, some (item + 1)) := by
  unfold cqiNewSplice
  rw [setNext_eq_some.mpr ⟨h, rfl⟩]

theorem cqiFreeBase_eq_some {list list' : Option ℕ} {item : ℕ}
    (h : cqiFreeBase heap list item = some (heap', list')) :
    heap' = writeNext heap item list ∧ list' = some item := by
  unfold cqiFreeBase at h
  split at h
  · cases h
  · rename_i hset
    simp only [Option.some.injEq, Prod.mk.injEq] at h
    rw [← h.1, ← h.2]
    exact ⟨(setNext_eq_some.mp hset).2, rfl⟩

theorem cqiFreeBase_eq_none {list : Option ℕ} {item : ℕ}
    (h : cqiFreeBase heap list item = none) : heap item = none := by
  unfold cqiFreeBase at h
  split at h
  · exact setNext_eq_none.mp (by assumption)
  · cases h

theorem cqPop_eq_some {cq cq' : Cq} {item : Option ℕ}
    (h : cqPop heap cq = some (cq', item)) :
    (cq.head = none ∧ item = none ∧ cq' = cq) ∨
      ∃ a, cq.head = some a ∧ item = some a ∧
        cq' = ⟨nextOf heap a, if nextOf heap a = none then none else cq.tail⟩ := by
  unfold cqPop at h
  split at h
  · rename_i hhead
    simp only [Option.some.injEq, Prod.mk.injEq] at h
    exact Or.inl ⟨hhead, h.2.symm, h.1.symm⟩
  · rename_i a hhead
    split at h
    · cases h
    · rename_i it hit
      simp only [Option.some.injEq, Prod.mk.injEq] at h
      have hnext : nextOf heap a = it.next := by
        rw [nextOf, hit, Option.bind_some]
      exact Or.inr ⟨a, hhead, h.2.symm, by rw [hnext]; exact h.1.symm⟩

theorem cqPop_eq_none {cq : Cq} (h : cqPop heap cq = none) :
    ∃ a, cq.head = some a ∧ heap a = none := by
  unfold cqPop at h
  split at h
  · cases h
  · rename_i a hhead
    split at h
    · exact ⟨a, hhead, by assumption⟩
    · cases h

/-- A push stores `NULL` into the item's link and then links it behind the tail. -/
theorem cqPush_eq_some {cq cq' : Cq} {item : ℕ}
    (h : cqPush heap cq item = some (heap', cq')) :
    cq' = ⟨if cq.tail = none then some item else cq.head, some item⟩ ∧
      (∀ a, heap' a = none ↔ heap a = none) ∧
      (∀ a, nextOf heap' a =
        if cq.tail = some a then some item else Function.update (nextOf heap) item none a) ∧
      (∀ a, a ≠ item → cq.tail ≠ some a → heap' a = heap a) ∧
      ∀ k, msgOf k heap' = msgOf k heap := by
  unfold cqPush at h
  split at h
  · cases h
  · rename_i heap₁ hset
    obtain ⟨hlive, rfl⟩ := setNext_eq_some.mp hset
    split at h
    · rename_i htail
      simp only [Option.some.injEq, Prod.mk.injEq] at h
      obtain ⟨rfl, rfl⟩ := h
      refine ⟨by simp [htail], fun a => writeNext_eq_none, fun a => ?_,
        fun a ha _ => writeNext_of_ne ha _, fun k => ?_⟩
      · rw [htail, if_neg (by simp), nextOf_writeNext hlive]
      · exact msgOf_writeNext k item none
    · rename_i t htail
      split at h
      · cases h
      · rename_i heap₂ hset₂
        obtain ⟨hlive₂, rfl⟩ := setNext_eq_some.mp hset₂
        simp only [Option.some.injEq, Prod.mk.injEq] at h
        obtain ⟨rfl, rfl⟩ := h
        refine ⟨by simp [htail], fun a => ?_, fun a => ?_, fun a ha hat => ?_, fun k => ?_⟩
        · rw [writeNext_eq_none, writeNext_eq_none]
        · rw [nextOf_writeNext hlive₂, nextOf_writeNext hlive, htail, Function.update_apply]
          simp only [Option.some.injEq, eq_comm]
        · have hne : a ≠ t := by
            rintro rfl
            exact hat htail
          rw [writeNext_of_ne hne, writeNext_of_ne ha]
        · rw [msgOf_writeNext, msgOf_writeNext]

theorem cqPush_eq_none {cq : Cq} {item : ℕ} (h : cqPush heap cq item = none) :
    heap item = none ∨ ∃ t, cq.tail = some t ∧ heap t = none := by
  unfold cqPush at h
  split at h
  · exact Or.inl (setNext_eq_none.mp (by assumption))
  · rename_i heap₁ hset
    obtain ⟨-, rfl⟩ := setNext_eq_some.mp hset
    split at h
    · cases h
    · rename_i t htail
      split at h
      · rename_i hnone
        rw [setNext_eq_none, writeNext_eq_none] at hnone
        exact Or.inr ⟨t, htail, hnone⟩
      · cases h

/-! ## Messages -/

/-- A text copied over zeros reads back as itself. -/
theorem Text.cstr_overlay (text : Text) :
    ((CArray.zero dataBufferSize).overlay text.bytes (Nat.le_of_lt text.fits)).cstr =
      some text.bytes := by
  rw [CArray.cstr_zero_overlay, if_pos (.inl text.fits), CArray.takeWhile_of_notMem text.noNul]

/-- A zeroed item that a call has filled holds the message of the call. -/
theorem handle_fill (c : Call) :
    handle c.kind c.kind.byte (c.fill CqItem.zero) = some (some c.msg) := by
  cases c with
  | dispatchConnNew sfd initState eventFlags => rfl
  | connNewFuncWorker buff =>
    have htext : (Call.fill (.connNewFuncWorker buff) CqItem.zero).buff.cstr =
        some buff.bytes := buff.cstr_overlay
    simp only [Call.kind, handle, if_pos, htext, Option.map_some, Call.msg]

end Tdm.Thread
