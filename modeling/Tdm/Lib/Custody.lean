import Tdm.Lib.LinkedQueue
import Mathlib.Data.List.Perm.Basic

/-!
# Cells with exactly one owner

A program that recycles list cells moves each of them between a few places: a free list, a
queue, the local variable of the thread that is working on it. `Custody` says that every
live cell is in exactly one place and that every place is in order: a free list is a
`NULL`-terminated stack, a queue has a head and a tail, and a thread's hands hold just the
cells it knows. The rules below move cells: `pop_stack`, `pop_queue`, `push_stack`,
`push_queue`, `splice`, `alloc` and `write`, all instances of `transfer`.
-/

namespace Tdm.Lib

variable {α ω : Type*}

/-- What the program keeps to find the cells of one place. -/
inductive Anchor (α : Type*)
  | stack (head : Option α)
  | queue (head tail : Option α)
  | hands (cells : List α)

/-- The cells found from an anchor are `l`, in this order. -/
def Anchor.Holds (next : α → Option α) : Anchor α → List α → Prop
  | .stack head, l => Chain next head l
  | .queue head tail, l => LinkedQueue next head tail l
  | .hands cells, l => l = cells

theorem Anchor.Holds.congr {next next' : α → Option α} {A : Anchor α} {l : List α}
    (h : A.Holds next l) (hag : ∀ a ∈ l, next' a = next a) : A.Holds next' l := by
  cases A with
  | stack head => exact Chain.congr hag h
  | queue head tail => exact LinkedQueue.congr hag h
  | hands cells => exact h

/-- Every live cell is in exactly one of the places `ω`. -/
structure Custody (next : α → Option α) (live : α → Prop) (anchor : ω → Anchor α)
    (place : ω → List α) : Prop where
  holds : ∀ o, (anchor o).Holds next (place o)
  nodup : ∀ o, (place o).Nodup
  disjoint : ∀ o o' a, a ∈ place o → a ∈ place o' → o = o'
  live : ∀ a, live a ↔ ∃ o, a ∈ place o

namespace Custody

variable {next next' : α → Option α} {live : α → Prop} {anchor : ω → Anchor α}
  {place : ω → List α}

theorem hands_eq (h : Custody next live anchor place) {o : ω} {cells : List α}
    (ho : anchor o = .hands cells) : place o = cells := by
  have hold := h.holds o
  rw [ho] at hold
  exact hold

theorem stack_chain (h : Custody next live anchor place) {o : ω} {head : Option α}
    (ho : anchor o = .stack head) : Chain next head (place o) := by
  have hold := h.holds o
  rw [ho] at hold
  exact hold

theorem linkedQueue (h : Custody next live anchor place) {o : ω} {head tail : Option α}
    (ho : anchor o = .queue head tail) : LinkedQueue next head tail (place o) := by
  have hold := h.holds o
  rw [ho] at hold
  exact hold

theorem live_of_mem (h : Custody next live anchor place) {o : ω} {a : α}
    (ha : a ∈ place o) : live a :=
  (h.live a).mpr ⟨o, ha⟩

theorem congr_live (h : Custody next live anchor place) (live' : α → Prop)
    (hlive : ∀ a, live' a ↔ live a) : Custody next live' anchor place :=
  { h with live := fun a => (hlive a).trans (h.live a) }

/-- Storing into the links of cells in somebody's hands disturbs no place. -/
theorem write (h : Custody next live anchor place) {o : ω} {cells : List α}
    (ho : anchor o = .hands cells) (hnext : ∀ a, a ∉ cells → next' a = next a) :
    Custody next' live anchor place := by
  refine { h with holds := fun x => ?_ }
  by_cases hx : x = o
  · subst hx
    rw [ho]
    exact h.hands_eq ho
  · apply (h.holds x).congr
    intro a ha
    apply hnext
    intro hmem
    rw [← h.hands_eq ho] at hmem
    exact hx (h.disjoint x o a ha hmem)

/-- What is somewhere afterwards was there before, or has come from `o` to `o'`. -/
def Moved (o o' : ω) (place place' : ω → List α) : Prop :=
  ∀ x, ∀ a ∈ place' x, a ∈ place x ∨ (x = o' ∧ a ∈ place o)

theorem Moved.refl (o o' : ω) (place : ω → List α) : Moved o o' place place :=
  fun _ _ ha => .inl ha

variable [DecidableEq ω]

theorem moved_update {o o' : ω} {place : ω → List α} {l l' : List α}
    (hl : ∀ a ∈ l, a ∈ place o) (hl' : ∀ a ∈ l', a ∈ place o ∨ a ∈ place o') :
    Moved o o' place (Function.update (Function.update place o l) o' l') := by
  intro x a ha
  by_cases hx' : x = o'
  · subst hx'
    rw [Function.update_self] at ha
    rcases hl' a ha with h | h
    · exact .inr ⟨rfl, h⟩
    · exact .inl h
  · rw [Function.update_of_ne hx'] at ha
    by_cases hx : x = o
    · subst hx
      rw [Function.update_self] at ha
      exact .inl (hl a ha)
    · rw [Function.update_of_ne hx] at ha
      exact .inl ha

theorem moved_head {o o' : ω} {place : ω → List α} {a : α} {rest : List α}
    (ho : place o = a :: rest) :
    Moved o o' place (Function.update (Function.update place o rest) o' [a]) := by
  apply moved_update
  · intro b hb
    rw [ho]
    exact List.mem_cons_of_mem a hb
  · intro b hb
    rw [List.mem_singleton.mp hb, ho]
    exact .inl List.mem_cons_self

/-- Moving the cells `bs` from `o` to `o'`. -/
theorem transfer (h : Custody next live anchor place) {o o' : ω} (hne : o ≠ o')
    (bs : List α) {l l' : List α} (hfrom : (place o).Perm (bs ++ l)) (hto : l'.Perm (bs ++ place o'))
    (hnext : ∀ x, x ≠ o → x ≠ o' → ∀ a ∈ place x, next' a = next a) {A A' : Anchor α}
    (hA : A.Holds next' l) (hA' : A'.Holds next' l') :
    Custody next' live (Function.update (Function.update anchor o A) o' A')
      (Function.update (Function.update place o l) o' l') := by
  have hnd : (bs ++ l).Nodup := hfrom.nodup_iff.mp (h.nodup o)
  have hbs : ∀ a ∈ bs, a ∈ place o := fun a ha =>
    hfrom.mem_iff.mpr (List.mem_append_left _ ha)
  -- a cell that moved is now at `o'` only; the others are where they were
  have hmoved : ∀ x a, a ∈ bs →
      a ∈ Function.update (Function.update place o l) o' l' x → x = o' := by
    intro x a hab hx
    by_contra hxo'
    rw [Function.update_of_ne hxo'] at hx
    by_cases hxo : x = o
    · subst hxo
      rw [Function.update_self] at hx
      exact (List.nodup_append.mp hnd).2.2 a hab a hx rfl
    · rw [Function.update_of_ne hxo] at hx
      exact hxo (h.disjoint x o a hx (hbs a hab))
  have hstayed : ∀ x a, a ∉ bs →
      (a ∈ Function.update (Function.update place o l) o' l' x ↔ a ∈ place x) := by
    intro x a hab
    by_cases hxo' : x = o'
    · subst hxo'
      rw [Function.update_self, hto.mem_iff, List.mem_append]
      exact or_iff_right hab
    · rw [Function.update_of_ne hxo']
      by_cases hxo : x = o
      · subst hxo
        rw [Function.update_self, hfrom.mem_iff, List.mem_append]
        exact (or_iff_right hab).symm
      · rw [Function.update_of_ne hxo]
  refine ⟨fun x => ?_, fun x => ?_, fun x y a hx hy => ?_, fun a => ?_⟩
  · by_cases hxo' : x = o'
    · subst hxo'
      simp only [Function.update_self]
      exact hA'
    · by_cases hxo : x = o
      · subst hxo
        simp only [Function.update_of_ne hxo', Function.update_self]
        exact hA
      · simp only [Function.update_of_ne hxo', Function.update_of_ne hxo]
        exact (h.holds x).congr (hnext x hxo hxo')
  · by_cases hxo' : x = o'
    · subst hxo'
      rw [Function.update_self, hto.nodup_iff]
      refine List.nodup_append.mpr ⟨(List.nodup_append.mp hnd).1, h.nodup _, ?_⟩
      rintro a ha b hb rfl
      exact hne (h.disjoint o x a (hbs a ha) hb)
    · by_cases hxo : x = o
      · subst hxo
        rw [Function.update_of_ne hxo', Function.update_self]
        exact (List.nodup_append.mp hnd).2.1
      · rw [Function.update_of_ne hxo', Function.update_of_ne hxo]
        exact h.nodup x
  · by_cases hab : a ∈ bs
    · rw [hmoved x a hab hx, hmoved y a hab hy]
    · exact h.disjoint x y a ((hstayed x a hab).mp hx) ((hstayed y a hab).mp hy)
  · rw [h.live a]
    by_cases hab : a ∈ bs
    · refine iff_of_true ⟨o, hbs a hab⟩ ⟨o', ?_⟩
      rw [Function.update_self, hto.mem_iff]
      exact List.mem_append_left _ hab
    · exact exists_congr fun x => (hstayed x a hab).symm

/-- Fresh cells come into empty hands. -/
theorem alloc (h : Custody next live anchor place) {o : ω} (ho : anchor o = .hands [])
    {bs : List α} (hnd : bs.Nodup) (hfresh : ∀ a ∈ bs, ¬ live a) (next' : α → Option α)
    (hnext : ∀ a, a ∉ bs → next' a = next a) :
    Custody next' (fun a => live a ∨ a ∈ bs) (Function.update anchor o (.hands bs))
      (Function.update place o bs) := by
  have hempty := h.hands_eq ho
  have hmem : ∀ x a, a ∈ Function.update place o bs x ↔ (x = o ∧ a ∈ bs) ∨ a ∈ place x := by
    intro x a
    by_cases hx : x = o
    · subst hx
      simp [hempty]
    · simp [hx]
  refine ⟨fun x => ?_, fun x => ?_, fun x y a hx hy => ?_, fun a => ?_⟩
  · by_cases hx : x = o
    · subst hx
      simp only [Function.update_self]
      exact rfl
    · simp only [Function.update_of_ne hx]
      apply (h.holds x).congr
      intro a ha
      exact hnext a fun hab => hfresh a hab (h.live_of_mem ha)
  · by_cases hx : x = o
    · subst hx
      rwa [Function.update_self]
    · rw [Function.update_of_ne hx]
      exact h.nodup x
  · rcases (hmem x a).mp hx with ⟨hxo, hab⟩ | hold
    · rcases (hmem y a).mp hy with ⟨hyo, -⟩ | hold'
      · rw [hxo, hyo]
      · exact absurd (h.live_of_mem hold') (hfresh a hab)
    · rcases (hmem y a).mp hy with ⟨-, hab⟩ | hold'
      · exact absurd (h.live_of_mem hold) (hfresh a hab)
      · exact h.disjoint x y a hold hold'
  · rw [h.live a]
    constructor
    · rintro (⟨x, hx⟩ | hab)
      · exact ⟨x, (hmem x a).mpr (Or.inr hx)⟩
      · exact ⟨o, (hmem o a).mpr (Or.inl ⟨rfl, hab⟩)⟩
    · rintro ⟨x, hx⟩
      rcases (hmem x a).mp hx with ⟨-, hab⟩ | hx
      · exact Or.inr hab
      · exact Or.inl ⟨x, hx⟩

/-- Taking the top cell of a stack into empty hands. -/
theorem pop_stack (h : Custody next live anchor place) {o o' : ω} {a : α}
    (ho : anchor o = .stack (some a)) (ho' : anchor o' = .hands []) :
    ∃ rest, place o = a :: rest ∧
      Custody next live
        (Function.update (Function.update anchor o (.stack (next a))) o' (.hands [a]))
        (Function.update (Function.update place o rest) o' [a]) := by
  have hne : o ≠ o' := by
    rintro rfl
    rw [ho] at ho'
    cases ho'
  have hchain := h.stack_chain ho
  cases hl : place o with
  | nil =>
    rw [hl] at hchain
    cases hchain
  | cons b rest =>
    rw [hl] at hchain
    obtain rfl : a = b := Option.some.inj hchain.1
    refine ⟨rest, rfl, h.transfer hne [a] ?_ ?_ (fun _ _ _ _ _ => rfl) hchain.2 rfl⟩
    · rw [hl]
      exact List.Perm.refl _
    · rw [h.hands_eq ho']
      exact List.Perm.refl _

/-- Taking the first cell of a queue into empty hands. The tail is reset when the link of
the cell taken is `NULL`. -/
theorem pop_queue (h : Custody next live anchor place) {o o' : ω} {a : α} {tail : Option α}
    (ho : anchor o = .queue (some a) tail) (ho' : anchor o' = .hands []) :
    ∃ rest, place o = a :: rest ∧
      Custody next live
        (Function.update (Function.update anchor o
          (.queue (next a) (if next a = none then none else tail))) o' (.hands [a]))
        (Function.update (Function.update place o rest) o' [a]) := by
  have hne : o ≠ o' := by
    rintro rfl
    rw [ho] at ho'
    cases ho'
  have hqueue := h.linkedQueue ho
  obtain ⟨rest, hl, hrest⟩ := hqueue.exists_of_head
  rw [hl] at hqueue
  have hend : next a = none ↔ rest = [] := by
    rw [hrest.start_eq, List.head?_eq_none_iff]
  have hpop : LinkedQueue next (next a) (if next a = none then none else tail) rest := by
    simp only [hend]
    exact hqueue.pop
  refine ⟨rest, hl, h.transfer hne [a] ?_ ?_ (fun _ _ _ _ _ => rfl) hpop rfl⟩
  · rw [hl]
    exact List.Perm.refl _
  · rw [h.hands_eq ho']
    exact List.Perm.refl _

/-- Putting cells that are already linked in front of a stack, onto it. -/
theorem splice (h : Custody next live anchor place) {o o' : ω} (kept bs : List α)
    {head head' : Option α} (ho : anchor o = .hands (kept ++ bs))
    (ho' : anchor o' = .stack head)
    (hnext : ∀ a, a ∉ kept ++ bs → next' a = next a)
    (hchain : Chain next' head' (bs ++ place o')) :
    Custody next' live
      (Function.update (Function.update anchor o (.hands kept)) o' (.stack head'))
      (Function.update (Function.update place o kept) o' (bs ++ place o')) := by
  have hne : o ≠ o' := by
    rintro rfl
    rw [ho] at ho'
    cases ho'
  refine h.transfer hne bs ?_ (List.Perm.refl _) (fun x hx _ a ha => ?_) rfl hchain
  · rw [h.hands_eq ho]
    exact List.perm_append_comm
  · apply hnext
    intro hmem
    rw [← h.hands_eq ho] at hmem
    exact hx (h.disjoint x o a ha hmem)

variable [DecidableEq α]

/-- Putting the cell in hand onto a stack. -/
theorem push_stack (h : Custody next live anchor place) {o o' : ω} {a : α}
    {head : Option α} (ho : anchor o = .hands [a]) (ho' : anchor o' = .stack head) :
    Custody (Function.update next a head) live
      (Function.update (Function.update anchor o (.hands [])) o' (.stack (some a)))
      (Function.update (Function.update place o []) o' (a :: place o')) := by
  have hmem : a ∉ place o' := by
    intro ha
    have hin : a ∈ place o := by
      rw [h.hands_eq ho]
      exact List.mem_singleton_self a
    have heq := h.disjoint o o' a hin ha
    rw [heq, ho'] at ho
    cases ho
  apply h.splice [] [a] ho ho'
  · intro b hb
    exact Function.update_of_ne (by simpa using hb) _ _
  · show some a = some a ∧ Chain _ (Function.update next a head a) (place o')
    rw [Function.update_self]
    exact ⟨rfl, (h.stack_chain ho').update_of_notMem hmem⟩

/-- Linking the cell in hand, whose own link is `NULL`, behind the last cell of a queue. -/
theorem push_queue (h : Custody next live anchor place) {o o' : ω} {a : α}
    {head tail : Option α} (ho : anchor o = .hands [a]) (hnull : next a = none)
    (ho' : anchor o' = .queue head tail)
    (hnext : ∀ b, next' b = if tail = some b then some a else next b) :
    Custody next' live
      (Function.update (Function.update anchor o (.hands [])) o'
        (.queue (if tail = none then some a else head) (some a)))
      (Function.update (Function.update place o []) o' (place o' ++ [a])) := by
  have hne : o ≠ o' := by
    rintro rfl
    rw [ho] at ho'
    cases ho'
  have hqueue := h.linkedQueue ho'
  have hmem : a ∉ place o' := by
    intro ha
    refine hne (h.disjoint o o' a ?_ ha)
    rw [h.hands_eq ho]
    exact List.mem_singleton_self a
  refine h.transfer hne [a] ?_ List.perm_append_comm (fun x _ hx b hb => ?_) rfl ?_
  · rw [h.hands_eq ho]
    exact List.Perm.refl _
  · -- the only link stored to is that of the last cell of this very queue
    rw [hnext b, if_neg]
    intro htail
    apply hx
    apply h.disjoint x o' b hb
    rw [hqueue.last] at htail
    exact List.mem_of_getLast? htail
  · cases tail with
    | none =>
      have hsame : next' = next := funext fun b => by simp [hnext b]
      rw [hsame, if_pos rfl]
      exact hqueue.push_empty (hqueue.tail_eq_none_iff.mp rfl) hnull
    | some t =>
      have hsame : next' = Function.update next t (some a) := by
        funext b
        rw [hnext b, Function.update_apply]
        simp only [Option.some.injEq, eq_comm]
      rw [hsame, if_neg (by simp)]
      exact hqueue.push (h.nodup o') hmem hnull

end Custody
end Tdm.Lib
