import Mathlib.Logic.Function.Basic
import Mathlib.Data.List.Basic
import Mathlib.Data.List.Nodup

/-!
# Circular doubly linked lists

The list of the kernel's `list.h`: an anchor and the elements each hold a pointer to their
successor and one to their predecessor, and the last element points back at the anchor.
The memory appears only as the two functions that read these pointers.

* `CircularList next prev as`: the elements are `as`, in this order, in both directions;
* `search`: the loop of `list_for_each` with an early exit;
* the rule for linking a fresh element in front of the anchor, that is, at the tail.
-/

namespace Tdm.Lib

variable {α : Type*}

/-- What a link can point at. -/
inductive Link (α : Type*)
  | null
  | anchor
  | elem (a : α)
deriving DecidableEq

/-! ## Paths -/

/-- Following `next` from `p` visits the elements `as` and then arrives at `q`. -/
def Path (next : Link α → Link α) : Link α → List α → Link α → Prop
  | p, [], q => next p = q
  | p, a :: as, q => next p = .elem a ∧ Path next (.elem a) as q

/-- The last place a path from `p` through `as` leaves from. -/
def endOf (p : Link α) : List α → Link α
  | [] => p
  | a :: as => endOf (.elem a) as

theorem endOf_append_singleton (p : Link α) (as : List α) (b : α) :
    endOf p (as ++ [b]) = .elem b := by
  induction as generalizing p with
  | nil => rfl
  | cons a as ih => exact ih (.elem a)

theorem endOf_ne_elem {p : Link α} {as : List α} {b : α} (hp : p ≠ .elem b) (hb : b ∉ as) :
    endOf p as ≠ .elem b := by
  induction as generalizing p with
  | nil => exact hp
  | cons a as ih =>
    rw [List.mem_cons, not_or] at hb
    apply ih _ hb.2
    intro h
    exact hb.1 (Link.elem.inj h).symm

/-- A path depends on where its start leads to and on the links of its elements. -/
theorem Path.transport {next next' : Link α → Link α} {p p' q : Link α} {as : List α}
    (h : Path next p as q) (hstart : next' p' = next p)
    (hag : ∀ a ∈ as, next' (.elem a) = next (.elem a)) : Path next' p' as q := by
  induction as generalizing p p' with
  | nil => exact hstart.trans h
  | cons a as ih =>
    refine ⟨hstart.trans h.1, ?_⟩
    apply ih h.2 (hag a (List.mem_cons_self ..))
    intro b hb
    exact hag b (List.mem_cons_of_mem _ hb)

theorem Path.append_singleton {next : Link α → Link α} {p q : Link α} {as : List α} {b : α}
    (h : Path next p as (.elem b)) (hb : next (.elem b) = q) : Path next p (as ++ [b]) q := by
  induction as generalizing p with
  | nil => exact ⟨h, hb⟩
  | cons a as ih => exact ⟨h.1, ih h.2⟩

/-- Redirecting the last link of a path redirects the path. -/
theorem Path.redirect [DecidableEq α] {next : Link α → Link α} {p q : Link α} {as : List α}
    (h : Path next p as q) (hp : ∀ a ∈ as, p ≠ .elem a) (hnd : as.Nodup) (q' : Link α) :
    Path (Function.update next (endOf p as) q') p as q' := by
  induction as generalizing p with
  | nil => exact Function.update_self p q' next
  | cons a as ih =>
    rw [List.nodup_cons] at hnd
    refine ⟨?_, ih h.2 ?_ hnd.2⟩
    · -- the redirected link is further down the path than `p`
      have hne : p ≠ endOf (.elem a) as := by
        intro he
        cases hs : as.reverse with
        | nil =>
          rw [List.reverse_eq_nil_iff.mp hs] at he
          exact hp a (List.mem_cons_self ..) he
        | cons b bs =>
          have has : as = bs.reverse ++ [b] := by
            rw [← List.reverse_reverse as, hs, List.reverse_cons]
          rw [has, endOf_append_singleton] at he
          apply hp b _ he
          rw [has]
          simp
      show Function.update next (endOf (.elem a) as) q' p = .elem a
      rw [Function.update_of_ne hne]
      exact h.1
    · intro b hb he
      rw [Link.elem.inj he] at hnd
      exact hnd.1 hb

/-! ## The list -/

/-- The elements from the anchor on are `as`, read forwards and read backwards. -/
structure CircularList (next prev : Link α → Link α) (as : List α) : Prop where
  forward : Path next .anchor as .anchor
  backward : Path prev .anchor as.reverse .anchor
  nodup : as.Nodup

/-- `list_for_each` with the early exit `found`: the element found, or that the anchor was
reached. There is no result when the walk leaves the list or does not end within `fuel`
steps. -/
def search (next : Link α → Link α) (found : α → Option Bool) : ℕ → Link α → Option (Option α)
  | 0, _ => none
  | _ + 1, .null => none
  | _ + 1, .anchor => some none
  | fuel + 1, .elem a =>
    match found a with
    | none => none
    | some true => some (some a)
    | some false => search next found fuel (next (.elem a))

/-- Along a path back to the anchor the walk finds what `List.find?` finds. -/
theorem Path.search_eq {next : Link α → Link α} {p : Link α} {as : List α}
    (h : Path next p as .anchor) {found : α → Option Bool} {f : α → Bool}
    (hf : ∀ a ∈ as, found a = some (f a)) {fuel : ℕ} (hfuel : as.length < fuel) :
    search next found fuel (next p) = some (as.find? f) := by
  induction as generalizing p fuel with
  | nil =>
    obtain ⟨k, rfl⟩ : ∃ k, fuel = k + 1 := ⟨fuel - 1, by simp at hfuel; omega⟩
    rw [show next p = .anchor from h]
    rfl
  | cons a as ih =>
    obtain ⟨k, rfl⟩ : ∃ k, fuel = k + 1 := ⟨fuel - 1, by simp at hfuel; omega⟩
    rw [h.1, search, hf a (List.mem_cons_self ..), List.find?_cons]
    cases hfa : f a with
    | true => rfl
    | false =>
      apply ih h.2 (fun b hb => hf b (List.mem_cons_of_mem _ hb))
      simp at hfuel
      omega

/-- The successors after `__list_add(b, anchor->prev, anchor)`. -/
def addTailNext [DecidableEq α] (next prev : Link α → Link α) (b : α) : Link α → Link α :=
  Function.update (Function.update next (.elem b) .anchor) (prev .anchor) (.elem b)

/-- The predecessors after `__list_add(b, anchor->prev, anchor)`. -/
def addTailPrev [DecidableEq α] (prev : Link α → Link α) (b : α) : Link α → Link α :=
  Function.update (Function.update prev .anchor (.elem b)) (.elem b) (prev .anchor)

namespace CircularList

variable {next prev : Link α → Link α} {as : List α}

theorem nil (hnext : next .anchor = .anchor) (hprev : prev .anchor = .anchor) :
    CircularList next prev [] where
  forward := hnext
  backward := hprev
  nodup := List.nodup_nil

/-- The predecessor of the anchor is the last element. -/
theorem prev_anchor (h : CircularList next prev as) : prev .anchor = endOf .anchor as := by
  have hb := h.backward
  cases hs : as.reverse with
  | nil =>
    rw [List.reverse_eq_nil_iff.mp hs] at hb ⊢
    exact hb
  | cons b bs =>
    have has : as = bs.reverse ++ [b] := by
      rw [← List.reverse_reverse as, hs, List.reverse_cons]
    rw [hs] at hb
    rw [has, endOf_append_singleton]
    exact hb.1

/-- Linking a fresh element in front of the anchor appends it. -/
theorem addTail [DecidableEq α] (h : CircularList next prev as) {b : α} (hb : b ∉ as) :
    CircularList (addTailNext next prev b) (addTailPrev prev b) (as ++ [b]) := by
  have hanchor : ∀ a : α, Link.anchor ≠ .elem a := fun _ => nofun
  have helem : ∀ a ∈ as, Link.elem a ≠ .elem b := by
    rintro a ha ⟨⟩
    exact hb ha
  have hend : Link.elem b ≠ endOf .anchor as := (endOf_ne_elem (hanchor b) hb).symm
  constructor
  · -- the old last element, or the anchor, now leads to `b` and `b` to the anchor
    rw [addTailNext, h.prev_anchor]
    apply Path.append_singleton
    · apply Path.redirect _ (fun a _ => hanchor a) h.nodup (q := .anchor)
      apply h.forward.transport
      · exact Function.update_of_ne (hanchor b) ..
      · intro a ha
        exact Function.update_of_ne (helem a ha) ..
    · rw [Function.update_of_ne hend, Function.update_self]
  · rw [List.reverse_append]
    refine ⟨?_, ?_⟩
    · show addTailPrev prev b .anchor = .elem b
      rw [addTailPrev, Function.update_of_ne (hanchor b), Function.update_self]
    · apply h.backward.transport
      · exact Function.update_self ..
      · intro a ha
        rw [addTailPrev, Function.update_of_ne (helem a (List.mem_reverse.mp ha)),
          Function.update_of_ne (hanchor a).symm]
  · rw [List.nodup_append]
    refine ⟨h.nodup, List.nodup_singleton b, ?_⟩
    intro a ha c hc hac
    rw [List.mem_singleton] at hc
    rw [hac, hc] at ha
    exact hb ha

end CircularList
end Tdm.Lib
