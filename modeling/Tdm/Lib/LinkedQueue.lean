import Mathlib.Logic.Function.Basic
import Mathlib.Data.List.Basic
import Mathlib.Data.List.Nodup

/-!
# Singly linked lists and head/tail queues

The shape behind a C list threaded through a `next` field. The heap appears only as the
function `next` reading that field, so the lemmas serve any record type that has one.

* `Chain next p as`: following `next` from `p` visits exactly the cells `as` and then
  meets `NULL`;
* `LinkedQueue next head tail as`: a chain from `head` whose last cell is `tail`;
* the rules for linking a fresh cell behind the tail and unlinking the head.
-/

namespace Tdm.Lib

variable {α : Type*}

/-- Following `next` from `p` visits `as` in order and ends at `NULL`. -/
def Chain (next : α → Option α) : Option α → List α → Prop
  | p, [] => p = none
  | p, a :: as => p = some a ∧ Chain next (next a) as

@[simp] theorem chain_nil (next : α → Option α) (p : Option α) :
    Chain next p [] ↔ p = none := Iff.rfl

@[simp] theorem chain_cons (next : α → Option α) (p : Option α) (a : α) (as : List α) :
    Chain next p (a :: as) ↔ p = some a ∧ Chain next (next a) as := Iff.rfl

/-- A chain only reads `next` at its own cells. -/
theorem Chain.congr {next next' : α → Option α} :
    ∀ {p : Option α} {as : List α}, (∀ a ∈ as, next' a = next a) →
      Chain next p as → Chain next' p as
  | _, [], _, h => h
  | _, a :: as, hag, h => by
    refine ⟨h.1, ?_⟩
    rw [hag a (List.mem_cons_self ..)]
    exact Chain.congr (fun x hx => hag x (List.mem_cons_of_mem _ hx)) h.2

/-- A chain's start is the head of the list it visits. -/
theorem Chain.start_eq {next : α → Option α} {p : Option α} {as : List α}
    (h : Chain next p as) : p = as.head? := by
  cases as with
  | nil => exact h
  | cons a as => exact h.1

/-- Two chains from one start visit the same cells. -/
theorem Chain.unique {next : α → Option α} :
    ∀ {p : Option α} {as bs : List α}, Chain next p as → Chain next p bs → as = bs
  | _, [], [], _, _ => rfl
  | _, [], b :: bs, ha, hb => by rw [ha] at hb; exact absurd hb.1 (by simp)
  | _, a :: as, [], ha, hb => by rw [hb] at ha; exact absurd ha.1 (by simp)
  | _, a :: as, b :: bs, ha, hb => by
    have hab : a = b := by
      have := ha.1.symm.trans hb.1
      exact Option.some.inj this
    subst hab
    rw [Chain.unique ha.2 hb.2]

/-- Consecutive cells that each point at their neighbour, the last one at `p`, form a chain
in front of the chain from `p`. -/
theorem Chain.range_append {next : ℕ → Option ℕ} {p : Option ℕ} {as : List ℕ}
    (h : Chain next p as) :
    ∀ (n a : ℕ), (∀ b, a ≤ b → b < a + n → next b = some (b + 1)) → next (a + n) = p →
      Chain next (some a) (List.range' a (n + 1) ++ as)
  | 0, a, _, hlast => by
    refine ⟨rfl, ?_⟩
    rw [show next a = p from hlast]
    exact h
  | n + 1, a, hstep, hlast => by
    rw [List.range'_succ, List.cons_append]
    refine ⟨rfl, ?_⟩
    rw [hstep a (Nat.le_refl a) (by omega)]
    apply Chain.range_append h n (a + 1)
    · intro b hb hlt
      exact hstep b (by omega) (by omega)
    · rw [← hlast]
      congr 1
      omega

section Link
variable [DecidableEq α]

/-- Storing into the `next` field of a cell outside the chain leaves the chain alone. -/
theorem Chain.update_of_notMem {next : α → Option α} {p : Option α} {as : List α}
    {c : α} {v : Option α} (hc : c ∉ as) (h : Chain next p as) :
    Chain (Function.update next c v) p as := by
  refine h.congr fun a ha => ?_
  have hac : a ≠ c := fun he => hc (he ▸ ha)
  exact Function.update_of_ne hac _ _

/-- Pointing the last cell of a chain at a cell whose own `next` is `NULL` lengthens the
chain by that cell. -/
theorem Chain.link_last {next : α → Option α} {a : α} (hnext : next a = none) :
    ∀ {p : Option α} {as : List α} {t : α}, Chain next p as → (a ∉ as) → as.Nodup →
      as.getLast? = some t → Chain (Function.update next t (some a)) p (as ++ [a])
  | _, [], _, _, _, _, ht => by simp at ht
  | _, [b], t, h, hmem, _, ht => by
    obtain rfl : b = t := by simpa using ht
    have hab : a ≠ b := by simpa using hmem
    refine ⟨h.1, ?_⟩
    rw [Function.update_self]
    exact ⟨rfl, by rw [Function.update_of_ne hab]; exact hnext⟩
  | _, b :: c :: as, t, h, hmem, hnd, ht => by
    have hlast : (c :: as).getLast? = some t := by
      simpa [List.getLast?_cons_cons] using ht
    have htm : t ∈ c :: as := List.mem_of_getLast? hlast
    have hbt : b ≠ t := fun he => (List.nodup_cons.mp hnd).1 (he ▸ htm)
    refine ⟨h.1, ?_⟩
    rw [Function.update_of_ne hbt]
    exact Chain.link_last hnext h.2 (fun hm => hmem (List.mem_cons_of_mem _ hm))
      (List.nodup_cons.mp hnd).2 hlast

end Link

/-- A queue held by a head and a tail pointer: the chain from `head` visits `as`, and
`tail` is its last cell (both `NULL` when `as` is empty). -/
structure LinkedQueue (next : α → Option α) (head tail : Option α) (as : List α) :
    Prop where
  chain : Chain next head as
  last : tail = as.getLast?

namespace LinkedQueue

variable {next : α → Option α} {head tail : Option α} {as : List α}

theorem empty (next : α → Option α) : LinkedQueue next none none [] :=
  ⟨rfl, rfl⟩

theorem congr {next' : α → Option α} (hag : ∀ a ∈ as, next' a = next a)
    (h : LinkedQueue next head tail as) : LinkedQueue next' head tail as :=
  ⟨h.chain.congr hag, h.last⟩

theorem head_eq_none_iff (h : LinkedQueue next head tail as) : head = none ↔ as = [] := by
  rw [h.chain.start_eq, List.head?_eq_none_iff]

theorem tail_eq_none_iff (h : LinkedQueue next head tail as) : tail = none ↔ as = [] := by
  rw [h.last, List.getLast?_eq_none_iff]

/-- A queue that is not empty names its first cell. -/
theorem exists_of_head {a : α} (h : LinkedQueue next (some a) tail as) :
    ∃ rest, as = a :: rest ∧ Chain next (next a) rest := by
  cases as with
  | nil => exact absurd h.chain (by simp)
  | cons b rest =>
    obtain rfl : a = b := Option.some.inj h.chain.1
    exact ⟨rest, rfl, h.chain.2⟩

/-- Unlinking the head. The tail pointer is reset exactly when the last cell leaves. -/
theorem pop {a : α} {rest : List α} (h : LinkedQueue next head tail (a :: rest)) :
    LinkedQueue next (next a) (if rest = [] then none else tail) rest := by
  refine ⟨h.chain.2, ?_⟩
  rw [h.last]
  cases rest with
  | nil => rfl
  | cons b rest => simp [List.getLast?_cons_cons]

/-- The first cell of an empty queue. -/
theorem push_empty {a : α} (h : LinkedQueue next head tail as) (hempty : as = [])
    (hnext : next a = none) : LinkedQueue next (some a) (some a) (as ++ [a]) := by
  subst hempty
  exact ⟨⟨rfl, hnext⟩, rfl⟩

/-- Linking a cell behind the tail of a queue that is not empty. -/
theorem push [DecidableEq α] {a t : α} (h : LinkedQueue next head (some t) as) (hnd : as.Nodup)
    (hmem : a ∉ as) (hnext : next a = none) :
    LinkedQueue (Function.update next t (some a)) head (some a) (as ++ [a]) :=
  ⟨h.chain.link_last hnext hmem hnd h.last.symm, by simp⟩

end LinkedQueue
end Tdm.Lib
