import Tdm.Lib.System
import Mathlib.Data.List.Basic

/-!
# The bounded first-in-first-out queue

The abstract machine a queue implementation is compared with. Its state remembers, next
to the contents, everything that was ever accepted and everything that was ever
delivered, so that "nothing is lost, duplicated or reordered" is the one equation
`accepted = delivered ++ content` (`Fifo.bounded_reachable`).
-/

namespace Tdm.Lib

/-- A first-in-first-out queue with its history. -/
@[ext] structure Fifo (β : Type*) where
  content : List β
  accepted : List β
  delivered : List β

namespace Fifo

variable {β : Type*}

/-- The queue nothing was ever put into. -/
def empty : Fifo β := ⟨[], [], []⟩

def enqueue (q : Fifo β) (b : β) : Fifo β :=
  { q with content := q.content ++ [b], accepted := q.accepted ++ [b] }

/-- The two things a bounded queue does. -/
inductive Step (cap : ℕ) : Fifo β → Option β → Fifo β → Prop
  | enqueue (q : Fifo β) (b : β) (h : q.content.length < cap) :
      Step cap q (some b) (q.enqueue b)
  | dequeue (q : Fifo β) (b : β) (rest : List β) (h : q.content = b :: rest) :
      Step cap q none { q with content := rest, delivered := q.delivered ++ [b] }

/-- The bounded queue of capacity `cap` as a transition system. -/
def bounded (β : Type*) (cap : ℕ) : System (Fifo β) (Option β) where
  init q := q = empty
  step := Step cap

/-- What a bounded queue holds is what it accepted and has not delivered yet, and it
never holds more than its capacity. -/
theorem bounded_reachable {cap : ℕ} {q : Fifo β} (h : (bounded β cap).Reachable q) :
    q.accepted = q.delivered ++ q.content ∧ q.content.length ≤ cap := by
  refine h.invariant (I := fun q => q.accepted = q.delivered ++ q.content ∧
    q.content.length ≤ cap) (fun q hq => ?_) (fun q a q' _ hi hs => ?_)
  · subst hq
    exact ⟨rfl, Nat.zero_le _⟩
  · obtain ⟨hacc, hlen⟩ := hi
    cases hs with
    | enqueue b hcap =>
      refine ⟨?_, ?_⟩
      · simp only [Fifo.enqueue, hacc, List.append_assoc]
      · simp only [Fifo.enqueue, List.length_append, List.length_singleton]
        omega
    | dequeue b rest hb =>
      refine ⟨?_, ?_⟩
      · simp only [hacc, hb, List.append_assoc, List.singleton_append]
      · rw [hb, List.length_cons] at hlen
        simp only
        omega

/-- Deliveries come in the order of acceptance, without gaps. -/
theorem bounded_delivered_prefix {cap : ℕ} {q : Fifo β}
    (h : (bounded β cap).Reachable q) : q.delivered <+: q.accepted :=
  ⟨q.content, (bounded_reachable h).1.symm⟩

end Fifo
end Tdm.Lib
