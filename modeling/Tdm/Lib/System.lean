import Mathlib.Logic.Relation

/-!
# Labelled transition systems

The vocabulary every state machine of this development is written in: a system has
initial states and a labelled step relation, a state is reachable when some run from an
initial state ends in it, and a predicate that holds initially and is kept by every step
holds of every reachable state (`System.Reachable.invariant`). `Simulates` is the forward
simulation that refinement results are stated with: every step of the lower system is
answered by one step of the upper one or by none.
-/

namespace Tdm.Lib

/-- A transition system with states `σ` and step labels `l`. -/
structure System (σ l : Type*) where
  init : σ → Prop
  step : σ → l → σ → Prop

namespace System

variable {σ l : Type*} {M : System σ l}

/-- Some step, whatever its label. -/
def Next (M : System σ l) (s s' : σ) : Prop := ∃ a, M.step s a s'

/-- A state some run from an initial state ends in. -/
def Reachable (M : System σ l) (s : σ) : Prop :=
  ∃ s₀, M.init s₀ ∧ Relation.ReflTransGen M.Next s₀ s

theorem Reachable.start {s : σ} (h : M.init s) : M.Reachable s :=
  ⟨s, h, Relation.ReflTransGen.refl⟩

theorem Reachable.next {s s' : σ} {a : l} (h : M.Reachable s) (hs : M.step s a s') :
    M.Reachable s' := by
  obtain ⟨s₀, h₀, hrun⟩ := h
  exact ⟨s₀, h₀, hrun.tail ⟨a, hs⟩⟩

/-- The invariant rule. The step obligation may use that the state before the step is
itself reachable, so that an invariant already proved can be cited in the next one. -/
theorem Reachable.invariant {I : σ → Prop} (hinit : ∀ s, M.init s → I s)
    (hstep : ∀ s a s', M.Reachable s → I s → M.step s a s' → I s')
    {s : σ} (h : M.Reachable s) : I s := by
  obtain ⟨s₀, h₀, hrun⟩ := h
  induction hrun with
  | refl => exact hinit s₀ h₀
  | tail hpre hlast ih =>
    obtain ⟨a, ha⟩ := hlast
    exact hstep _ a _ ⟨s₀, h₀, hpre⟩ ih ha

/-- The same system with those steps only that meet a condition on the state before them. -/
def restrict (M : System σ l) (P : σ → l → Prop) : System σ l where
  init := M.init
  step s a s' := M.step s a s' ∧ P s a

/-- Forward simulation of `M` by `A` through the relation `R`: initial states are
matched, and a step of `M` is answered by at most one step of `A`. -/
structure Simulates {τ k : Type*} (A : System τ k) (M : System σ l)
    (R : σ → τ → Prop) : Prop where
  init : ∀ s, M.init s → ∃ t, A.init t ∧ R s t
  step : ∀ s a s' t, M.Reachable s → R s t → M.step s a s' →
    ∃ t', (t' = t ∨ A.Next t t') ∧ R s' t'

/-- A simulation matches every reachable state of the lower system with a reachable
state of the upper one. -/
theorem Simulates.reachable {τ k : Type*} {A : System τ k} {R : σ → τ → Prop}
    (h : Simulates A M R) {s : σ} (hs : M.Reachable s) : ∃ t, A.Reachable t ∧ R s t := by
  refine hs.invariant (I := fun s => ∃ t, A.Reachable t ∧ R s t)
    (fun s hs => ?_) (fun s a s' hr hi hstep => ?_)
  · obtain ⟨t, ht, hR⟩ := h.init s hs
    exact ⟨t, .start ht, hR⟩
  · obtain ⟨t, ht, hR⟩ := hi
    obtain ⟨t', hor, hR'⟩ := h.step s a s' t hr hR hstep
    rcases hor with rfl | ⟨b, hb⟩
    · exact ⟨t', ht, hR'⟩
    · exact ⟨t', ht.next hb, hR'⟩

end System
end Tdm.Lib
