import Tdm.Lib.System
import Mathlib.Order.WellFounded
import Mathlib.Data.Prod.Lex
import Mathlib.Algebra.BigOperators.Group.Finset.Basic

/-!
# Runs that come to an end

`Settles R Q s` says that every run of `R`-steps from `s` is finite and that the state it gets
stuck in satisfies `Q`, whatever choices are made on the way. It is proved with a rank that every
step lowers and an analysis of the states in which no step is possible (`Settles.of_rank`), and it
gives back what it stands for: there is no infinite run, and every state that a run reaches and
that has no step satisfies `Q`.
-/

namespace Tdm.Lib

variable {σ : Type*} {R : σ → σ → Prop} {Q : σ → Prop}

/-- Every run of `R`-steps from `s` ends, in a state with `Q`. -/
inductive Settles (R : σ → σ → Prop) (Q : σ → Prop) : σ → Prop
  | intro {s : σ} (stuck : (∀ s', ¬ R s s') → Q s) (next : ∀ s', R s s' → Settles R Q s') :
      Settles R Q s

namespace Settles

/-- The rule: `I` is kept by every step, every step lowers the rank, and a state with `I` that has
no step satisfies `Q`. -/
theorem of_rank {α : Type*} {lt : α → α → Prop} (hwf : WellFounded lt) (rank : σ → α)
    {I : σ → Prop} (hkeep : ∀ s s', I s → R s s' → I s')
    (hlower : ∀ s s', I s → R s s' → lt (rank s') (rank s))
    (hstuck : ∀ s, I s → (∀ s', ¬ R s s') → Q s) {s : σ} (hs : I s) : Settles R Q s := by
  -- well-founded induction on the rank, for all states of that rank at once
  have hall : ∀ a s, rank s = a → I s → Settles R Q s := by
    intro a
    induction a using hwf.induction with
    | h a ih =>
      rintro s rfl hs
      refine .intro (hstuck s hs) fun s' hstep => ?_
      exact ih (rank s') (hlower s s' hs hstep) s' rfl (hkeep s s' hs hstep)
  exact hall _ s rfl hs

theorem trans {s s' : σ} (h : Settles R Q s) (hrun : Relation.ReflTransGen R s s') :
    Settles R Q s' := by
  induction hrun with
  | refl => exact h
  | tail _ hlast ih =>
    cases ih with
    | intro _ next => exact next _ hlast

/-- A state that a run reaches and that has no step satisfies `Q`. -/
theorem of_stuck {s s' : σ} (h : Settles R Q s) (hrun : Relation.ReflTransGen R s s')
    (hend : ∀ t, ¬ R s' t) : Q s' := by
  cases h.trans hrun with
  | intro stuck _ => exact stuck hend

/-- There is no infinite run. -/
theorem no_infinite_run {s : σ} (h : Settles R Q s) {run : ℕ → σ} (h₀ : run 0 = s) :
    ¬ ∀ k, R (run k) (run (k + 1)) := by
  induction h generalizing run with
  | intro stuck next ih =>
    intro hrun
    subst h₀
    exact @ih (run 1) (hrun 0) (fun k => run (k + 1)) rfl fun k => hrun (k + 1)

/-- Some run reaches a state with `Q`. -/
theorem exists_end {s : σ} (h : Settles R Q s) :
    ∃ t, Relation.ReflTransGen R s t ∧ (∀ u, ¬ R t u) ∧ Q t := by
  induction h with
  | @intro s stuck next ih =>
    by_cases hend : ∀ s', ¬ R s s'
    · exact ⟨s, .refl, hend, stuck hend⟩
    · push Not at hend
      obtain ⟨s', hstep⟩ := hend
      obtain ⟨t, hrun, hlast, hQ⟩ := ih s' hstep
      exact ⟨t, .head hstep hrun, hlast, hQ⟩

end Settles

/-! ## Ranks of several threads

The rank of a system of threads is made of sums of what its threads still have to do, the more
important ones first. -/

/-- The order of such ranks. -/
def Lower : ℕ × ℕ × ℕ → ℕ × ℕ × ℕ → Prop := Prod.Lex (· < ·) (Prod.Lex (· < ·) (· < ·))

theorem wellFounded_lower : WellFounded Lower :=
  WellFounded.prod_lex wellFounded_lt (WellFounded.prod_lex wellFounded_lt wellFounded_lt)

/-- One thread moves, the others stay where they are. -/
theorem sum_update_add {ι α : Type*} [DecidableEq ι] {t : Finset ι} (f : α → ℕ) (g : ι → α)
    {i : ι} (hi : i ∈ t) (x : α) :
    (∑ j ∈ t, f (Function.update g i x j)) + f (g i) = (∑ j ∈ t, f (g j)) + f x := by
  have hrest : ∑ j ∈ t.erase i, f (Function.update g i x j) = ∑ j ∈ t.erase i, f (g j) := by
    refine Finset.sum_congr rfl fun j hj => ?_
    rw [Function.update_of_ne (Finset.ne_of_mem_erase hj)]
  rw [← Finset.add_sum_erase t _ hi, ← Finset.add_sum_erase t (fun j => f (g j)) hi, hrest,
    Function.update_self]
  omega

end Tdm.Lib
