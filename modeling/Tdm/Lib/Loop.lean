import Mathlib.Logic.Basic
import Mathlib.Order.Basic
import Mathlib.Data.Nat.Init

/-!
# Loops against an environment

The body of a loop is a function of the state and of what the environment does in this round: it
goes on with a new state or returns. The environment is an infinite sequence of outcomes, so a loop
may run for ever. `after` is the state after a number of rounds, or the result if the loop has
returned by then; the rules reduce statements about all rounds to one about a single round.
-/

namespace Tdm.Lib

/-- The body of a loop with states `σ`, outcomes `o` of the environment and results `ρ`. -/
abbrev Loop (σ o ρ : Type*) := σ → o → σ ⊕ ρ

namespace Loop

variable {σ o ρ : Type*} (body : Loop σ o ρ) (env : ℕ → o) (s : σ)

/-- The loop after `k` rounds from `s`. -/
def after : ℕ → σ ⊕ ρ
  | 0 => .inl s
  | k + 1 =>
    match after k with
    | .inl s => body s (env k)
    | .inr r => .inr r

/-- The loop returns `r` after finitely many rounds. -/
def Returns (r : ρ) : Prop := ∃ k, after body env s k = .inr r

variable {body env s}

theorem after_succ {k : ℕ} {t : σ} (h : after body env s k = .inl t) :
    after body env s (k + 1) = body t (env k) := by
  rw [after, h]

/-- A loop that has returned stays so. -/
theorem after_of_returned {k m : ℕ} {r : ρ} (h : after body env s k = .inr r) (hkm : k ≤ m) :
    after body env s m = .inr r := by
  induction m, hkm using Nat.le_induction with
  | base => exact h
  | succ m _ ih => rw [after, ih]

/-- Before a round there was another. -/
theorem running_of_le {k m : ℕ} {t : σ} (h : after body env s m = .inl t) (hkm : k ≤ m) :
    ∃ u, after body env s k = .inl u := by
  cases hk : after body env s k with
  | inl u => exact ⟨u, rfl⟩
  | inr r =>
    rw [after_of_returned hk hkm] at h
    cases h

/-- What holds at the start and is kept by every round holds in every round. -/
theorem invariant {I : ℕ → σ → Prop} (h₀ : I 0 s)
    (hstep : ∀ k t u, after body env s k = .inl t → I k t → body t (env k) = .inl u → I (k + 1) u)
    {k : ℕ} {t : σ} (h : after body env s k = .inl t) : I k t := by
  induction k generalizing t with
  | zero =>
    obtain rfl := Sum.inl.inj h
    exact h₀
  | succ k ih =>
    obtain ⟨u, hu⟩ := running_of_le h (Nat.le_succ k)
    rw [after_succ hu] at h
    exact hstep k u t hu (ih hu) h

/-- A result comes from some round. -/
theorem Returns.round {r : ρ} (h : Returns body env s r) :
    ∃ k t, after body env s k = .inl t ∧ body t (env k) = .inr r := by
  obtain ⟨k, hk⟩ := h
  induction k with
  | zero => cases hk
  | succ k ih =>
    cases hprev : after body env s k with
    | inl t => exact ⟨k, t, hprev, (after_succ hprev).symm.trans hk⟩
    | inr r' =>
      rw [after, hprev] at hk
      obtain rfl := Sum.inr.inj hk
      exact ih hprev

theorem returns_of_round {k : ℕ} {t : σ} {r : ρ} (h : after body env s k = .inl t)
    (hr : body t (env k) = .inr r) : Returns body env s r :=
  ⟨k + 1, (after_succ h).trans hr⟩

/-- A round in which the loop returns whatever its state ends it. -/
theorem exists_returns {k : ℕ} (h : ∀ t, after body env s k = .inl t → ∃ r, body t (env k) = .inr r) :
    ∃ r, Returns body env s r := by
  cases hk : after body env s k with
  | inl t =>
    obtain ⟨r, hr⟩ := h t hk
    exact ⟨r, returns_of_round hk hr⟩
  | inr r => exact ⟨r, k, hk⟩

/-- A loop that can always go on from round `n` does not return later. -/
theorem running_of_rounds {I : σ → Prop} {n : ℕ} {t : σ} (hn : after body env s n = .inl t)
    (hI : I t) (hstep : ∀ k t, n ≤ k → I t → ∃ u, body t (env k) = .inl u ∧ I u) {k : ℕ}
    (hk : n ≤ k) : ∃ u, after body env s k = .inl u ∧ I u := by
  induction k, hk using Nat.le_induction with
  | base => exact ⟨t, hn, hI⟩
  | succ k hk ih =>
    obtain ⟨u, hu, hIu⟩ := ih
    obtain ⟨v, hv, hIv⟩ := hstep k u hk hIu
    exact ⟨v, (after_succ hu).trans hv, hIv⟩

/-- Such a loop has no result at all. -/
theorem not_returns_of_rounds {I : σ → Prop} {n : ℕ} {t : σ} (hn : after body env s n = .inl t)
    (hI : I t) (hstep : ∀ k t, n ≤ k → I t → ∃ u, body t (env k) = .inl u ∧ I u) (r : ρ) :
    ¬ Returns body env s r := by
  rintro ⟨k, hk⟩
  obtain ⟨u, hu, -⟩ := running_of_rounds hn hI hstep (Nat.le_max_right k n)
  rw [after_of_returned hk (Nat.le_max_left k n)] at hu
  cases hu

end Loop
end Tdm.Lib
