import Mathlib.Data.List.Forall2
import Tdm.Lib.Tagged

/-!
# Stores that keep their keys apart

A store serves messages one after the other. Each message has a key, and it changes the entry of its
key as `serve` says and no other entry (`KeyedStore.Apart`). Then a run of the store is, for each key,
the run of `serve` over the messages of that key: what becomes of an entry and what is put out for it
does not depend on the messages of other keys, nor on how the messages of different keys are
interleaved (`Apart.interleave`).
-/

namespace Tdm.Lib

/-- A store with states `σ`, messages `μ`, keys `κ`, entries `α` and output `ω`. A message may have no
result. -/
structure KeyedStore (σ μ κ α ω : Type*) where
  step : σ → μ → Option (σ × List ω)
  key : μ → κ
  view : σ → κ → α
  serve : α → μ → Option (α × List ω)

namespace KeyedStore

variable {σ μ κ α ω : Type*} (S : KeyedStore σ μ κ α ω)

/-- The messages one after the other; the output has the key of its message. -/
def run : σ → List μ → Option (σ × List (κ × ω))
  | s, [] => some (s, [])
  | s, m :: ms =>
    (S.step s m).bind fun x => (run x.1 ms).map fun y => (y.1, x.2.map (S.key m, ·) ++ y.2)

/-- The messages of one key, on its entry. -/
def serveAll : α → List μ → Option (α × List ω)
  | a, [] => some (a, [])
  | a, m :: ms => (S.serve a m).bind fun x => (serveAll x.1 ms).map fun y => (y.1, x.2 ++ y.2)

/-- What every message keeps, the messages together keep. -/
theorem serveAll_invariant {P : α → Prop} {ms : List μ} {a a' : α} {out : List ω}
    (hstep : ∀ m ∈ ms, ∀ a a' out, P a → S.serve a m = some (a', out) → P a') (ha : P a)
    (hrun : S.serveAll a ms = some (a', out)) : P a' := by
  induction ms generalizing a out with
  | nil =>
    cases hrun
    exact ha
  | cons m ms ih =>
    obtain ⟨⟨a₁, out₁⟩, hserve, hrest⟩ := Option.bind_eq_some_iff.mp hrun
    obtain ⟨⟨a₂, out₂⟩, hrun₂, heq⟩ := Option.map_eq_some_iff.mp hrest
    cases heq
    exact ih (fun m' hm' => hstep m' (.tail m hm')) (hstep m List.mem_cons_self a a₁ out₁ ha hserve)
      hrun₂

/-- A store that takes the same steps as another one, whatever it puts out. -/
theorem run_of_steps {ω' : Type*} {S : KeyedStore σ μ κ α ω} {T : KeyedStore σ μ κ α ω'}
    (hstep : ∀ s m s' out, S.step s m = some (s', out) → ∃ out', T.step s m = some (s', out'))
    {s s' : σ} {ms : List μ} {out : List (κ × ω)} (hrun : S.run s ms = some (s', out)) :
    ∃ out', T.run s ms = some (s', out') := by
  induction ms generalizing s out with
  | nil =>
    cases hrun
    exact ⟨[], rfl⟩
  | cons m ms ih =>
    obtain ⟨⟨s₁, out₁⟩, hstep₁, hrest⟩ := Option.bind_eq_some_iff.mp hrun
    obtain ⟨⟨s₂, out₂⟩, hrun₂, heq⟩ := Option.map_eq_some_iff.mp hrest
    cases heq
    obtain ⟨out₁', hstep₁'⟩ := hstep s m s₁ out₁ hstep₁
    obtain ⟨out₂', hrun₂'⟩ := ih hrun₂
    rw [run, hstep₁', Option.bind_some, hrun₂']
    exact ⟨_, rfl⟩

/-- A specification that reads the messages and says what is to be put out, one message after the
other. -/
def specRun {β ε : Type*} (spec : β → μ → β × List ε) : β → List μ → List ε
  | _, [] => []
  | b, m :: ms => (spec b m).2 ++ specRun spec (spec b m).1 ms

/-- If each message is served as specified, the messages together are: `R` relates the entries to the
states of the specification, `Q` what is put out to what is to be put out. -/
theorem serveAll_specRun {β ε : Type*} {spec : β → μ → β × List ε} {R : α → β → Prop}
    {Q : ω → ε → Prop} (hstep : ∀ a b m a' out, R a b → S.serve a m = some (a', out) →
      R a' (spec b m).1 ∧ List.Forall₂ Q out (spec b m).2)
    {ms : List μ} {a a' : α} {b : β} {out : List ω} (hab : R a b)
    (hrun : S.serveAll a ms = some (a', out)) : List.Forall₂ Q out (specRun spec b ms) := by
  induction ms generalizing a b out with
  | nil =>
    cases hrun
    exact .nil
  | cons m ms ih =>
    obtain ⟨⟨a₁, out₁⟩, hserve, hrest⟩ := Option.bind_eq_some_iff.mp hrun
    obtain ⟨⟨a₂, out₂⟩, hrun₂, heq⟩ := Option.map_eq_some_iff.mp hrest
    cases heq
    obtain ⟨hab₁, hout₁⟩ := hstep a b m a₁ out₁ hab hserve
    exact List.rel_append hout₁ (ih hab₁ hrun₂)

variable [DecidableEq κ]

/-- The messages of the key `k`. -/
def messages (k : κ) (ms : List μ) : List μ := ms.filter fun m => S.key m = k

/-- Two messages of different keys may change places. -/
theorem messages_swap {a b : μ} (h : S.key a ≠ S.key b) (k : κ) :
    S.messages k [b, a] = S.messages k [a, b] := by
  simp only [messages, List.filter_cons, List.filter_nil, decide_eq_true_eq]
  by_cases ha : S.key a = k
  · have hb : S.key b ≠ k := ha ▸ h.symm
    rw [if_neg hb, if_neg hb]
  · rw [if_neg ha, if_neg ha]

/-- In the states `Good`, a message with `Ok` changes the entry of its key only, as `serve` says. -/
structure Apart (Good : σ → Prop) (Ok : μ → Prop) : Prop where
  serve : ∀ s m, Good s → Ok m →
    S.serve (S.view s (S.key m)) m = (S.step s m).map fun x => (S.view x.1 (S.key m), x.2)
  good : ∀ s m s' out, Good s → Ok m → S.step s m = some (s', out) → Good s'
  others : ∀ s m s' out, Good s → Ok m → S.step s m = some (s', out) →
    ∀ k, k ≠ S.key m → S.view s' k = S.view s k

namespace Apart

variable {S} {Good : σ → Prop} {Ok : μ → Prop} {s s' : σ} {ms ms' : List μ} {out : List (κ × ω)}

/-- A run is a run of `serve` for each key. -/
theorem project (h : S.Apart Good Ok) (hs : Good s) (hms : ∀ m ∈ ms, Ok m)
    (hrun : S.run s ms = some (s', out)) (k : κ) :
    S.serveAll (S.view s k) (S.messages k ms) = some (S.view s' k, own k out) := by
  induction ms generalizing s out with
  | nil =>
    cases hrun
    rfl
  | cons m ms ih =>
    obtain ⟨⟨s₁, out₁⟩, hstep, hrest⟩ := Option.bind_eq_some_iff.mp hrun
    obtain ⟨⟨s₂, out₂⟩, hrun₂, heq⟩ := Option.map_eq_some_iff.mp hrest
    cases heq
    have hm := hms m List.mem_cons_self
    have htail := ih (h.good s m s₁ out₁ hs hm hstep) (fun m' hm' => hms m' (.tail m hm')) hrun₂
    unfold messages at htail ⊢
    rw [own_append]
    by_cases hk : S.key m = k
    · subst hk
      rw [List.filter_cons_of_pos (by simp), serveAll, h.serve s m hs hm, hstep, Option.map_some,
        Option.bind_some, htail, own_self]
      rfl
    · rw [List.filter_cons_of_neg (by simpa using hk), own_of_ne hk, List.nil_append, ← htail,
        h.others s m s₁ out₁ hs hm hstep k (Ne.symm hk)]

/-- A run has a result if the run of each key has one. -/
theorem exists_run (h : S.Apart Good Ok) (hs : Good s) (hms : ∀ m ∈ ms, Ok m)
    (hall : ∀ k, (S.serveAll (S.view s k) (S.messages k ms)).isSome) :
    (S.run s ms).isSome := by
  induction ms generalizing s with
  | nil => rfl
  | cons m ms ih =>
    have hm := hms m List.mem_cons_self
    have hself := hall (S.key m)
    unfold messages at hself
    rw [List.filter_cons_of_pos (by simp), serveAll, h.serve s m hs hm] at hself
    cases hstep : S.step s m with
    | none =>
      rw [hstep] at hself
      cases hself
    | some x =>
      rw [hstep, Option.map_some, Option.bind_some, Option.isSome_map] at hself
      rw [run, hstep, Option.bind_some, Option.isSome_map]
      refine ih (h.good s m x.1 x.2 hs hm hstep) (fun m' hm' => hms m' (.tail m hm')) fun k => ?_
      by_cases hk : S.key m = k
      · subst hk
        exact hself
      · have hk' := hall k
        unfold messages at hk'
        rw [List.filter_cons_of_neg (by simpa using hk)] at hk'
        rw [h.others s m x.1 x.2 hs hm hstep k (Ne.symm hk)]
        exact hk'

/-- Messages in another order have the same effect on each entry and the same output for it, as long
as the messages of each key are in the same order. -/
theorem interleave (h : S.Apart Good Ok) (hs : Good s) (hms : ∀ m ∈ ms, Ok m)
    (hsame : ∀ k, S.messages k ms' = S.messages k ms) (hrun : S.run s ms = some (s', out)) :
    ∃ s'' out', S.run s ms' = some (s'', out') ∧
      ∀ k, S.view s'' k = S.view s' k ∧ own k out' = own k out := by
  have hms' : ∀ m ∈ ms', Ok m := by
    intro m hm
    have hmem : m ∈ S.messages (S.key m) ms' := List.mem_filter.mpr ⟨hm, by simp⟩
    rw [hsame] at hmem
    exact hms m (List.mem_filter.mp hmem).1
  have hsome : (S.run s ms').isSome := by
    refine h.exists_run hs hms' fun k => ?_
    rw [hsame, h.project hs hms hrun]
    rfl
  obtain ⟨⟨s'', out'⟩, hrun'⟩ := Option.isSome_iff_exists.mp hsome
  refine ⟨s'', out', hrun', fun k => ?_⟩
  have hleft := h.project hs hms' hrun' k
  rw [hsame, h.project hs hms hrun k] at hleft
  injection hleft with hleft
  injection hleft with hview hout
  exact ⟨hview.symm, hout.symm⟩

end Apart

end KeyedStore

end Tdm.Lib
