import Tdm.Lib.Progress
import Tdm.Lib.Tagged
import Mathlib.Data.Finset.Insert
import Mathlib.Logic.Function.Basic

/-!
# Critical sections

Calls that take one of several locks, run the same body under it and return. Each lock protects a
resource of its own. The body is a small program (`Section`), whose steps may have an event that the
world around it has to allow (a call of the operating system with its answer); the world also moves
by itself.

For every interleaving of the calls, what happens under one lock is a sequence of whole runs of the
body, one after the other, and a part of one more run while somebody holds the lock
(`Locks.serialized`). If the body ends, every call returns (`Locks.settles`).
-/

namespace Tdm.Lib

/-- The body of a critical section: its program points, the resource and the events of its steps. A
step to `none` is the last one. -/
structure Section (ρ π ε : Type*) where
  entry : π
  step : π → ρ → Option ε → ρ → Option π → Prop

namespace Section

variable {ρ π ε κ : Type*}

/-- The body has started with the resource `r`: what has happened, the resource now, and where it
is. -/
inductive Run (S : Section ρ π ε) (r : ρ) : List ε → ρ → Option π → Prop
  | start : Run S r [] r (some S.entry)
  | snoc {es : List ε} {r₁ r₂ : ρ} {p : π} {o : Option ε} {q : Option π}
      (hrun : Run S r es r₁ (some p)) (hstep : S.step p r₁ o r₂ q) : Run S r (es ++ o.toList) r₂ q

/-- From the point `p` on, the body does this and ends. -/
inductive Finish (S : Section ρ π ε) : π → ρ → List ε → ρ → Prop
  | last {p : π} {r r' : ρ} {o : Option ε} (hstep : S.step p r o r' none) :
      Finish S p r o.toList r'
  | step {p q : π} {r r₁ r' : ρ} {o : Option ε} {es : List ε} (hstep : S.step p r o r₁ (some q))
      (hrest : Finish S q r₁ es r') : Finish S p r (o.toList ++ es) r'

/-- A run is a whole run when it is at its end, and it becomes one with the rest of the body. -/
theorem Run.finish {S : Section ρ π ε} {r r₁ : ρ} {es : List ε} {q : Option π}
    (h : S.Run r es r₁ q) : (q = none → S.Finish S.entry r es r₁) ∧
      ∀ p es' r', q = some p → S.Finish p r₁ es' r' → S.Finish S.entry r (es ++ es') r' := by
  induction h with
  | start =>
    refine ⟨nofun, fun p es' r' hp hrest => ?_⟩
    injection hp with hp
    exact hp ▸ hrest
  | @snoc es r₁ r₂ p o q hrun hstep ih =>
    refine ⟨?_, ?_⟩
    · rintro rfl
      exact ih.2 p _ _ rfl (.last hstep)
    · rintro p' es' r' rfl hrest
      rw [List.append_assoc]
      exact ih.2 p _ _ rfl (.step hstep hrest)

/-- If every step lowers `turns` and some step is always possible, the body can end. -/
theorem exists_finish (S : Section ρ π ε) {turns : π → ℕ}
    (hturns : ∀ p r o r' q, S.step p r o r' (some q) → turns q < turns p)
    (hgo : ∀ p r, ∃ o r' q, S.step p r o r' q) (p : π) (r : ρ) : ∃ es r', S.Finish p r es r' := by
  induction hn : turns p using Nat.strong_induction_on generalizing p r with
  | h n ih =>
    obtain ⟨o, r₁, q, hstep⟩ := hgo p r
    cases q with
    | none => exact ⟨_, _, .last hstep⟩
    | some q =>
      obtain ⟨es, r', hrest⟩ := ih (turns q) (hn ▸ hturns p r o r₁ q hstep) q r₁ rfl
      exact ⟨_, _, .step hstep hrest⟩

/-- Whole runs, one after the other, by the calls given. -/
inductive Serial (S : Section ρ π ε) (r : ρ) : List (κ × List ε) → ρ → Prop
  | nil : Serial S r [] r
  | snoc {runs : List (κ × List ε)} {r₁ r₂ : ρ} {es : List ε} (c : κ) (hruns : Serial S r runs r₁)
      (hrun : S.Run r₁ es r₂ none) : Serial S r (runs ++ [(c, es)]) r₂

theorem Serial.run_of_mem {S : Section ρ π ε} {r r' : ρ} {runs : List (κ × List ε)}
    (h : S.Serial r runs r') {run : κ × List ε} (hmem : run ∈ runs) :
    ∃ r₁ r₂, S.Run r₁ run.2 r₂ none := by
  induction h with
  | nil => cases hmem
  | snoc c hruns hrun ih =>
    rcases List.mem_append.mp hmem with hold | hnew
    · exact ih hold
    · rw [List.mem_singleton.mp hnew]
      exact ⟨_, _, hrun⟩

end Section

/-! ## The machine -/

/-- Where a call is. `inside l none` is the end of the body, before the unlock. -/
inductive Status (lk π : Type*)
  | idle
  | waiting (l : lk)
  | inside (l : lk) (p : Option π)
  | returned (l : lk)

/-- Calls `κ`, locks `lk`, and the world `η`. -/
structure Locks (κ lk ρ π ε η : Type*) where
  resource : lk → ρ
  owner : lk → Option κ
  call : κ → Status lk π
  /-- what has happened under each lock -/
  history : lk → List (κ × ε)
  world : η

/-- What the steps of the body are, which events the world allows and what they do to it, and how
the world moves by itself. -/
structure Service (ρ π ε η : Type*) where
  body : Section ρ π ε
  allows : η → ε → η → Prop
  drifts : η → η → Prop

inductive LockLabel (κ lk : Type*)
  | call (c : κ) (l : lk)
  | run (c : κ)
  | drift

/-! ## Serialization -/

section Explained

variable {κ lk ρ π ε η : Type*}

/-- What has happened under the lock `l`: whole runs of the body, and a part of a run of the call that
holds the lock. -/
structure Explains (S : Section ρ π ε) (r : lk → ρ) (s : Locks κ lk ρ π ε η) (l : lk)
    (runs : List (κ × List ε)) (r₁ : ρ) : Prop where
  serial : S.Serial (r l) runs r₁
  returned : ∀ c, s.call c = .returned l ↔ c ∈ runs.map Prod.fst
  once : (runs.map Prod.fst).Nodup
  free : s.owner l = none → s.resource l = r₁ ∧ s.history l = events runs
  held : ∀ c, s.owner l = some c → ∃ p es, s.call c = .inside l p ∧
    S.Run r₁ es (s.resource l) p ∧ s.history l = events runs ++ es.map (c, ·)

/-- A function that has been changed at one place. -/
theorem update_cases {α β : Type*} [DecidableEq α] {f : α → β} {a a' : α} {x y : β}
    (h : Function.update f a x a' = y) : a' = a ∧ x = y ∨ a' ≠ a ∧ f a' = y := by
  by_cases ha : a' = a
  · subst ha
    rw [Function.update_self] at h
    exact .inl ⟨rfl, h⟩
  · rw [Function.update_of_ne ha] at h
    exact .inr ⟨ha, h⟩

variable [DecidableEq κ] {S : Section ρ π ε} {r : lk → ρ} {s s' : Locks κ lk ρ π ε η} {l : lk}
  {runs : List (κ × List ε)} {r₁ : ρ} {c : κ} {x : Status lk π}

/-- The step of a call that is not under the lock `l`. -/
theorem Explains.frame (h : Explains S r s l runs r₁) (hcall : s'.call = Function.update s.call c x)
    (hreturned : s.call c ≠ .returned l) (hinside : ∀ p, s.call c ≠ .inside l p)
    (hx : x ≠ .returned l)
    (howner : s'.owner l = s.owner l) (hresource : s'.resource l = s.resource l)
    (hhistory : s'.history l = s.history l) : Explains S r s' l runs r₁ where
  serial := h.serial
  returned c' := by
    rw [← h.returned, hcall]
    by_cases he : c' = c
    · rw [he, Function.update_self]
      exact iff_of_false hx hreturned
    · rw [Function.update_of_ne he]
  once := h.once
  free hfree := by
    rw [howner] at hfree
    rw [hresource, hhistory]
    exact h.free hfree
  held c' hc' := by
    rw [howner] at hc'
    obtain ⟨p, es, hin, hrun, hist⟩ := h.held c' hc'
    have hne : c' ≠ c := fun he => hinside p (he ▸ hin)
    rw [hcall, hresource, hhistory, Function.update_of_ne hne]
    exact ⟨p, es, hin, hrun, hist⟩

/-- The call `c` that holds the lock goes on, or takes it. -/
theorem Explains.go_on (h : Explains S r s l runs r₁) {p : Option π} (es : List ε)
    (hcall : s'.call = Function.update s.call c (.inside l p)) (hreturned : s.call c ≠ .returned l)
    (howner : s'.owner l = some c) (hrun : S.Run r₁ es (s'.resource l) p)
    (hhistory : s'.history l = events runs ++ es.map (c, ·)) : Explains S r s' l runs r₁ where
  serial := h.serial
  returned c' := by
    rw [← h.returned, hcall]
    by_cases he : c' = c
    · rw [he, Function.update_self]
      exact iff_of_false nofun hreturned
    · rw [Function.update_of_ne he]
  once := h.once
  free hfree := by
    rw [howner] at hfree
    cases hfree
  held c' hc' := by
    rw [howner] at hc'
    injection hc' with hc'
    subst hc'
    rw [hcall, Function.update_self]
    exact ⟨p, es, rfl, hrun, hhistory⟩

/-- The call `c` that holds the lock has come to the end of the body and returns. -/
theorem Explains.finish (h : Explains S r s l runs r₁) {es : List ε}
    (hc : s.call c = .inside l none) (hrun : S.Run r₁ es (s.resource l) none)
    (hhistory : s.history l = events runs ++ es.map (c, ·))
    (hcall : s'.call = Function.update s.call c (.returned l)) (howner : s'.owner l = none)
    (hresource : s'.resource l = s.resource l) (hsame : s'.history l = s.history l) :
    Explains S r s' l (runs ++ [(c, es)]) (s.resource l) where
  serial := .snoc c h.serial hrun
  returned c' := by
    rw [hcall, List.map_append, List.mem_append, List.map_singleton, List.mem_singleton,
      ← h.returned]
    by_cases he : c' = c
    · rw [he, Function.update_self]
      exact iff_of_true rfl (.inr rfl)
    · rw [Function.update_of_ne he]
      exact (or_iff_left he).symm
  once := by
    rw [List.map_append, List.map_singleton, List.nodup_append]
    refine ⟨h.once, List.nodup_singleton c, ?_⟩
    intro c₁ hc₁ c₂ hc₂ he
    rw [he, List.mem_singleton.mp hc₂] at hc₁
    have hold := (h.returned c).mpr hc₁
    rw [hc] at hold
    cases hold
  free _ := by
    rw [hresource, hsame, hhistory, events_append, events_single]
    exact ⟨rfl, rfl⟩
  held c' hc' := by
    rw [howner] at hc'
    cases hc'

end Explained

section Machine

variable {κ lk ρ π ε η : Type*} [DecidableEq κ] [DecidableEq lk]

/-- The world after a step of the body. -/
def Service.World (V : Service ρ π ε η) (w : η) : Option ε → η → Prop
  | none, w' => w' = w
  | some e, w' => V.allows w e w'

inductive LockStep (V : Service ρ π ε η) (s : Locks κ lk ρ π ε η) :
    LockLabel κ lk → Locks κ lk ρ π ε η → Prop
  | call (c : κ) (l : lk) (hc : s.call c = .idle) :
      LockStep V s (.call c l) { s with call := Function.update s.call c (.waiting l) }
  | lock (c : κ) (l : lk) (hc : s.call c = .waiting l) (hfree : s.owner l = none) :
      LockStep V s (.run c)
        { s with owner := Function.update s.owner l (some c)
                 call := Function.update s.call c (.inside l (some V.body.entry)) }
  | body (c : κ) (l : lk) (p : π) (o : Option ε) (r : ρ) (q : Option π) (w : η)
      (hc : s.call c = .inside l (some p)) (hstep : V.body.step p (s.resource l) o r q)
      (hworld : V.World s.world o w) :
      LockStep V s (.run c)
        { s with resource := Function.update s.resource l r
                 call := Function.update s.call c (.inside l q)
                 history := Function.update s.history l (s.history l ++ o.toList.map (c, ·))
                 world := w }
  | unlock (c : κ) (l : lk) (hc : s.call c = .inside l none) :
      LockStep V s (.run c)
        { s with owner := Function.update s.owner l none
                 call := Function.update s.call c (.returned l) }
  | drift (w : η) (hw : V.drifts s.world w) : LockStep V s .drift { s with world := w }

/-- Before the first call. -/
def lockStart (r : lk → ρ) (w : η) : Locks κ lk ρ π ε η where
  resource := r
  owner _ := none
  call _ := .idle
  history _ := []
  world := w

/-- The calls of a service, with the resources and the world it starts with. -/
def lockSystem (κ : Type*) [DecidableEq κ] (V : Service ρ π ε η) (r : lk → ρ) (w : η) :
    System (Locks κ lk ρ π ε η) (LockLabel κ lk) where
  init s := s = lockStart r w
  step := LockStep V

namespace Locks

variable {V : Service ρ π ε η} {r : lk → ρ} {w₀ : η} {s s' : Locks κ lk ρ π ε η}

theorem owner_of_inside (h : (lockSystem κ V r w₀).Reachable s) {c : κ} {l : lk} {p : Option π}
    (hc : s.call c = .inside l p) : s.owner l = some c := by
  refine h.invariant (I := fun s => ∀ c l p, s.call c = .inside l p → s.owner l = some c) ?_ ?_
    c l p hc
  · rintro _ rfl c l p ⟨⟩
  · intro s a s' _ hinv hstep
    cases hstep with
    | drift w hw => exact hinv
    | call c l hc =>
      intro c' l' p hc'
      rcases update_cases hc' with ⟨-, hnew⟩ | ⟨-, hold⟩
      · cases hnew
      · exact hinv c' l' p hold
    | lock c l hc hfree =>
      intro c' l' p hc'
      show Function.update s.owner l (some c) l' = some c'
      rcases update_cases hc' with ⟨rfl, hnew⟩ | ⟨-, hold⟩
      · injection hnew with hl
        rw [← hl, Function.update_self]
      · have howner := hinv c' l' p hold
        have hl : l' ≠ l := fun he => by rw [he, hfree] at howner; cases howner
        rw [Function.update_of_ne hl]
        exact howner
    | body c l p o r q w hc hstep hworld =>
      intro c' l' p' hc'
      rcases update_cases hc' with ⟨rfl, hnew⟩ | ⟨-, hold⟩
      · injection hnew with hl
        exact hl ▸ hinv c' l (some p) hc
      · exact hinv c' l' p' hold
    | unlock c l hc =>
      intro c' l' p hc'
      rcases update_cases hc' with ⟨-, hnew⟩ | ⟨hne, hold⟩
      · cases hnew
      · have howner := hinv c' l' p hold
        have hl : l' ≠ l := by
          rintro rfl
          rw [hinv c l' none hc] at howner
          injection howner with heq
          exact hne heq.symm
        show Function.update s.owner l none l' = some c'
        rw [Function.update_of_ne hl]
        exact howner

/-- In every reachable state, what has happened under a lock is explained by whole runs of the body
and a part of one. -/
theorem serialized (h : (lockSystem κ V r w₀).Reachable s) (l : lk) :
    ∃ runs r₁, Explains V.body r s l runs r₁ := by
  refine h.invariant (I := fun s => ∀ l, ∃ runs r₁, Explains V.body r s l runs r₁) ?_ ?_ l
  · rintro _ rfl l
    exact ⟨[], r l, .nil, fun _ => iff_of_false nofun nofun, .nil, fun _ => ⟨rfl, rfl⟩, nofun⟩
  · intro s a s' hreach hinv hstep l
    obtain ⟨runs, r₁, hl⟩ := hinv l
    cases hstep with
    | drift w hw => exact ⟨runs, r₁, hl.serial, hl.returned, hl.once, hl.free, hl.held⟩
    | call c l' hc =>
      exact ⟨runs, r₁, hl.frame rfl (by rw [hc]; nofun) (by rw [hc]; nofun) nofun rfl rfl rfl⟩
    | lock c l' hc hfree =>
      refine ⟨runs, r₁, ?_⟩
      by_cases heq : l = l'
      · subst heq
        obtain ⟨hres, hhist⟩ := hl.free hfree
        refine hl.go_on [] rfl (by rw [hc]; nofun) (Function.update_self ..) ?_ ?_
        · show V.body.Run r₁ [] (s.resource l) _
          rw [hres]
          exact .start
        · rw [List.map_nil, List.append_nil]
          exact hhist
      · exact hl.frame rfl (by rw [hc]; nofun) (by rw [hc]; nofun) nofun
          (Function.update_of_ne heq ..) rfl rfl
    | body c l' p o r' q w hc hstep hworld =>
      refine ⟨runs, r₁, ?_⟩
      by_cases heq : l = l'
      · subst heq
        obtain ⟨p', es, hin, hrun, hhist⟩ := hl.held c (owner_of_inside hreach hc)
        rw [hc] at hin
        injection hin with _ hp
        subst hp
        refine hl.go_on (es ++ o.toList) rfl (by rw [hc]; nofun) (owner_of_inside hreach hc) ?_ ?_
        · show V.body.Run r₁ _ (Function.update s.resource l r' l) q
          rw [Function.update_self]
          exact .snoc hrun hstep
        · show Function.update s.history l _ l = _
          rw [Function.update_self, hhist, List.map_append, List.append_assoc]
      · refine hl.frame rfl (by rw [hc]; nofun) ?_ nofun rfl (Function.update_of_ne heq ..)
          (Function.update_of_ne heq ..)
        rw [hc]
        intro p' he
        injection he with he
        exact heq he.symm
    | unlock c l' hc =>
      by_cases heq : l = l'
      · subst heq
        obtain ⟨p', es, hin, hrun, hhist⟩ := hl.held c (owner_of_inside hreach hc)
        rw [hc] at hin
        injection hin with _ hp
        subst hp
        exact ⟨_, _, hl.finish hc hrun hhist rfl (Function.update_self ..) rfl rfl⟩
      · refine ⟨runs, r₁, hl.frame rfl (by rw [hc]; nofun) ?_ ?_ (Function.update_of_ne heq ..) rfl
          rfl⟩
        · rw [hc]
          intro p' he
          injection he with he
          exact heq he.symm
        · intro he
          injection he with he
          exact heq he.symm

/-- What a call has done under a lock is nothing, or a run of the body; a whole one when it has
returned. -/
theorem own_run (h : (lockSystem κ V r w₀).Reachable s) (c : κ) (l : lk) :
    (own c (s.history l) = [] ∧ (∀ p, s.call c ≠ .inside l p) ∧ s.call c ≠ .returned l) ∨
      ∃ r₁ r₂ q, V.body.Run r₁ (own c (s.history l)) r₂ q ∧
        (s.call c = .inside l q ∨ s.call c = .returned l ∧ q = none) := by
  obtain ⟨runs, r₁, hl⟩ := serialized h l
  by_cases hreturned : s.call c = .returned l
  · -- its run is one of the whole runs
    obtain ⟨run, hmem, rfl⟩ := List.mem_map.mp ((hl.returned c).mp hreturned)
    obtain ⟨r₂, r₃, hrun⟩ := hl.serial.run_of_mem hmem
    refine .inr ⟨r₂, r₃, none, ?_, .inr ⟨hreturned, rfl⟩⟩
    have hown := own_events_of_mem hl.once hmem
    cases howner : s.owner l with
    | none =>
      rw [(hl.free howner).2, hown]
      exact hrun
    | some c' =>
      obtain ⟨p, es, hc', -, hhistory⟩ := hl.held c' howner
      have hne : c' ≠ run.1 := by
        rintro rfl
        rw [hreturned] at hc'
        cases hc'
      rw [hhistory, own_append, hown, own_of_ne hne, List.append_nil]
      exact hrun
  · have hnone := own_events_of_notMem (mt (hl.returned c).mpr hreturned)
    cases howner : s.owner l with
    | none =>
      refine .inl ⟨by rw [(hl.free howner).2, hnone], fun p hp => ?_, hreturned⟩
      rw [owner_of_inside h hp] at howner
      cases howner
    | some c' =>
      obtain ⟨p, es, hc', hrun, hhistory⟩ := hl.held c' howner
      by_cases he : c' = c
      · subst he
        rw [hhistory, own_append, hnone, own_self]
        exact .inr ⟨_, _, p, hrun, .inl hc'⟩
      · refine .inl ⟨?_, fun p' hp => ?_, hreturned⟩
        · rw [hhistory, own_append, hnone, own_of_ne he]
          rfl
        · rw [owner_of_inside h hp] at howner
          injection howner with heq
          exact he heq.symm

/-! ## Every call returns -/

/-- The steps of the calls that are on their way. -/
def working (κ : Type*) [DecidableEq κ] (V : Service ρ π ε η) (r : lk → ρ) (w : η) :
    System (Locks κ lk ρ π ε η) (LockLabel κ lk) :=
  (lockSystem κ V r w).restrict fun _ a => ∃ c, a = .run c

/-- How many steps a call has left, when the body has at most `turns p` left at the point `p`. -/
def left (entry : π) (turns : π → ℕ) : Status lk π → ℕ
  | .idle | .returned _ => 0
  | .waiting _ => turns entry + 3
  | .inside _ (some p) => turns p + 2
  | .inside _ none => 1

/-- Only finitely many calls have begun. -/
theorem exists_begun (h : (lockSystem κ V r w₀).Reachable s) :
    ∃ t : Finset κ, ∀ c, s.call c ≠ .idle → c ∈ t := by
  refine h.invariant (I := fun s => ∃ t : Finset κ, ∀ c, s.call c ≠ .idle → c ∈ t) ?_ ?_
  · rintro _ rfl
    exact ⟨∅, fun c hc => absurd rfl hc⟩
  · rintro s a s' - ⟨t, ht⟩ hstep
    cases hstep with
    | drift w hw => exact ⟨t, ht⟩
    | call c | lock c | body c | unlock c =>
      refine ⟨insert c t, fun c' hc' => ?_⟩
      by_cases he : c' = c
      · exact he ▸ Finset.mem_insert_self c t
      · refine Finset.mem_insert_of_mem (ht c' fun hidle => hc' ?_)
        exact (Function.update_of_ne he ..).trans hidle

section Ends

variable {turns : π → ℕ}

/-- A step of a call takes one of the steps it has left. -/
theorem exists_lower (hturns : ∀ p r o r' q, V.body.step p r o r' (some q) → turns q < turns p)
    {c : κ} (hstep : LockStep V s (.run c) s') :
    ∃ x, s.call c ≠ .idle ∧ s'.call = Function.update s.call c x ∧ x ≠ .idle ∧
      left V.body.entry turns x < left V.body.entry turns (s.call c) := by
  cases hstep with
  | lock c l hc hfree =>
    refine ⟨_, by rw [hc]; nofun, rfl, nofun, ?_⟩
    rw [hc]
    exact Nat.lt_succ_self _
  | body c l p o r q w hc hbody hworld =>
    refine ⟨_, by rw [hc]; nofun, rfl, nofun, ?_⟩
    rw [hc]
    cases q with
    | none => exact Nat.lt_add_left _ (Nat.lt_succ_self 1)
    | some q => exact Nat.add_lt_add_right (hturns p _ o r q hbody) 2
  | unlock c l hc =>
    refine ⟨_, by rw [hc]; nofun, rfl, nofun, ?_⟩
    rw [hc]
    exact Nat.zero_lt_one

/-- When no call can go on, all have returned. -/
theorem returned_of_stuck (hgo : ∀ p r w, ∃ o r' q w', V.body.step p r o r' q ∧ V.World w o w')
    (h : (lockSystem κ V r w₀).Reachable s) (hend : ∀ t, ¬ (working κ V r w₀).Next s t) (c : κ) :
    s.call c = .idle ∨ ∃ l, s.call c = .returned l := by
  have hno : ∀ c t, ¬ LockStep V s (.run c) t := fun c t ht => hend t ⟨_, ht, c, rfl⟩
  -- nobody is inside a critical section
  have hinside : ∀ c l p, s.call c ≠ .inside l p := by
    intro c l p hc
    cases p with
    | none => exact hno c _ (.unlock c l hc)
    | some p =>
      obtain ⟨o, r', q, w', hstep, hworld⟩ := hgo p (s.resource l) s.world
      exact hno c _ (.body c l p o r' q w' hc hstep hworld)
  cases hc : s.call c with
  | idle => exact .inl rfl
  | returned l => exact .inr ⟨l, rfl⟩
  | inside l p => exact absurd hc (hinside c l p)
  | waiting l =>
    cases howner : s.owner l with
    | none => exact absurd (.lock c l hc howner) (hno c _)
    | some c' =>
      obtain ⟨runs, r₁, hl⟩ := serialized h l
      obtain ⟨p, es, hc', -, -⟩ := hl.held c' howner
      exact absurd hc' (hinside c' l p)

/-- If every step of the body lowers `turns` and some step is always possible, the calls on their
way cannot go on for ever, and when they cannot go on they have all returned. -/
theorem settles (hturns : ∀ p r o r' q, V.body.step p r o r' (some q) → turns q < turns p)
    (hgo : ∀ p r w, ∃ o r' q w', V.body.step p r o r' q ∧ V.World w o w')
    (h : (lockSystem κ V r w₀).Reachable s) :
    Settles (working κ V r w₀).Next
      (fun t => (lockSystem κ V r w₀).Reachable t ∧
        ∀ c, t.call c = .idle ∨ ∃ l, t.call c = .returned l) s := by
  obtain ⟨t, ht⟩ := exists_begun h
  refine Settles.of_rank wellFounded_lt
    (fun s => ∑ c ∈ t, left V.body.entry turns (s.call c))
    (I := fun s => (lockSystem κ V r w₀).Reachable s ∧ ∀ c, s.call c ≠ .idle → c ∈ t) ?_ ?_ ?_
    ⟨h, ht⟩
  · rintro s s' ⟨hs, hin⟩ ⟨a, hstep, c, rfl⟩
    obtain ⟨x, hc, hcall, -⟩ := exists_lower hturns hstep
    refine ⟨hs.next hstep, fun c' hc' => ?_⟩
    by_cases he : c' = c
    · exact he ▸ hin c hc
    · rw [hcall, Function.update_of_ne he] at hc'
      exact hin c' hc'
  · rintro s s' ⟨hs, hin⟩ ⟨a, hstep, c, rfl⟩
    obtain ⟨x, hc, hcall, -, hlt⟩ := exists_lower hturns hstep
    have hsum := sum_update_add (left V.body.entry turns) s.call (hin c hc) x
    show ∑ c ∈ t, left V.body.entry turns (s'.call c) < ∑ c ∈ t, left V.body.entry turns (s.call c)
    rw [hcall]
    omega
  · rintro s ⟨hs, -⟩ hend
    exact ⟨hs, returned_of_stuck hgo hs hend⟩

end Ends

end Locks

end Machine

end Tdm.Lib
