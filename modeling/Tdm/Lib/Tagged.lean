import Mathlib.Data.List.Nodup
import Mathlib.Data.List.Flatten

/-!
# Events with an owner

Several parties write to one list of events, each event with the party it belongs to. `own c` is
what belongs to `c`; `events` puts whole runs of the parties one after the other.
-/

namespace Tdm.Lib

/-- The events of several runs, with the call they belong to. -/
def events {κ ε : Type*} (runs : List (κ × List ε)) : List (κ × ε) :=
  runs.flatMap fun run => run.2.map (run.1, ·)

theorem events_append {κ ε : Type*} (runs runs' : List (κ × List ε)) :
    events (runs ++ runs') = events runs ++ events runs' := List.flatMap_append

theorem events_single {κ ε : Type*} (c : κ) (es : List ε) :
    events [(c, es)] = es.map (c, ·) := List.append_nil _

section Own

variable {κ ε : Type*} [DecidableEq κ] {c : κ}

/-- The events of one call. -/
def own (c : κ) (es : List (κ × ε)) : List ε :=
  es.filterMap fun e => if e.1 = c then some e.2 else none

theorem own_append (c : κ) (es es' : List (κ × ε)) : own c (es ++ es') = own c es ++ own c es' :=
  List.filterMap_append

theorem own_self (c : κ) (es : List ε) : own c (es.map (c, ·)) = es := by
  induction es with
  | nil => rfl
  | cons e es ih =>
    unfold own at ih ⊢
    rw [List.map_cons, List.filterMap_cons, if_pos rfl, ih]

theorem own_of_ne {c' : κ} (h : c' ≠ c) (es : List ε) : own c (es.map (c', ·)) = [] := by
  induction es with
  | nil => rfl
  | cons e es ih =>
    unfold own at ih ⊢
    rw [List.map_cons, List.filterMap_cons, if_neg h, ih]

theorem own_events_of_notMem {runs : List (κ × List ε)} (h : c ∉ runs.map Prod.fst) :
    own c (events runs) = [] := by
  induction runs with
  | nil => rfl
  | cons run runs ih =>
    rw [List.map_cons, List.mem_cons, not_or] at h
    rw [← List.singleton_append, events_append, own_append, ih h.2, List.append_nil]
    exact (congrArg (own c) (events_single ..)).trans (own_of_ne (Ne.symm h.1) run.2)

theorem own_events_of_mem {runs : List (κ × List ε)} (hnodup : (runs.map Prod.fst).Nodup)
    {es : List ε} (h : (c, es) ∈ runs) : own c (events runs) = es := by
  induction runs with
  | nil => cases h
  | cons run runs ih =>
    rw [List.map_cons, List.nodup_cons] at hnodup
    rw [← List.singleton_append, events_append, own_append,
      show events [run] = run.2.map (run.1, ·) from events_single ..]
    rcases List.mem_cons.mp h with rfl | hmem
    · rw [own_self, own_events_of_notMem hnodup.1, List.append_nil]
    · have hne : run.1 ≠ c := by
        rintro rfl
        exact hnodup.1 (List.mem_map.mpr ⟨_, hmem, rfl⟩)
      rw [own_of_ne hne, ih hnodup.2 hmem, List.nil_append]

end Own

end Tdm.Lib
