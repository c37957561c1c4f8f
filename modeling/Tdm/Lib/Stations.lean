import Tdm.Lib.Custody
import Mathlib.Data.Set.Insert

/-!
# Tokens that pass through stations

A token (a descriptor, a ticket) is taken from a stock, passed from station to station and given
back, and may then be taken again. `Placed` says that every token that is out is at exactly one
station, and there once; it is `Custody` of cells that are linked to nothing and that everybody has
in their hands.
-/

namespace Tdm.Lib

variable {α ω : Type*}

/-- Every token in `held` is at exactly one station, and no other token is anywhere. -/
def Placed (held : Set α) (place : ω → List α) : Prop :=
  Custody (fun _ => none) (· ∈ held) (fun o => .hands (place o)) place

namespace Placed

variable {held : Set α} {place : ω → List α}

theorem nodup (h : Placed held place) (o : ω) : (place o).Nodup := Custody.nodup h o

theorem mem_held (h : Placed held place) {o : ω} {a : α} (ha : a ∈ place o) : a ∈ held :=
  Custody.live_of_mem h ha

theorem same_station (h : Placed held place) {o o' : ω} {a : α} (ha : a ∈ place o)
    (ha' : a ∈ place o') : o = o' := h.disjoint o o' a ha ha'

theorem existsUnique (h : Placed held place) {a : α} (ha : a ∈ held) : ∃! o, a ∈ place o := by
  obtain ⟨o, ho⟩ := (Custody.live h a).mp ha
  exact ⟨o, ho, fun o' ho' => h.same_station ho' ho⟩

theorem single [DecidableEq ω] (o : ω) (a : α) :
    Placed {a} (Function.update (fun _ : ω => []) o [a]) where
  holds _ := rfl
  nodup x := by
    by_cases hx : x = o
    · subst hx
      rw [Function.update_self]
      exact List.nodup_singleton a
    · rw [Function.update_of_ne hx]
      exact List.nodup_nil
  disjoint := by
    have hat : ∀ x b, b ∈ Function.update (fun _ : ω => ([] : List α)) o [a] x → x = o := by
      intro x b hb
      by_contra hx
      rw [Function.update_of_ne hx] at hb
      exact absurd hb List.not_mem_nil
    intro x y b hx hy
    rw [hat x b hx, hat y b hy]
  live b := by
    constructor
    · rintro rfl
      exact ⟨o, by rw [Function.update_self]; exact List.mem_singleton_self b⟩
    · rintro ⟨x, hx⟩
      by_cases hxo : x = o
      · subst hxo
        rw [Function.update_self] at hx
        exact List.mem_singleton.mp hx
      · rw [Function.update_of_ne hxo] at hx
        exact absurd hx List.not_mem_nil

variable [DecidableEq ω]

theorem hands_update (place : ω → List α) (o : ω) (l : List α) :
    (fun x => Anchor.hands (Function.update place o l x)) =
      Function.update (fun x => .hands (place x)) o (.hands l) := by
  funext x
  by_cases hx : x = o
  · subst hx
    rw [Function.update_self, Function.update_self]
  · rw [Function.update_of_ne hx, Function.update_of_ne hx]

/-- A token from the stock comes to an empty station. -/
theorem enter (h : Placed held place) {o : ω} (ho : place o = []) {a : α} (ha : a ∉ held) :
    Placed (insert a held) (Function.update place o [a]) := by
  have hcustody := Custody.alloc h (o := o) (by rw [ho]) (List.nodup_singleton a)
    (fun b hb => by rw [List.mem_singleton.mp hb]; exact ha) (fun _ => none) (fun _ _ => rfl)
  unfold Placed
  rw [hands_update]
  refine hcustody.congr_live _ fun b => ?_
  rw [Set.mem_insert_iff, List.mem_singleton, or_comm]

/-- A token passes from one station to another. -/
theorem pass (h : Placed held place) {o o' : ω} (hne : o ≠ o') {a : α} {l l' : List α}
    (hfrom : (place o).Perm (a :: l)) (hto : l'.Perm (a :: place o')) :
    Placed held (Function.update (Function.update place o l) o' l') := by
  unfold Placed
  rw [hands_update, hands_update]
  exact Custody.transfer h hne [a] hfrom hto (fun _ _ _ _ _ => rfl) rfl rfl

/-- A token goes back to the stock. -/
theorem leave (h : Placed held place) {o : ω} {a : α} {l : List α}
    (hfrom : (place o).Perm (a :: l)) : Placed (held \ {a}) (Function.update place o l) := by
  have hnd : (a :: l).Nodup := hfrom.nodup_iff.mp (h.nodup o)
  have hat : a ∈ place o := hfrom.mem_iff.mpr List.mem_cons_self
  -- the others are where they were, and `a` is nowhere
  have hmem : ∀ x b, b ∈ Function.update place o l x ↔ b ∈ place x ∧ b ≠ a := by
    intro x b
    by_cases hx : x = o
    · subst hx
      rw [Function.update_self, hfrom.mem_iff, List.mem_cons]
      constructor
      · intro hb
        exact ⟨.inr hb, fun hba => (List.nodup_cons.mp hnd).1 (hba ▸ hb)⟩
      · rintro ⟨hb, hba⟩
        exact hb.resolve_left hba
    · rw [Function.update_of_ne hx]
      refine (and_iff_left_of_imp fun hb hba => ?_).symm
      subst hba
      exact hx (h.same_station hb hat)
  refine ⟨fun _ => rfl, fun x => ?_, fun x y b hx hy => ?_, fun b => ?_⟩
  · by_cases hx : x = o
    · subst hx
      rw [Function.update_self]
      exact (List.nodup_cons.mp hnd).2
    · rw [Function.update_of_ne hx]
      exact h.nodup x
  · exact h.same_station ((hmem x b).mp hx).1 ((hmem y b).mp hy).1
  · rw [Set.mem_sdiff, Set.mem_singleton_iff]
    constructor
    · rintro ⟨hb, hba⟩
      obtain ⟨x, hx⟩ := (Custody.live h b).mp hb
      exact ⟨x, (hmem x b).mpr ⟨hx, hba⟩⟩
    · rintro ⟨x, hx⟩
      obtain ⟨hb, hba⟩ := (hmem x b).mp hx
      exact ⟨h.mem_held hb, hba⟩

end Placed
end Tdm.Lib
