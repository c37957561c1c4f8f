import Tdm.Common.RegistryTheorems

/-!
# Runs of the registry

`Inv` holds in every reachable state and `Inv.step` says what one step of any thread does
to the list. `registry_unique_key_store` puts the two together.
-/

namespace Tdm.Common

open Tdm.Lib

/-- The list is sound, and every node a call ever got is still where it was. -/
structure Inv (s : State) : Prop where
  sound : s.registry.Sound
  served : ∀ e ∈ s.served, s.registry.keys[e.2]? = some e.1

/-- What a step leaves of the registry before it. -/
structure Kept (s : State) (a : Action) (s' : State) : Prop where
  /-- the walk along the list ended and every link it followed led to a node -/
  defined : a ≠ .undefined
  /-- no node is dropped, moved or given another key; at most one is added -/
  keys : s'.registry.keys = s.registry.keys ∨ ∃ key, s'.registry.keys = s.registry.keys ++ [key]
  rejected : ∀ sn, a = .reject sn → s' = s
  failed : ∀ sn, a = .get sn false ∨ a = .set sn false → sn.key ∉ s.registry.keys →
    s'.registry = s.registry
  /-- a call that had a node to find or memory for a new one got a node with its key -/
  obtained : ∀ sn malloc, a = .get sn malloc ∨ a = .set sn malloc →
    sn.key ∈ s.registry.keys ∨ malloc = true → ∃ i, s'.served = s.served ++ [(sn.key, i)]

theorem getElem?_of_prefix {α : Type} {l l' : List α} (h : l <+: l') {i : ℕ} {a : α}
    (hi : l[i]? = some a) : l'[i]? = some a := by
  obtain ⟨t, rfl⟩ := h
  rw [List.getElem?_append_left (List.getElem?_eq_some_iff.mp hi).1]
  exact hi

namespace Inv

variable {s : State} {sn : SnArg} {malloc : Bool} {node : Option ℕ} {r r₁ : Registry}

/-- The history of a call is right about the registry the call leaves behind. -/
theorem served_serve (h : Inv s) (ho : Obtained s.registry sn malloc node r₁)
    (hkeys : r.keys = r₁.keys) : ∀ e ∈ s.serve sn node, r.keys[e.2]? = some e.1 := by
  have hold : ∀ e ∈ s.served, r.keys[e.2]? = some e.1 := by
    intro e he
    rw [hkeys]
    exact getElem?_of_prefix ho.keys_prefix (h.served e he)
  cases node with
  | none => exact hold
  | some i =>
    intro e he
    rcases List.mem_append.mp he with he | he
    · exact hold e he
    · rw [List.mem_singleton.mp he, hkeys]
      exact ho.key_at

/-- A call that could get a node has got one. -/
theorem serve_eq (ho : Obtained s.registry sn malloc node r₁)
    (hcan : sn.key ∈ s.registry.keys ∨ malloc = true) :
    ∃ i, s.serve sn node = s.served ++ [(sn.key, i)] := by
  cases ho with
  | found hi => exact ⟨_, rfl⟩
  | added hnew hmalloc hkey => exact ⟨_, rfl⟩
  | failed hnew hmalloc =>
    rcases hcan with hmem | hm
    · exact absurd hmem hnew
    · rw [hm] at hmalloc
      exact absurd hmalloc (by simp)

theorem keys_eq (ho : Obtained s.registry sn malloc node r₁) (hkeys : r.keys = r₁.keys) :
    r.keys = s.registry.keys ∨ ∃ key, r.keys = s.registry.keys ++ [key] := by
  rw [hkeys]
  rcases ho.keys_eq with heq | heq
  · exact .inl heq
  · exact .inr ⟨_, heq⟩

/-- One step, of whichever thread. -/
theorem step (h : Inv s) {a : Action} {s' : State} (hs : Step s a s') : Inv s' ∧ Kept s a s' := by
  cases hs with
  | reject hpc hsn =>
    refine ⟨h, nofun, .inl rfl, fun _ _ => rfl, fun _ _ _ => rfl, ?_⟩
    rintro _ _ (h' | h') <;> cases h'
  | callGet hpc hsn =>
    refine ⟨⟨h.sound, h.served⟩, nofun, .inl rfl, nofun, fun _ _ _ => rfl, ?_⟩
    rintro _ _ (h' | h') <;> cases h'
  | callSet hpc =>
    refine ⟨⟨h.sound, h.served⟩, nofun, .inl rfl, nofun, fun _ _ _ => rfl, ?_⟩
    rintro _ _ (h' | h') <;> cases h'
  | @get t sn malloc node r hpc hr =>
    obtain ⟨node', r', hr', ho⟩ := findOrAdd_obtains h.sound sn initDataSpm malloc
    obtain ⟨rfl, rfl⟩ : node' = node ∧ r' = r := by
      have := hr'.symm.trans hr
      simpa using this
    refine ⟨⟨ho.sound h.sound, h.served_serve ho rfl⟩, nofun, keys_eq ho rfl, nofun, ?_, ?_⟩
    · rintro sn' (h' | h') _
      · cases h'
        exact ho.eq_of_failed
      · cases h'
    · rintro sn' malloc' (h' | h') hcan
      · cases h'
        exact serve_eq ho hcan
      · cases h'
  | @close t i hpc =>
    have hkeys := s.registry.keys_onNode (some i) key_closeSocketSpm
    refine ⟨⟨h.sound.onNode (some i) key_closeSocketSpm, ?_⟩, nofun, .inl hkeys, nofun, ?_, ?_⟩
    · intro e he
      exact (congrArg (·[e.2]?) hkeys).trans (h.served e he)
    · rintro _ (h' | h') <;> cases h'
    · rintro _ _ (h' | h') <;> cases h'
  | @set t sn vpn flag malloc node r hpc hr =>
    obtain ⟨node', r₁, ho, hr'⟩ := setDeviceSNVPN_obtains h.sound sn vpn flag malloc
    obtain ⟨rfl, rfl⟩ := Prod.mk.inj (Option.some.inj (hr'.symm.trans hr))
    have hkey := fun node => DataSpm.key_setVpn node vpn flag
    have hkeys := r₁.keys_onNode node' hkey
    refine ⟨⟨(ho.sound h.sound).onNode node' hkey, h.served_serve ho hkeys⟩, nofun,
      keys_eq ho hkeys, nofun, ?_, ?_⟩
    · rintro sn' (h' | h') hnew
      · cases h'
      · cases h'
        cases ho with
        | found hi => exact absurd (List.mem_of_getElem? hi) hnew
        | added _ hmalloc _ => exact absurd hmalloc (by simp)
        | failed _ _ => rfl
    · rintro sn' malloc' (h' | h') hcan
      · cases h'
      · cases h'
        exact serve_eq ho hcan
  | undefinedGet hpc hr =>
    obtain ⟨_, _, hr', _⟩ := findOrAdd_obtains h.sound _ initDataSpm _
    exact absurd (hr'.symm.trans hr) (by simp)
  | undefinedSet hpc hr =>
    obtain ⟨_, _, _, hr'⟩ := setDeviceSNVPN_obtains h.sound _ _ _ _
    exact absurd (hr'.symm.trans hr) (by simp)

end Inv

theorem reachable_inv {s : State} (hs : machine.Reachable s) : Inv s := by
  apply hs.invariant
  · rintro s ⟨hr, -, hserved⟩
    refine ⟨hr ▸ sound_connectToMysqlInit, ?_⟩
    rw [hserved]
    nofun
  · intro s a s' _ hi hstep
    exact (hi.step hstep).1

/-- In every reachable state of any interleaving the list is a well-formed circular list of
all nodes in the order of their allocation, no two nodes have the same key, and all calls
with one key got one node, which still carries the key. Every step keeps the nodes there
are, and a rejected serial number or a failed allocation changes nothing. -/
theorem registry_unique_key_store {s : State} (hs : machine.Reachable s) :
    CircularList s.registry.next s.registry.prev (List.range s.registry.nodes.length) ∧
    s.registry.keys.Nodup ∧
    (∀ key i, (key, i) ∈ s.served → s.registry.keys[i]? = some key) ∧
    (∀ key i j, (key, i) ∈ s.served → (key, j) ∈ s.served → i = j) ∧
    ∀ a s', machine.step s a s' → Kept s a s' := by
  have h := reachable_inv hs
  refine ⟨h.sound.ring, h.sound.distinct, fun key i he => h.served _ he, ?_, ?_⟩
  · intro key i j hi hj
    exact h.sound.index_unique (h.served _ hi) (h.served _ hj)
  · intro a s' hstep
    exact (h.step hstep).2

/-- The run in which one thread has asked for one device. -/
theorem registry_unique_key_store_one_call :
    ∃ s, machine.Reachable s ∧ s.served = [(text "172150210000937", 0)] ∧
      s.registry.keys[0]? = some (text "172150210000937") ∧ s.registry.keys.Nodup := by
  let sn : SnArg := ⟨text "172150210000937", by decide⟩
  let s₀ : State := ⟨connectToMysqlInit, fun _ => .idle, []⟩
  have h₁ : machine.step s₀ .call
      { s₀ with threads := Function.update s₀.threads 0 (.getting sn) } :=
    .callGet rfl (by decide)
  obtain ⟨node, r, hr, ho⟩ := findOrAdd_obtains sound_connectToMysqlInit sn initDataSpm true
  have hs := ((System.Reachable.start (M := machine) ⟨rfl, fun _ => rfl, rfl⟩).next h₁).next
    (.get (Function.update_self ..) hr)
  have hserved : s₀.serve sn node = [(text "172150210000937", 0)] := by
    cases ho with
    | found hi => cases hi
    | added hnew hmalloc hkey => rfl
    | failed hnew hmalloc => cases hmalloc
  obtain ⟨-, hnodup, hkeys, -⟩ := registry_unique_key_store hs
  refine ⟨_, hs, hserved, hkeys _ _ ?_, hnodup⟩
  show _ ∈ s₀.serve sn node
  rw [hserved]
  exact List.mem_singleton_self _

end Tdm.Common
