import Tdm.Common.LogChannel

/-!
# The descriptors of the log connections

Each connection of `Logs_Fd` is an open descriptor of its own, and nobody but a call of
`Send_Logs_Data` that has its lock closes it. The calls never close a descriptor of another part of
the process, although descriptors are handed out again. A connection that the log server refuses
leaves its descriptor open for ever, since `ConnectToServerTimeOut` forgets it: these are the only
descriptors that are lost.
-/

namespace Tdm.Common.Log

open Tdm.Lib

/-- The descriptor `ConnectToServerTimeOut` opens. -/
def opened : Connect → Option ℤ
  | .socketFailed => none
  | .refused fd | .connected fd => some fd

/-- The descriptor that is open and that nobody knows any more. A caller does not use descriptor 0. -/
def lost : Connect → Option ℤ
  | .socketFailed => none
  | .refused fd => some fd
  | .connected fd => if 0 < fd then none else some fd

/-- `ConnectToMysqlInit` with the answers `c`, in a process with other open descriptors. -/
def Start.connected (others : Set ℤ) (c : Fin socketNum → Connect)
    (hfresh : ∀ k fd, opened (c k) = some fd → fd ∉ others)
    (hdistinct : ∀ k k' fd, opened (c k) = some fd → opened (c k') = some fd → k = k') : Start where
  fd k := connectToServerTimeOut (c k)
  world := ⟨{fd | ∃ k, opened (c k) = some fd}, others⟩
  owns := by
    have hopened : ∀ k, 0 < connectToServerTimeOut (c k) →
        opened (c k) = some (connectToServerTimeOut (c k)) := by
      intro k hk
      cases hc : c k with
      | connected fd => rfl
      | socketFailed | refused fd =>
        rw [hc] at hk
        exact absurd hk (by simp [connectToServerTimeOut])
    refine ⟨fun k hk => ⟨k, hopened k hk⟩, fun k k' hk heq => ?_, fun x ⟨k, hx⟩ => hfresh k x hx⟩
    exact hdistinct k k' _ (hopened k hk) (heq ▸ hopened k' (heq ▸ hk))

/-- The descriptors that are lost: those lost at the start, and those of the connections that failed
since. -/
def Leaked (start : Start) (s : LogState) (x : ℤ) : Prop :=
  (x ∈ start.world.mine ∧ ∀ k, 0 < start.fd k → start.fd k ≠ x) ∨
    ∃ k c a, (c, LogIo.connect a) ∈ s.history k ∧ lost a = some x

/-- The open descriptors of the log connections are those in use and those that are lost. -/
structure Accounts (start : Start) (s : LogState) : Prop where
  owns : s.world.Owns s.resource
  account : ∀ x, x ∈ s.world.mine ↔ (∃ k, 0 < s.resource k ∧ s.resource k = x) ∨ Leaked start s x
  apart : ∀ k, 0 < s.resource k → ¬ Leaked start s (s.resource k)

/-! ## One step -/

/-- What a step of a call does to its connection and to the open descriptors. -/
theorem step_effect {p : LogPc} {fd fd' : ℤ} {o : Option LogIo} {q : Option LogPc} {w w' : Fds}
    (hstep : logSection.step p fd o fd' q) (hworld : logService.World w o w') :
    (fd' = fd ∧ w' = w ∧ ∀ a, o ≠ some (.connect a)) ∨
      (∃ a, o = some (.connect a) ∧ fd ≤ 0 ∧ fd' = connectToServerTimeOut a ∧
        w.Allows (.connect a) w') ∨
      (o = some (.close fd) ∧ 0 < fd ∧ fd' = 0 ∧ w' = ⟨w.mine \ {fd}, w.others \ {fd}⟩) := by
  obtain ⟨a, ha⟩ := hstep
  have hclose : closeSocketFd fd = (o, fd') → (fd' = fd ∧ w' = w ∧ ∀ a, o ≠ some (.connect a)) ∨
      o = some (.close fd) ∧ 0 < fd ∧ fd' = 0 ∧ w' = ⟨w.mine \ {fd}, w.others \ {fd}⟩ := by
    unfold closeSocketFd
    intro heq
    split at heq
    · injection heq with ho hfd
      subst ho hfd
      exact .inr ⟨rfl, ‹_›, rfl, hworld⟩
    · injection heq with ho hfd
      subst ho hfd
      exact .inl ⟨rfl, hworld, fun _ h => by cases h⟩
  cases p with
  | lk count =>
    have heq : reConectJavaServer fd a.connect = (o, (reConectJavaServer fd a.connect).2.1, fd') := by
      simp only [LogPc.next, Prod.mk.injEq] at ha
      rw [← ha.1, ← ha.2.1]
    unfold reConectJavaServer at heq
    split at heq
    · injection heq with ho hrest
      injection hrest with _ hfd
      subst ho hfd
      exact .inr (.inl ⟨a.connect, rfl, ‹_›, rfl, hworld⟩)
    · injection heq with ho hrest
      injection hrest with _ hfd
      subst ho hfd
      exact .inl ⟨rfl, hworld, fun _ h => by cases h⟩
  | send count | recv =>
    injection ha with ho hrest
    injection hrest with hfd
    subst ho hfd
    exact .inl ⟨rfl, hworld, fun _ h => by cases h⟩
  | closeUnsent count | closeUnanswered =>
    have heq : closeSocketFd fd = (o, fd') := by
      simp only [LogPc.next, Prod.mk.injEq] at ha
      rw [← ha.1, ← ha.2.1]
    exact (hclose heq).imp_right .inr

/-- The ways `ConnectToServerTimeOut` ends: no descriptor, one that is lost, or one for the caller. -/
theorem connect_cases (a : Connect) :
    (opened a = none ∧ lost a = none ∧ connectToServerTimeOut a ≤ 0) ∨
      (∃ x, opened a = some x ∧ lost a = some x ∧ connectToServerTimeOut a ≤ 0) ∨
      ∃ x, opened a = some x ∧ lost a = none ∧ 0 < x ∧ connectToServerTimeOut a = x := by
  cases a with
  | socketFailed => exact .inl ⟨rfl, rfl, by decide⟩
  | refused fd => exact .inr (.inl ⟨fd, rfl, rfl, by simp [connectToServerTimeOut]⟩)
  | connected fd =>
    by_cases h : 0 < fd
    · exact .inr (.inr ⟨fd, rfl, if_pos h, h, rfl⟩)
    · exact .inr (.inl ⟨fd, rfl, if_neg h, not_lt.mp h⟩)

theorem allows_connect {w w' : Fds} {a : Connect} (h : w.Allows (.connect a) w') :
    (opened a = none → w' = w) ∧
      ∀ x, opened a = some x → w.Fresh x ∧ w' = { w with mine := insert x w.mine } := by
  cases a with
  | socketFailed => exact ⟨fun _ => h, nofun⟩
  | refused fd | connected fd =>
    refine ⟨nofun, fun x hx => ?_⟩
    injection hx with hx
    exact hx ▸ h

section Update

variable {start : Start} {s s' : LogState} {k : Fin socketNum} {c : ℕ} {r : ℤ}

/-- What happens on one connection loses only what it loses itself. -/
theorem leaked_iff (start : Start) {o : Option LogIo}
    (hhistory : s'.history = Function.update s.history k (s.history k ++ o.toList.map (c, ·))) (x : ℤ) :
    Leaked start s' x ↔ Leaked start s x ∨ ∃ a, o = some (.connect a) ∧ lost a = some x := by
  unfold Leaked
  rw [or_assoc, hhistory]
  refine or_congr_right ?_
  constructor
  · rintro ⟨k', c', a, hmem, hlost⟩
    by_cases hk : k' = k
    · subst hk
      rw [Function.update_self] at hmem
      rcases List.mem_append.mp hmem with hold | hnew
      · exact .inl ⟨k', c', a, hold, hlost⟩
      · obtain ⟨e, he, heq⟩ := List.mem_map.mp hnew
        injection heq with _ heq
        subst heq
        exact .inr ⟨a, Option.mem_toList.mp he, hlost⟩
    · rw [Function.update_of_ne hk] at hmem
      exact .inl ⟨k', c', a, hmem, hlost⟩
  · rintro (⟨k', c', a, hmem, hlost⟩ | ⟨a, rfl, hlost⟩)
    · refine ⟨k', c', a, ?_, hlost⟩
      by_cases hk : k' = k
      · subst hk
        rw [Function.update_self]
        exact List.mem_append_left _ hmem
      · rw [Function.update_of_ne hk]
        exact hmem
    · refine ⟨k, c, a, ?_, hlost⟩
      rw [Function.update_self]
      exact List.mem_append_right _ (List.mem_singleton.mpr rfl)

/-- The connections in use, when one of them has changed. -/
theorem used_update {res : Fin socketNum → ℤ} (x : ℤ) :
    (∃ k', 0 < Function.update res k r k' ∧ Function.update res k r k' = x) ↔
      (∃ k', k' ≠ k ∧ 0 < res k' ∧ res k' = x) ∨ (0 < r ∧ r = x) := by
  constructor
  · rintro ⟨k', hpos, heq⟩
    by_cases hk : k' = k
    · subst hk
      rw [Function.update_self] at hpos heq
      exact .inr ⟨hpos, heq⟩
    · rw [Function.update_of_ne hk] at hpos heq
      exact .inl ⟨k', hk, hpos, heq⟩
  · rintro (⟨k', hk, hpos, heq⟩ | ⟨hpos, heq⟩)
    · refine ⟨k', ?_⟩
      rw [Function.update_of_ne hk]
      exact ⟨hpos, heq⟩
    · refine ⟨k, ?_⟩
      rw [Function.update_self]
      exact ⟨hpos, heq⟩

/-- A connection changes: the descriptor it had is closed, it gets a new one, or one is lost (`L`). -/
theorem Accounts.update (h : Accounts start s) {L : ℤ → Prop}
    (hresource : s'.resource = Function.update s.resource k r)
    (hothers : s'.world.others = s.world.others)
    (hleaked : ∀ x, Leaked start s' x ↔ Leaked start s x ∨ L x)
    (hmine : ∀ x, x ∈ s'.world.mine ↔
      (x ∈ s.world.mine ∧ ¬ (0 < s.resource k ∧ s.resource k = x)) ∨ (0 < r ∧ r = x) ∨ L x)
    (hnew : 0 < r → s.world.Fresh r ∧ ¬ L r) (hlost : ∀ x, L x → s.world.Fresh x) :
    Accounts start s' := by
  have hold : ∀ k', k' ≠ k → s'.resource k' = s.resource k' := by
    intro k' hk'
    rw [hresource, Function.update_of_ne hk']
  have hself : s'.resource k = r := by rw [hresource, Function.update_self]
  have hkept : ∀ k', k' ≠ k → 0 < s.resource k' → ¬ L (s.resource k') :=
    fun k' _ hpos hL => (hlost _ hL).2.1 (h.owns.mine k' hpos)
  -- the descriptors that the other connections use are not the one of `k`, and not lost
  have haccount : ∀ x, x ∈ s'.world.mine ↔
      (∃ k', 0 < s'.resource k' ∧ s'.resource k' = x) ∨ Leaked start s' x := by
    intro x
    rw [hmine, hleaked, h.account, hresource, used_update]
    constructor
    · rintro (⟨⟨k', hpos, heq⟩ | hleak, hnot⟩ | hrest | hL)
      · have hk : k' ≠ k := fun he => hnot (he ▸ ⟨hpos, heq⟩)
        exact .inl (.inl ⟨k', hk, hpos, heq⟩)
      · exact .inr (.inl hleak)
      · exact .inl (.inr hrest)
      · exact .inr (.inr hL)
    · rintro ((⟨k', hk, hpos, heq⟩ | hrest) | hleak | hL)
      · refine .inl ⟨.inl ⟨k', hpos, heq⟩, ?_⟩
        rintro ⟨-, hsame⟩
        exact hk (h.owns.distinct k' k hpos (heq.trans hsame.symm))
      · exact .inr (.inl hrest)
      · refine .inl ⟨.inr hleak, ?_⟩
        rintro ⟨hpos, rfl⟩
        exact h.apart k hpos hleak
      · exact .inr (.inr hL)
  refine ⟨⟨fun k' hpos => (haccount _).mpr (.inl ⟨k', hpos, rfl⟩), ?_, ?_⟩, haccount, ?_⟩
  · intro k' k'' hpos heq
    have hfresh : ∀ k', k' ≠ k → 0 < s'.resource k' → s'.resource k' = s'.resource k → False := by
      intro k' hk' hpos heq
      have hr : 0 < r := by rw [← hself, ← heq]; exact hpos
      rw [hold k' hk'] at hpos heq
      rw [hself] at heq
      exact (hnew hr).1.2.1 (heq ▸ h.owns.mine k' hpos)
    by_cases hk' : k' = k <;> by_cases hk'' : k'' = k
    · exact hk'.trans hk''.symm
    · subst hk'
      exact (hfresh k'' hk'' (heq ▸ hpos) heq.symm).elim
    · subst hk''
      exact (hfresh k' hk' hpos heq).elim
    · rw [hold k' hk'] at hpos heq
      rw [hold k'' hk''] at heq
      exact h.owns.distinct k' k'' hpos heq
  · intro x hx
    rw [hothers]
    rcases (hmine x).mp hx with ⟨hx, -⟩ | ⟨hpos, rfl⟩ | hL
    · exact h.owns.disjoint x hx
    · exact (hnew hpos).1.2.2
    · exact (hlost x hL).2.2
  · intro k' hpos
    rw [hleaked, not_or]
    by_cases hk' : k' = k
    · subst hk'
      rw [hself] at hpos ⊢
      obtain ⟨hfresh, hnot⟩ := hnew hpos
      exact ⟨fun hleak => hfresh.2.1 ((h.account r).mpr (.inr hleak)), hnot⟩
    · rw [hold k' hk'] at hpos ⊢
      exact ⟨h.apart k' hpos, hkept k' hk' hpos⟩

end Update

/-- A step of a call under its lock. -/
theorem Accounts.body {start : Start} {s s' : LogState} (h : Accounts start s) {k : Fin socketNum}
    {c : ℕ} {p : LogPc} {o : Option LogIo} {r : ℤ} {q : Option LogPc}
    (hstep : logSection.step p (s.resource k) o r q)
    (hworld : logService.World s.world o s'.world)
    (hresource : s'.resource = Function.update s.resource k r)
    (hhistory : s'.history = Function.update s.history k (s.history k ++ o.toList.map (c, ·))) :
    Accounts start s' ∧ s'.world.others = s.world.others := by
  have hleaked := leaked_iff start hhistory
  rcases step_effect hstep hworld with ⟨rfl, hw, ho⟩ | ⟨a, rfl, hfd, rfl, hallows⟩ |
    ⟨rfl, hfd, rfl, hw⟩
  · -- nothing is opened or closed
    have hsame : ∀ x, Leaked start s' x ↔ Leaked start s x := by
      intro x
      rw [hleaked, or_iff_left]
      rintro ⟨a, ha, -⟩
      exact ho a ha
    rw [Function.update_eq_self] at hresource
    refine ⟨⟨?_, ?_, ?_⟩, by rw [hw]⟩
    · rw [hw, hresource]
      exact h.owns
    · intro x
      rw [hw, hresource, hsame]
      exact h.account x
    · intro k'
      rw [hresource, hsame]
      exact h.apart k'
  · have hlost : ∀ x, Leaked start s' x ↔ Leaked start s x ∨ lost a = some x := by
      intro x
      rw [hleaked]
      refine or_congr_right ⟨?_, fun hx => ⟨a, rfl, hx⟩⟩
      rintro ⟨a', ha', hx⟩
      injection ha' with ha'
      injection ha' with ha'
      exact ha' ▸ hx
    have hunused : ¬ 0 < s.resource k := not_lt.mpr hfd
    obtain ⟨hnone, hsome⟩ := allows_connect hallows
    rcases connect_cases a with ⟨hopen, hno, hneg⟩ | ⟨x, hopen, hyes, hneg⟩ | ⟨x, hopen, hno, hpos, heq⟩
    · have hw := hnone hopen
      refine ⟨h.update hresource (by rw [hw]) hlost ?_ ?_ ?_, by rw [hw]⟩
      · intro x
        simp [hw, hunused, hno, not_lt.mpr hneg]
      · exact fun hpos => absurd hpos (not_lt.mpr hneg)
      · simp [hno]
    · obtain ⟨hfresh, hw⟩ := hsome x hopen
      refine ⟨h.update hresource (by rw [hw]) hlost ?_ ?_ ?_, by rw [hw]⟩
      · intro y
        simp [hw, hunused, hyes, not_lt.mpr hneg, or_comm, eq_comm]
      · exact fun hpos => absurd hpos (not_lt.mpr hneg)
      · intro y hy
        rw [hyes] at hy
        injection hy with hy
        exact hy ▸ hfresh
    · obtain ⟨hfresh, hw⟩ := hsome x hopen
      refine ⟨h.update hresource (by rw [hw]) hlost ?_ ?_ ?_, by rw [hw]⟩
      · intro y
        simp [hw, hunused, hno, heq, hpos, or_comm, eq_comm]
      · rw [heq, hno]
        exact fun _ => ⟨hfresh, nofun⟩
      · simp [hno]
  · have hothers : s'.world.others = s.world.others := by
      rw [hw]
      exact Set.sdiff_singleton_eq_self (h.owns.disjoint _ (h.owns.mine k hfd))
    refine ⟨h.update (L := fun _ => False) hresource hothers ?_ ?_ ?_ ?_, hothers⟩
    · intro x
      rw [hleaked]
      refine or_congr_right (iff_of_false ?_ id)
      rintro ⟨a, ha, -⟩
      cases ha
    · intro x
      simp [hw, hfd, eq_comm]
    · exact fun hpos => absurd hpos (lt_irrefl 0)
    · exact fun _ hx => hx.elim

theorem Accounts.start (start : Start) : Accounts start (lockStart start.fd start.world) := by
  have hleaked : ∀ x, Leaked start (lockStart start.fd start.world) x ↔
      x ∈ start.world.mine ∧ ∀ k, 0 < start.fd k → start.fd k ≠ x := by
    intro x
    refine or_iff_left ?_
    rintro ⟨k, c, a, hmem, -⟩
    cases hmem
  refine ⟨start.owns, fun x => ?_, fun k hpos => ?_⟩
  · rw [hleaked]
    constructor
    · intro hx
      by_cases hused : ∃ k, 0 < start.fd k ∧ start.fd k = x
      · exact .inl hused
      · exact .inr ⟨hx, fun k hpos heq => hused ⟨k, hpos, heq⟩⟩
    · rintro (⟨k, hpos, rfl⟩ | ⟨hx, -⟩)
      · exact start.owns.mine k hpos
      · exact hx
  · rw [hleaked]
    exact fun hx => hx.2 k hpos rfl

/-- The rest of the process opens or closes a descriptor. -/
theorem Accounts.drift {start : Start} {s : LogState} (h : Accounts start s) {w : Fds}
    (hw : s.world.Drifts w) : Accounts start { s with world := w } := by
  cases hw with
  | opens fd hfresh =>
    refine ⟨⟨h.owns.mine, h.owns.distinct, fun x hx hother => ?_⟩, h.account, h.apart⟩
    rcases Set.mem_insert_iff.mp hother with rfl | hother
    · exact hfresh.2.1 hx
    · exact h.owns.disjoint x hx hother
  | closes fd hfd =>
    exact ⟨⟨h.owns.mine, h.owns.distinct, fun x hx hother => h.owns.disjoint x hx hother.1⟩,
      h.account, h.apart⟩

/-- In every reachable state, for every interleaving: the connections in use are open descriptors of
their own; the open descriptors that the log connections have opened are those and the lost ones,
which are exactly the descriptors of connections that failed; and no call closes a descriptor of
another part of the process. -/
theorem log_descriptors_kept (start : Start) (s : LogState) (h : (logChannel start).Reachable s) :
    s.world.Owns s.resource ∧
      (∀ x, x ∈ s.world.mine ↔
        (∃ k, 0 < s.resource k ∧ s.resource k = x) ∨ Leaked start s x) ∧
      ∀ c s', LockStep logService s (.run c) s' → s'.world.others = s.world.others := by
  have hinv : Accounts start s := by
    refine h.invariant (I := Accounts start) ?_ ?_
    · rintro _ rfl
      exact Accounts.start start
    · intro s a s' _ hs hstep
      cases hstep with
      | call | lock | unlock => exact ⟨hs.owns, hs.account, hs.apart⟩
      | body c k p o r q w hc hstep hworld => exact (hs.body hstep hworld rfl rfl).1
      | drift w hw => exact hs.drift hw
  refine ⟨hinv.owns, hinv.account, fun c s' hstep => ?_⟩
  cases hstep with
  | lock | unlock => rfl
  | body c k p o r q w hc hstep hworld => exact (hinv.body hstep hworld rfl rfl).2

/-- After a refused connection its descriptor is open, and the connection does not have it. -/
theorem log_descriptors_kept_refused :
    ∃ s, (logChannel (.zeroed {0, 1, 2})).Reachable s ∧ s.resource 3 = -16 ∧
      (7 : ℤ) ∈ s.world.mine := by
  have hstart := System.Reachable.start (M := logChannel (.zeroed {0, 1, 2})) rfl
  have hlock := (hstart.next (.call 0 3 rfl)).next (.lock 0 3 rfl rfl)
  have hfresh : Fds.Fresh ⟨∅, {0, 1, 2}⟩ 7 := ⟨by decide, id, by simp⟩
  have hworld : logService.World ⟨∅, {0, 1, 2}⟩ (some (.connect (.refused 7)))
      ⟨insert 7 ∅, {0, 1, 2}⟩ := ⟨hfresh, rfl⟩
  have hs := hlock.next (.body 0 3 (.lk 0) _ (-16) none _ rfl ⟨⟨.refused 7, 0⟩, rfl⟩ hworld)
  refine ⟨_, hs, rfl, ((log_descriptors_kept (.zeroed {0, 1, 2}) _ hs).2.1 7).mpr (.inr (.inr ?_))⟩
  exact ⟨3, 0, .refused 7, List.mem_singleton.mpr rfl, rfl⟩

end Tdm.Common.Log
