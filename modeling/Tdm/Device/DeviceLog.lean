import Tdm.Device.Independence
import Tdm.Device.LogBounds

/-!
# The log of a device

What the handlers log for a device is a stream of records. `audit` says from the messages alone which
records these are: their kinds, their order and their times. It needs one number besides the messages,
the time of the last logout that was logged, which the node keeps in `outtime` and which no other
command changes.
-/

namespace Tdm.Device

open Tdm.Lib Tdm.Common

/-! ## What is to be logged -/

/-- `VPN` of the `Release_Vpn` in a message. -/
def NodeData.releasedVpn : Field 256 := ⟨16, 50, by decide⟩

/-- The records of a message, when the last logout was logged at `last`. -/
def messageKinds (last : ℤ) (m : Message) : List LogKind :=
  match m.cmd with
  | .cmdTT => [.tt]
  | .hbNew => [.heart]
  | .cfmd => [.confirm]
  | .localSta => [.flow]
  | .logout => if m.world.now - last ≤ 25 then [] else [.logOut]
  | .vpnReleaseCmd =>
    if ((m.para.buff.read NodeData.releasedVpn).takeWhile (· ≠ 0)).length ≤ 5 then [] else [.vpn]
  | .accessAuth | .simfileRequest | .ip | .hb | .lowVsim | .deal | .vpnProfileRqst | .adn
  | .getApnInfo | .autonet => []

/-- The time of the last logout that was logged, after a message. -/
def lastLogged (last : ℤ) (m : Message) : ℤ :=
  if m.cmd = .logout ∧ 25 < m.world.now - last then m.world.lastTime else last

/-- A message of a device that has no node yet is handled with a new one, if there is memory for it.
Messages with an invalid serial number are not handled. -/
def auditStep (last : Option ℤ) (m : Message) : Option ℤ × List (LogKind × ℤ) :=
  if isValidSN m.para.snArg.bytes then
    if last.isSome ∨ m.world.malloc = true then
      (some (lastLogged (last.getD 0) m),
        (messageKinds (last.getD 0) m).map fun kind => (kind, m.world.lastTime))
    else (none, [])
  else (last, [])

/-- The records of the messages of one device, with their times. -/
def audit : Option ℤ → List Message → List (LogKind × ℤ) := KeyedStore.specRun auditStep

/-- `outtime` of the device, if it has a node. -/
def outtimeOf (entry : Option DataSpm) : Option ℤ :=
  entry.map fun node => node.mem.getInt Member.outtime

/-! ## What is logged -/

/-- The handler that logs. -/
def handleLogs (node : DataSpm) (m : Message) : Option (DataSpm × List LogCall) :=
  (codingWithDateLogged node m.cmd m.world).map fun logged => (logged.node, logged.calls)

/-- `Coding_With_CMD_Data_Pool` as a store of devices whose output is the log. -/
def logs : KeyedStore Registry Message (List UInt8) (Option DataSpm) LogCall := poolStore handleLogs

theorem logs_apart : logs.Apart Registry.Sound Message.Keeps := by
  refine poolStore_apart fun node m x hm hkey hrun => ?_
  obtain ⟨logged, hlogged, rfl⟩ := Option.map_eq_some_iff.mp hrun
  show logged.node.key = m.key
  rw [(codingWithDate_identity (codingWithDate_of_logged hlogged)).1, hkey]
  exact hm

/-! ## One message -/

section Step
variable {node : DataSpm} {m : Message} {logged : Logged}

theorem outtime_disjoint {cmd : Cmd} (h : cmd ≠ .logout) :
    ∀ g ∈ handlerFields cmd, g.Disjoint Member.outtime := by
  cases cmd with
  | logout => exact absurd rfl h
  | _ => decide

/-- The message is stored where `outtime` is not. -/
theorem outtime_receive (node : DataSpm) (para : NodeData) :
    (receive (closeSocketFd node Member.socketSpm) para).mem.getInt Member.outtime =
      node.mem.getInt Member.outtime := by
  have hclosed := (touches_closeSocketFd node (List.mem_singleton_self _)).getNat_eq
    (f := Member.outtime) (by decide)
  have hreceived := (touches_receive (closeSocketFd node Member.socketSpm) para).getNat_eq
    (f := Member.outtime) (by decide)
  rw [CArray.getInt, hreceived, hclosed]
  rfl

/-- Only a logout that is logged changes `outtime`. -/
theorem outtime_logged (h : codingWithDateLogged node m.cmd m.world = some logged) :
    logged.node.mem.getInt Member.outtime = lastLogged (node.mem.getInt Member.outtime) m := by
  have hrun := codingWithDate_of_logged h
  unfold lastLogged
  by_cases hcmd : m.cmd = .logout
  · rw [hcmd] at hrun
    obtain ⟨cleared, htouches, hplain, -⟩ := logOut_phases node m.world
    rw [codingWithDate, hplain] at hrun
    split at hrun
    · rename_i hsoon
      obtain ⟨hnode, -⟩ := Prod.mk.inj (Option.some.inj hrun)
      rw [← hnode, if_neg (by omega), CArray.getInt, htouches.getNat_eq (by decide)]
      rfl
    · rename_i hlate
      obtain ⟨hnode, -⟩ := Prod.mk.inj (Option.some.inj hrun)
      have hclosed := (touches_closeSocketFd (cleared.setInt Member.outtime m.world.now)
        (List.mem_singleton_self _)).getNat_eq (f := Member.outtime) (by decide)
      rw [← hnode, if_pos ⟨hcmd, by omega⟩, CArray.getInt, hclosed]
      show toSigned 64 ((cleared.mem.setInt Member.outtime m.world.now).getNat Member.outtime) = _
      rw [CArray.getNat_setInt_self]
      rfl
  · have hsame := (codingWithDate_touches hrun).getNat_eq (f := Member.outtime)
      (outtime_disjoint hcmd)
    rw [if_neg (fun h => hcmd h.1), CArray.getInt, hsame]
    rfl

/-- The kinds of the records can be told from the message. -/
theorem loggedKinds_receive (node : DataSpm) (m : Message) :
    loggedKinds (receive (closeSocketFd node Member.socketSpm) m.para) m.cmd m.world =
      messageKinds (node.mem.getInt Member.outtime) m := by
  unfold loggedKinds messageKinds
  rw [outtime_receive]
  have hbuff := (receive_spec (closeSocketFd node Member.socketSpm) m.para).1
  have hvpn : (receive (closeSocketFd node Member.socketSpm) m.para).mem.read InBuff.releasedVpn =
      m.para.buff.read NodeData.releasedVpn := by
    rw [CArray.read_within _ (f := Member.buff) (by decide) (by decide), hbuff]
    rfl
  cases m.cmd with
  | vpnReleaseCmd =>
    dsimp only
    rw [hvpn]
  | _ => rfl

/-- A node and the specification, side by side. -/
theorem audit_node {entry : Option DataSpm} {out : List LogCall}
    (h : poolNode handleLogs node m = some (entry, out)) :
    outtimeOf entry = some (lastLogged (node.mem.getInt Member.outtime) m) ∧
      List.Forall₂ (fun call e => LogsRecord call e.1 e.2) out
        ((messageKinds (node.mem.getInt Member.outtime) m).map
          fun kind => (kind, m.world.lastTime)) := by
  obtain ⟨x, hx, heq⟩ := Option.map_eq_some_iff.mp h
  obtain ⟨logged, hlogged, rfl⟩ := Option.map_eq_some_iff.mp hx
  cases heq
  have htime := outtime_logged hlogged
  have hlogs := logs_codingWithDate hlogged
  rw [outtime_receive] at htime
  rw [loggedKinds_receive] at hlogs
  exact ⟨congrArg some htime, List.forall₂_map_right_iff.mpr hlogs⟩

theorem audit_serve (entry : Option DataSpm) (last : Option ℤ) (m : Message)
    (entry' : Option DataSpm) (out : List LogCall) (hlast : outtimeOf entry = last)
    (h : logs.serve entry m = some (entry', out)) :
    outtimeOf entry' = (auditStep last m).1 ∧
      List.Forall₂ (fun call e => LogsRecord call e.1 e.2) out (auditStep last m).2 := by
  subst hlast
  change poolServe handleLogs entry m = some (entry', out) at h
  unfold poolServe at h
  unfold auditStep
  split at h
  · rename_i hvalid
    rw [if_pos hvalid]
    cases entry with
    | some node =>
      rw [if_pos (.inl rfl)]
      exact audit_node h
    | none =>
      dsimp only at h
      split at h
      · rename_i hmalloc
        have hnew : (initDataSpm.copySN m.para.snArg).mem.getInt Member.outtime = 0 := by
          rw [CArray.getInt, CArray.getNat, DataSpm.read_copySN _ _ (by decide)]
          decide +kernel
        have hnode := audit_node h
        rw [hnew] at hnode
        rw [if_pos (.inr hmalloc)]
        exact hnode
      · rename_i hmalloc
        cases h
        rw [if_neg (by simpa [outtimeOf] using hmalloc)]
        exact ⟨rfl, .nil⟩
  · rename_i hvalid
    cases h
    rw [if_neg hvalid]
    exact ⟨rfl, .nil⟩

end Step

/-! ## Logouts -/

section Logouts
variable {m : Message}

/-- No message has more than one record. -/
theorem messageKinds_cases (t : ℤ) (m : Message) :
    messageKinds t m = [] ∨ ∃ kind, messageKinds t m = [kind] := by
  unfold messageKinds
  cases m.cmd with
  | cmdTT | hbNew | cfmd | localSta => exact .inr ⟨_, rfl⟩
  | logout | vpnReleaseCmd =>
    dsimp only
    split
    · exact .inl rfl
    · exact .inr ⟨_, rfl⟩
  | _ => exact .inl rfl

theorem logOut_mem_messageKinds {t : ℤ} (h : .logOut ∈ messageKinds t m) :
    m.cmd = .logout ∧ 25 < m.world.now - t := by
  unfold messageKinds at h
  cases hcmd : m.cmd with
  | logout =>
    rw [hcmd] at h
    dsimp only at h
    split at h
    · cases h
    · exact ⟨rfl, by omega⟩
  | vpnReleaseCmd =>
    rw [hcmd] at h
    dsimp only at h
    split at h <;> simp at h
  | _ =>
    rw [hcmd] at h
    simp at h

/-- Two records, one after the other: if both are of a logout, more than 25 seconds are between them. -/
def LogoutsApart (a b : LogKind × ℤ) : Prop :=
  a.1 = .logOut → b.1 = .logOut → a.2 + 25 < b.2

/-- A logout is logged only if the last one that was is more than 25 seconds ago, and it is the last one
from then on. -/
theorem auditStep_logouts (last : Option ℤ) (htime : m.world.lastTime = m.world.now) :
    last.getD 0 ≤ (auditStep last m).1.getD 0 ∧ (auditStep last m).2.Pairwise LogoutsApart ∧
      ∀ e ∈ (auditStep last m).2, e.1 = .logOut →
        last.getD 0 + 25 < e.2 ∧ (auditStep last m).1.getD 0 = e.2 := by
  unfold auditStep
  split_ifs with hvalid hnode
  · refine ⟨?_, ?_, fun e he hlogout => ?_⟩
    · show _ ≤ lastLogged (last.getD 0) m
      unfold lastLogged
      split <;> omega
    · rcases messageKinds_cases (last.getD 0) m with hnone | ⟨kind, hkind⟩
      · rw [hnone]
        exact .nil
      · rw [hkind]
        exact List.pairwise_singleton _ _
    · obtain ⟨kind, hkind, rfl⟩ := List.mem_map.mp he
      obtain rfl : kind = .logOut := hlogout
      have hlate := logOut_mem_messageKinds hkind
      refine ⟨?_, if_pos hlate⟩
      show last.getD 0 + 25 < m.world.lastTime
      omega
  · cases last with
    | none => exact ⟨le_rfl, .nil, List.forall_mem_nil _⟩
    | some t => exact absurd (.inl rfl) hnode
  · exact ⟨le_rfl, .nil, List.forall_mem_nil _⟩

theorem audit_logouts {ms : List Message} (htime : ∀ m ∈ ms, m.world.lastTime = m.world.now)
    (last : Option ℤ) :
    (∀ e ∈ audit last ms, e.1 = .logOut → last.getD 0 + 25 < e.2) ∧
      (audit last ms).Pairwise LogoutsApart := by
  induction ms generalizing last with
  | nil => exact ⟨List.forall_mem_nil _, .nil⟩
  | cons m ms ih =>
    obtain ⟨hmono, hone, hstep⟩ := auditStep_logouts last (htime m List.mem_cons_self)
    obtain ⟨hrest, hapart⟩ := ih (fun m' hm' => htime m' (.tail m hm')) (auditStep last m).1
    refine ⟨fun e he hlogout => ?_, List.pairwise_append.mpr ⟨?_, hapart, ?_⟩⟩
    · rcases List.mem_append.mp he with he | he
      · exact (hstep e he hlogout).1
      · have hlater := hrest e he hlogout
        omega
    · exact hone
    · intro a ha b hb halogout hblogout
      rw [← (hstep a ha halogout).2]
      exact hrest b hb hblogout

end Logouts

/-! ## The log -/

/-- Each call with its record. -/
theorem exists_records {out : List LogCall} {es : List (LogKind × ℤ)}
    (h : List.Forall₂ (fun call e => LogsRecord call e.1 e.2) out es) :
    ∃ rs : List (QuotedRecord UInt8), out.map LogCall.line = rs.map logFormat.render ∧
      rs.map stamp = es.map fun e => (e.1.header, decimalInt e.2) := by
  induction h with
  | nil => exact ⟨[], rfl, rfl⟩
  | cons hcall _ ih =>
    obtain ⟨r, hline, hstamp⟩ := hcall
    obtain ⟨rs, hlines, hstamps⟩ := ih
    exact ⟨r :: rs, congrArg₂ List.cons hline hlines, congrArg₂ List.cons hstamp hstamps⟩

/-- Without the log the messages are handled as before. -/
theorem devices_step_of_logs (r : Registry) (m : Message) (r' : Registry) (out : List LogCall)
    (h : logs.step r m = some (r', out)) : ∃ writes, devices.step r m = some (r', writes) := by
  rw [devices_eq]
  change poolStep handleLogs r m = some (r', out) at h
  show ∃ writes, poolStep handleWrites r m = some (r', writes)
  unfold poolStep at h ⊢
  obtain ⟨⟨found, r₁⟩, hget, h⟩ := Option.bind_eq_some_iff.mp h
  rw [hget, Option.bind_eq_bind, Option.bind_some]
  cases found with
  | none =>
    cases h
    exact ⟨[], rfl⟩
  | some i =>
    obtain ⟨node, hnode, h⟩ := Option.bind_eq_some_iff.mp h
    obtain ⟨x, hx, h⟩ := Option.bind_eq_some_iff.mp h
    obtain ⟨logged, hlogged, rfl⟩ := Option.map_eq_some_iff.mp hx
    cases h
    simp only [hnode, Option.bind_eq_bind, Option.bind_some, handleWrites,
      codingWithDate_of_logged hlogged, Option.map_some]
    exact ⟨_, rfl⟩

/-- A logout at the time given. -/
def logoutAt (now : ℤ) : Message where
  cmd := .logout
  para := ⟨Cmd.logout.tag.toNat, 9, 25, (CArray.zero 16).overlay (text "172150210000937") (by decide),
    .zero 12, (CArray.zero 256).overlay (text "172150210000937" ++ 0 :: List.replicate 9 0x46)
      (by decide)⟩
  world := { World.silent with now := now }

end Tdm.Device
