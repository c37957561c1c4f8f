import Tdm.Device.Footprints
import Tdm.Device.Independence

/-!
# What a login grants stays in force

The deal of a login leaves texts and flags in the node that later messages ask for. No other command
stores anything there, so over any run of messages a device is told what its last login has granted.
The address of the SIM server, the minutes and the speed are not among them: `Coding_With_CMDTT`,
`Coding_With_Deal` and `Coding_With_CFMD` store these again, and a text for the speed may run over the
members behind it.
-/

namespace Tdm.Device

open Tdm.Lib Tdm.Common

/-- The members that only a login changes. -/
def settings : List Member :=
  [Member.takeTime, Member.serverInfo, Member.ifTest, Member.vpnc, Member.apn,
    Member.vusimActiveNum, Member.speedType, Member.needFile, Member.selnet, Member.imei,
    Member.ifRoam, Member.isNet, Member.isApn, Member.vusimActiveFlag]

theorem settings_disjoint {cmd : Cmd} (h : cmd ≠ .accessAuth) :
    ∀ f ∈ settings, ∀ g ∈ Member.socketSpm :: (receiveFields ++ handlerFields cmd),
      g.Disjoint f := by
  cases cmd with
  | accessAuth => exact absurd rfl h
  | _ => decide

/-- The settings are as they were. -/
def SameSettings (node node' : DataSpm) : Prop :=
  ∀ f ∈ settings, node'.mem.read f = node.mem.read f

/-- What a message may change, a login apart. -/
theorem sameSettings_serveNode {node : DataSpm} {m : Message} {entry : Option DataSpm}
    {writes : List Write} (hcmd : m.cmd ≠ .accessAuth)
    (h : serveNode node m = some (entry, writes)) :
    ∃ node', entry = some node' ∧ SameSettings node node' := by
  obtain ⟨⟨node', frames⟩, hrun, heq⟩ := Option.map_eq_some_iff.mp h
  cases heq
  refine ⟨node', rfl, fun f hf => ?_⟩
  have hdisjoint := settings_disjoint hcmd f hf
  have hclosed := (touches_closeSocketFd node (List.mem_singleton_self _)).read_eq (f := f)
    (List.forall_mem_singleton.mpr (hdisjoint _ List.mem_cons_self))
  have hreceived := (touches_receive (closeSocketFd node Member.socketSpm) m.para).read_eq (f := f)
    fun g hg => hdisjoint g (.tail _ (List.mem_append_left _ hg))
  have hhandled := (codingWithDate_touches hrun).read_eq (f := f)
    fun g hg => hdisjoint g (.tail _ (List.mem_append_right _ hg))
  rw [hhandled, hreceived, hclosed]

/-- A string that ends inside its member is read from the member alone. -/
theorem cstrAt_eq_of_read {n : ℕ} {a b : CArray n} {f : Field n} (hend : 0 ∈ a.read f)
    (h : b.read f = a.read f) : b.cstrAt f = a.cstrAt f := by
  obtain ⟨s, hs, hlen⟩ := CArray.exists_cstrAt hend
  have hprefix := CArray.prefix_of_cstrAt hs hlen
  rw [hs]
  exact CArray.cstrAt_of_prefix (CArray.zero_notMem_of_cstrAt hs) (h ▸ hprefix)

theorem textAnswer_of_settings {node node' : DataSpm} (h : SameSettings node node') {f : Member}
    (hf : f ∈ settings) (hend : 0 ∈ node.mem.read f) (cmd : Cmd) (fd : ℤ) :
    textAnswer cmd f node' fd = textAnswer cmd f node fd := by
  unfold textAnswer
  rw [cstrAt_eq_of_read hend (h f hf)]

/-- A device with the APN `cmnet`. -/
def apnNode : DataSpm :=
  ⟨(DataSpm.zero.mem.put Member.key.off (text "172150210000937") (by decide)).put Member.apn.off
    (text "cmnet") (by decide), none⟩

def apnRegistry : Registry := connectToMysqlInit.append apnNode

theorem sound_apnRegistry : apnRegistry.Sound :=
  sound_connectToMysqlInit.append (by decide +kernel)

end Tdm.Device
