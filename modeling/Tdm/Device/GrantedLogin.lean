import Tdm.Device.LoginStores
import Tdm.Device.LoginFrame
import Tdm.Common.DealReach

/-!
# Granted logins

A login is answered with the record of a deal only if the backend granted one and no redirect
was left behind (`accessAuth_granted`). Nothing is assumed about the text of the deal: it may
hold any keys, and texts that run over the members behind their own.
-/

namespace Tdm.Device

open Tdm.Lib Tdm.Common

variable {node node' : DataSpm} {x : Exchange} {cnt : ℤ} {dst frame : List UInt8}

/-- `Get_Deal_From_SimPool` passes a deal on or stores an error. -/
theorem getDealFromSimPool_cases (h : getDealFromSimPool node x = some (cnt, node', dst)) :
    ∃ c, getDealFromSimPoolSocket x = some (c, dst) ∧
      ((c = 0 ∧ cnt = 0 ∧ node' = node) ∨
        (c ≠ 0 ∧ cnt = (refusal c).value ∧ node' = (simAllocateErr (refusal c) node).2)) := by
  obtain ⟨⟨c, text⟩, hsocket, h⟩ := Option.bind_eq_some_iff.mp h
  dsimp only at h
  unfold refusal
  split_ifs at h ⊢ with hc hone htwo
  · cases h
    exact ⟨c, hsocket, .inr ⟨hc, by rw [if_pos hone]; rfl, by rw [if_pos hone]⟩⟩
  · cases h
    exact ⟨c, hsocket, .inr ⟨hc, by rw [if_neg hone, if_pos htwo]; rfl,
      by rw [if_neg hone, if_pos htwo]⟩⟩
  · cases h
    exact ⟨c, hsocket, .inr ⟨hc, by rw [if_neg hone, if_neg htwo]; rfl,
      by rw [if_neg hone, if_neg htwo]⟩⟩
  · cases h
    exact ⟨c, hsocket, .inl ⟨not_not.mp hc, rfl, rfl⟩⟩

theorem result_simAllocateErr (code : SimAllocErrCode) (node : DataSpm) :
    0 < (simAllocateErr code node).2.mem.getInt Member.result := by
  have hstored : ∀ m : DataSpm, (m.setInt Member.result code.value).mem.getInt Member.result =
      code.value := by
    intro m
    apply m.mem.getInt_setInt_self (by decide) <;> cases code <;> decide
  have hcode : 0 < code.value := by cases code <;> decide
  unfold simAllocateErr
  rw [hstored]
  exact hcode

/-- The members a login changes before it looks at the deal, its `Buff` apart. -/
def remoteFields : List Member :=
  [Member.takeTime, Member.versionAPK, Member.socketSpm, Member.authMCC, Member.mcc,
   Member.serverInfo]

/-- Without an error, the deal was granted and its redirect was not kept. -/
theorem getDealFromRemote_granted (h : getDealFromRemote node x = some (cnt, node'))
    (hok : ¬ 0 < node'.mem.getInt Member.result) :
    ∃ src before, getDealFromSimPoolSocket x = some (0, src) ∧
      node.mem.Touches remoteFields before.mem ∧ getDataFromDeal src before = some node' ∧
      node'.mem.getNat Member.factoryFlag = 0 := by
  have hmcc : node.mem.Touches [Member.socketSpm, Member.authMCC, Member.mcc]
      (noteMCC node).mem := fun f hf => read_noteMCC node hf
  have hnote : node.mem.Touches remoteFields (noteMCC node).mem :=
    hmcc.mono (by simp [remoteFields])
  unfold getDealFromRemote at h
  dsimp only at h
  split at h
  · obtain ⟨stored, -, h⟩ := Option.bind_eq_some_iff.mp h
    obtain ⟨-, rfl⟩ := Prod.mk.inj (Option.some.inj h)
    exact absurd (result_simAllocateErr .ipChange stored) hok
  · obtain ⟨stored, hstored, h⟩ := Option.bind_eq_some_iff.mp h
    obtain ⟨⟨cnt', asked, src⟩, hasked, hrest⟩ := Option.bind_eq_some_iff.mp h
    obtain ⟨c, hsocket, ⟨rfl, rfl, rfl⟩ | ⟨-, rfl, rfl⟩⟩ := getDealFromSimPool_cases hasked
    · obtain ⟨dealt, hdealt, hend⟩ := Option.bind_eq_some_iff.mp hrest
      split at hend
      · obtain ⟨-, rfl⟩ := Prod.mk.inj (Option.some.inj hend)
        exact absurd (result_simAllocateErr .ipChange dealt) hok
      · rename_i hflag
        obtain ⟨-, rfl⟩ := Prod.mk.inj (Option.some.inj hend)
        have hinfo : (noteMCC node).mem.Touches remoteFields asked.mem := by
          obtain ⟨mem, hmem, rfl⟩ := Option.map_eq_some_iff.mp hstored
          exact (CArray.Touches.refl _ _).copyTo (g := Member.serverInfo)
            (by simp [remoteFields]) rfl (by decide) hmem
        exact ⟨src, asked, hsocket, hnote.trans hinfo, hdealt, not_not.mp hflag⟩
    · -- the backend refuses, and the error is stored
      dsimp only at hrest
      rw [if_pos (refusal_value_ne_zero c)] at hrest
      obtain ⟨-, rfl⟩ := Prod.mk.inj (Option.some.inj hrest)
      exact absurd (result_simAllocateErr (refusal c) stored) hok

/-- The status byte tells a granted login, whose frame is the record of the node. -/
theorem accessAuth_granted (h : accessAuth node x = some (node', frame))
    (hok : frame[3]? = some 0x31) :
    ∃ src before after, ∃ para1 : CArray 12, getDealFromSimPoolSocket x = some (0, src) ∧
      node.mem.Touches remoteFields before.mem ∧ getDataFromDeal src before = some after ∧
      after.mem.getNat Member.factoryFlag = 0 ∧
      frame = [0x91, 36, 0, 0x31] ++ (tdResult after para1).bytes := by
  unfold accessAuth at h
  obtain ⟨⟨cnt, after⟩, hproc, h⟩ := Option.bind_eq_some_iff.mp h
  obtain ⟨frame', hpack, h⟩ := Option.bind_eq_some_iff.mp h
  obtain ⟨-, rfl⟩ := Prod.mk.inj (Option.some.inj h)
  unfold accessAuthResultPack at hpack
  dsimp only at hpack
  split at hpack
  · -- the frame of an error has another status, with or without a server behind it
    split at hpack
    · obtain ⟨info, -, hpack⟩ := Option.bind_eq_some_iff.mp hpack
      obtain rfl := Option.some.inj hpack
      exact absurd hok (by simp)
    · obtain rfl := Option.some.inj hpack
      exact absurd hok (by simp)
  · rename_i hresult
    obtain ⟨ip, -, hpack⟩ := Option.bind_eq_some_iff.mp hpack
    obtain ⟨para1, -, hpack⟩ := Option.bind_eq_some_iff.mp hpack
    unfold simAllocateProc at hproc
    obtain ⟨src, before, hsocket, hbefore, hdeal, hflag⟩ :=
      getDealFromRemote_granted hproc hresult
    refine ⟨src, before, after, para1, hsocket, ?_, hdeal, hflag, (Option.some.inj hpack).symm⟩
    have htime : node.mem.Touches remoteFields
        (node.copyField Member.takeTime node.mem Member.authTakeTime (by decide)).mem :=
      (CArray.Touches.refl _ _).copyField (by simp [remoteFields]) _ _ (by decide)
    exact (htime.copyField (by simp [remoteFields]) _ _ (by decide)).trans hbefore

end Tdm.Device
