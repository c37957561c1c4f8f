import Tdm.Device.GrantedLogin
import Tdm.Device.HandlerStores
import Tdm.Common.Verdict

/-!
# The minutes a device is told

`minsRemaining` of a reply is kept in two bytes. The answer to a login widens them to four; the
answers to `TAG_DEAL` and `TAG_CFMD` copy four bytes from them, the two behind being those of
`threshold`. So the minutes arrive exactly if what was cut off is what stands behind.
-/

namespace Tdm.Device

open Tdm.Lib Tdm.Common

/-- The 32-bit number at a place of a frame. -/
def minutesAt (off : ℕ) (frame : List UInt8) : ℤ :=
  toSigned 32 (leNat ((frame.drop off).take 4))

/-- The backend grants a deal with `n` minutes. -/
def GrantsMinutes (x : Exchange) (n : ℤ) : Prop :=
  ∃ src, getDealFromSimPoolSocket x = some (0, src) ∧
    getKeyValueInt src (text "minsRemaining") = some n

/-- `Deal_Proc` does not replace the minutes of the reply by those of a day. -/
def KeepsMinutes (x : Exchange) : Prop :=
  ∀ src last, getDealFromSimPoolSocket x = some (0, src) →
    getKeyValueInt src (text "lastStart") = some last → last % 256 ≠ 1

/-! ## The four bytes -/

theorem getNat_remain (node : DataSpm) :
    leNat ((node.mem.bytes.drop Member.miniteRemain.off).take 4) =
      node.mem.getNat Member.miniteRemain + 65536 * node.mem.getNat Member.threshold := by
  have hsplit : (node.mem.bytes.drop Member.miniteRemain.off).take 4 =
      node.mem.read Member.miniteRemain ++ node.mem.read Member.threshold := by
    rw [show 4 = 2 + 2 from rfl, List.take_add, List.drop_drop]
    rfl
  rw [hsplit, leNat_append, CArray.length_read]
  rfl

/-- The minutes of the answers that copy four bytes of the node. -/
theorem minutesAt_remain (node : DataSpm) (a b c d : UInt8) (rest : List UInt8) :
    minutesAt 4 ([a, b, c, d] ++ (node.mem.bytes.drop Member.miniteRemain.off).take 4 ++ rest) =
      toSigned 32 (node.mem.getNat Member.miniteRemain +
        65536 * node.mem.getNat Member.threshold) := by
  show toSigned 32 (leNat (((node.mem.bytes.drop Member.miniteRemain.off).take 4 ++ rest).take 4)) =
    _
  rw [List.take_left' (length_remain node), getNat_remain]

/-- Two bytes of a number and the two behind them. -/
theorem toSigned_minutes_iff {n : ℤ} (hlo : 0 ≤ n) (hhi : n < 2 ^ 31) {t : ℕ} (ht : t < 65536) :
    toSigned 32 ((n % 2 ^ 16).toNat + 65536 * t) = n ↔ n / 65536 = t := by
  unfold toSigned
  split <;> omega

theorem threshold_lt (node : DataSpm) : node.mem.getNat Member.threshold < 65536 :=
  node.mem.getNat_lt Member.threshold

/-! ## Logins -/

/-- The minutes of a `TD_Result_t` behind a header. -/
theorem leNat_record (para : CArray 36) :
    leNat ((([0x91, 36, 0, 0x31] ++ para.bytes).drop 24).take 4) =
      para.getNat TdResult.miniteRemain := rfl

theorem accessAuth_minutes {node node' : DataSpm} {x : Exchange} {n : ℤ} {frame : List UInt8}
    (hx : GrantsMinutes x n) (h : accessAuth node x = some (node', frame))
    (hok : frame[3]? = some 0x31) : minutesAt 24 frame = n % 2 ^ 16 := by
  obtain ⟨src, hsocket, hn⟩ := hx
  obtain ⟨src', before, after, para1, hsocket', -, hdeal, hflag, rfl⟩ := accessAuth_granted h hok
  obtain ⟨-, rfl⟩ := Prod.mk.inj (Option.some.inj (hsocket.symm.trans hsocket'))
  obtain ⟨a, b, c, d, e, hrun⟩ := exists_grantedRun (zero_notMem_of_socket hsocket) hdeal hflag
  obtain ⟨n', hn', hstored⟩ := hrun.miniteRemain
  obtain rfl := Option.some.inj (hn.symm.trans hn')
  unfold minutesAt
  rw [leNat_record, (getNat_tdResult after para1).1, hstored, toSigned]
  split <;> omega

/-! ## `Deal_Proc` -/

section Proc
variable {node node' : DataSpm} {type cnt : ℤ} {x : Exchange}

theorem dealProc_granted {n : ℤ} (hx : GrantsMinutes x n) (hkeep : type ≠ 0 ∨ KeepsMinutes x)
    (h : dealProc node type x = some (cnt, node')) :
    node'.mem.getNat Member.miniteRemain = (n % 2 ^ 16).toNat := by
  obtain ⟨src, hsocket, hn⟩ := hx
  have hpool : getDealFromSimPool (node.setNat Member.miniteRemain 0) x =
      some (0, node.setNat Member.miniteRemain 0, src) := by
    simp only [getDealFromSimPool, hsocket, Option.bind_eq_bind, Option.bind_some]
    rfl
  simp only [dealProc, hpool, Option.bind_eq_bind, Option.bind_some, if_true, hn] at h
  obtain ⟨last, hlast, h⟩ := Option.bind_eq_some_iff.mp h
  let stored := ((node.setNat Member.miniteRemain 0).setInt Member.lastStart last).setInt
    Member.miniteRemain n
  have hstored : stored.mem.getNat Member.miniteRemain = (n % 2 ^ 16).toNat :=
    DataSpm.getNat_setInt _ Member.miniteRemain n
  have hstart : stored.mem.getNat Member.lastStart = (last % 2 ^ 8).toNat := by
    have hframe : ((node.setNat Member.miniteRemain 0).setInt Member.lastStart last).mem.Touches
        [Member.miniteRemain] stored.mem := (CArray.Touches.refl _ _).setInt (by simp) n
    rw [hframe.getNat_eq (by decide)]
    exact DataSpm.getNat_setInt _ Member.lastStart last
  split at h
  · rename_i hday
    -- the minutes of a day are stored for `TAG_DEAL` only
    have hone : (last % 2 ^ 8).toNat = 1 := hstart.symm.trans hday.2
    rcases hkeep with htype | hkeep
    · exact absurd hday.1 htype
    · exact absurd (by omega) (hkeep src last hsocket hlast)
  · obtain ⟨-, rfl⟩ := Prod.mk.inj (Option.some.inj h)
    exact hstored

/-- An error other than an end of service is kept as -1 in two bytes. -/
theorem dealProc_failed {c : ℤ} {dst : List UInt8} (htype : type ≠ 0)
    (hsocket : getDealFromSimPoolSocket x = some (c, dst)) (hc : c ≠ 0) (hservice : c ≠ 2)
    (h : dealProc node type x = some (cnt, node')) :
    node'.mem.getNat Member.miniteRemain = 65535 := by
  obtain ⟨⟨cnt', asked, dst'⟩, hasked, h⟩ := Option.bind_eq_some_iff.mp h
  obtain ⟨c', hsocket', hcases⟩ := getDealFromSimPool_cases hasked
  obtain ⟨rfl, rfl⟩ := Prod.mk.inj (Option.some.inj (hsocket.symm.trans hsocket'))
  obtain ⟨hzero, -⟩ | ⟨-, rfl, rfl⟩ := hcases
  · exact absurd hzero hc
  have hcode : (refusal c).value ≠ SimAllocErrCode.outOfService.value := by
    unfold refusal
    rw [if_neg hservice]
    split <;> decide
  dsimp only at h
  rw [if_neg (refusal_value_ne_zero c), if_pos hcode, if_pos htype] at h
  obtain ⟨-, rfl⟩ := Prod.mk.inj (Option.some.inj h)
  exact DataSpm.getNat_setInt _ Member.miniteRemain (-1)

end Proc

/-! ## The answers -/

section Answers
variable {node node' : DataSpm} {w : World} {frame : List UInt8}

theorem codingWithDeal_minutes {n : ℤ} (hx : GrantsMinutes w.deal n) (hkeep : KeepsMinutes w.deal)
    (h : codingWithDeal node w = some (node', [frame])) :
    minutesAt 4 frame =
      toSigned 32 ((n % 2 ^ 16).toNat + 65536 * node.mem.getNat Member.threshold) := by
  obtain ⟨named, hnamed, h⟩ := Option.bind_eq_some_iff.mp h
  obtain ⟨⟨cnt, dealt⟩, hdealt, h⟩ := Option.bind_eq_some_iff.mp h
  obtain ⟨rfl, hframe⟩ := Prod.mk.inj (Option.some.inj h)
  obtain rfl := List.singleton_inj.mp hframe
  have hminutes := dealProc_granted hx (.inr hkeep) hdealt
  obtain ⟨named', hnamed', hset⟩ :=
    setSIMSI_touches node (node.mem.length_read InBuff.dealIMSI)
  obtain rfl := Option.some.inj (hnamed.symm.trans hnamed')
  rw [minutesAt_remain, hminutes, (touches_dealProc hdealt).getNat_eq (by decide),
    hset.getNat_eq (by decide)]

/-- The frame of `Coding_With_CFMD_Soeckt` begins with the four bytes; for the states 0 and 2
nothing else follows exactly if the two bytes of the minutes are zero. -/
theorem cfmdAnswer_minutes {version : ℕ} {mcc : ℤ} {state : ℕ} (hmcc : mcc ≠ 0)
    (h : cfmdAnswer version mcc state w node = some (node', [frame])) :
    minutesAt 4 frame = toSigned 32 (node.mem.getNat Member.miniteRemain +
        65536 * node.mem.getNat Member.threshold) ∧
      (state = 0 ∨ state = 2 → (frame.length = 8 ↔ node.mem.getNat Member.miniteRemain = 0)) := by
  unfold cfmdAnswer at h
  dsimp only at h
  split at h
  · -- with minutes left at least 40 bytes of configuration follow
    rename_i hfull
    obtain ⟨⟨config, node₁⟩, -, h⟩ := Option.bind_eq_some_iff.mp h
    obtain ⟨-, hframe⟩ := Prod.mk.inj (Option.some.inj h)
    obtain rfl := List.singleton_inj.mp hframe
    dsimp only
    refine ⟨?_, fun _ => iff_of_false ?_ hfull.1⟩
    · rw [List.append_assoc (List.take 4 _), ← List.append_assoc, minutesAt_remain]
    · have hdata : 40 ≤ ((config ++ List.replicate 200 0).take
          (if 1601080936 ≤ version then 40 else 240)).length := by
        rw [List.length_take, List.length_append, List.length_replicate]
        split <;> omega
      simp only [List.length_append, List.length_cons, List.length_nil, length_remain]
      omega
  · rename_i hshort
    obtain ⟨rfl, hframe⟩ := Prod.mk.inj (Option.some.inj h)
    obtain rfl := List.singleton_inj.mp hframe
    refine ⟨?_, fun hstate => iff_of_true ?_ ?_⟩
    · have := minutesAt_remain node Cmd.cfmd.tag 4 0 0 []
      rwa [List.append_nil] at this
    · rw [List.length_append, length_remain]
      rfl
    · by_contra hne
      exact hshort ⟨hne, hstate, hmcc⟩

/-- What `Deal_Proc` has left is what `Coding_With_CFMD_Soeckt` sends. -/
theorem codingWithCFMDSocket_minutes {mcc : ℤ} {state m : ℕ} (hmcc : mcc ≠ 0)
    (hproc : ∀ cnt dealt, dealProc node 1 w.deal = some (cnt, dealt) →
      dealt.mem.getNat Member.miniteRemain = m)
    (h : codingWithCFMDSocket node mcc state w = some (node', [frame])) :
    minutesAt 4 frame = toSigned 32 (m + 65536 * node.mem.getNat Member.threshold) ∧
      (state = 0 ∨ state = 2 → (frame.length = 8 ↔ m = 0)) := by
  rw [codingWithCFMDSocket_eq, if_pos hmcc] at h
  obtain ⟨dealt, hdealt, h⟩ := Option.bind_eq_some_iff.mp h
  obtain ⟨⟨cnt, dealt⟩, hcall, rfl⟩ := Option.map_eq_some_iff.mp hdealt
  obtain rfl := hproc cnt dealt hcall
  rw [← (touches_dealProc hcall).getNat_eq (f := Member.threshold) (by decide)]
  exact cfmdAnswer_minutes hmcc h

end Answers

/-- For every number of minutes of a granted deal: the answer to a login gives it exactly if it
fits two bytes; the answers to `TAG_DEAL` and `TAG_CFMD` give it exactly if `threshold` is what
does not fit; the answer to `TAG_CFMD` is cut short without need exactly for the multiples of
65536. The -1 for a failure arrives exactly if `threshold` is 65535. -/
theorem minutes_arrive_iff (node : DataSpm) (w : World) :
    (∀ n : ℤ, 0 ≤ n → n < 2 ^ 31 → GrantsMinutes w.deal n →
      (∀ node' frame, accessAuth node w.deal = some (node', frame) → frame[3]? = some 0x31 →
        (minutesAt 24 frame = n ↔ n < 65536)) ∧
      (∀ node' frame, KeepsMinutes w.deal → codingWithDeal node w = some (node', [frame]) →
        (minutesAt 4 frame = n ↔ n / 65536 = node.mem.getNat Member.threshold)) ∧
      ∀ mcc state node' frame, mcc ≠ 0 →
        codingWithCFMDSocket node mcc state w = some (node', [frame]) →
        (minutesAt 4 frame = n ↔ n / 65536 = node.mem.getNat Member.threshold) ∧
        (state = 0 ∨ state = 2 → ((frame.length = 8 → n = 0) ↔ n = 0 ∨ n % 65536 ≠ 0))) ∧
    ∀ c dst mcc state node' frame, getDealFromSimPoolSocket w.deal = some (c, dst) →
      c ≠ 0 → c ≠ 2 → mcc ≠ 0 → codingWithCFMDSocket node mcc state w = some (node', [frame]) →
      (minutesAt 4 frame = -1 ↔ node.mem.getNat Member.threshold = 65535) ∧
      (state = 0 ∨ state = 2 → frame.length ≠ 8) := by
  have hthreshold := threshold_lt node
  refine ⟨fun n hlo hhi hx => ⟨?_, ?_, ?_⟩, ?_⟩
  · intro node' frame h hok
    rw [accessAuth_minutes hx h hok]
    omega
  · intro node' frame hkeep h
    rw [codingWithDeal_minutes hx hkeep h, toSigned_minutes_iff hlo hhi hthreshold]
  · intro mcc state node' frame hmcc h
    obtain ⟨hminutes, hshort⟩ := codingWithCFMDSocket_minutes hmcc
      (fun cnt dealt hdealt => dealProc_granted hx (.inl (by decide)) hdealt) h
    rw [hminutes, toSigned_minutes_iff hlo hhi hthreshold]
    refine ⟨Iff.rfl, fun hstate => ?_⟩
    rw [hshort hstate]
    omega
  · intro c dst mcc state node' frame hsocket hc hservice hmcc h
    obtain ⟨hminutes, hshort⟩ := codingWithCFMDSocket_minutes hmcc
      (fun cnt dealt hdealt => dealProc_failed (by decide) hsocket hc hservice hdealt) h
    refine ⟨?_, fun hstate => ?_⟩
    · rw [hminutes, toSigned]
      split <;> omega
    · rw [ne_eq, hshort hstate]
      decide

/-! ## A day and a long package -/

def dayReply : Exchange :=
  .reply (text "333,1001,12,0|[\x7b\"minsRemaining\":\"1440\"\x7d]") (by decide +kernel)
    (by decide +kernel)

def packageReply : Exchange :=
  .reply (text "333,1001,12,0|[\x7b\"minsRemaining\":\"65536\"\x7d]") (by decide +kernel)
    (by decide +kernel)

/-- The backend has no card. -/
def noSimReply : Exchange := .reply (text "333,1001,12,4|") (by decide +kernel) (by decide +kernel)

theorem minutes_arrive_iff_day :
    (∃ node' frame, accessAuth abroad dayReply = some (node', frame) ∧
      minutesAt 24 frame = 1440) ∧
    ∃ node' frame, codingWithCFMDSocket abroad 310 2 { World.silent with deal := dayReply } =
      some (node', [frame]) ∧ minutesAt 4 frame = 1440 := by
  have hx : GrantsMinutes dayReply 1440 :=
    ⟨text "\"minsRemaining\":\"1440\"\x7d", by decide +kernel, by decide +kernel⟩
  have hlogin : (accessAuth abroad dayReply).map (fun r => r.2[3]?) = some (some 0x31) := by
    decide +kernel
  have hcfmd : (codingWithCFMDSocket abroad 310 2 { World.silent with deal := dayReply }).map
      (fun r => r.2.length) = some 1 := by
    decide +kernel
  obtain ⟨⟨node₁, frame₁⟩, hrun₁, hok⟩ := Option.map_eq_some_iff.mp hlogin
  obtain ⟨⟨node₂, frames⟩, hrun₂, hone⟩ := Option.map_eq_some_iff.mp hcfmd
  obtain ⟨frame₂, rfl⟩ := List.length_eq_one_iff.mp hone
  obtain ⟨hgranted, -⟩ := minutes_arrive_iff abroad { World.silent with deal := dayReply }
  obtain ⟨hanswer, -, hconfirm⟩ := hgranted 1440 (by decide) (by decide) hx
  refine ⟨⟨node₁, frame₁, hrun₁, (hanswer _ _ hrun₁ hok).mpr (by decide)⟩,
    node₂, frame₂, hrun₂, (hconfirm _ _ _ _ (by decide) hrun₂).1.mpr ?_⟩
  decide +kernel

/-- 65536 minutes are sent as 0, to a login and, in a short answer, to `TAG_CFMD`; a failure is
sent as 65535. -/
theorem minutes_cut_off :
    GrantsMinutes packageReply 65536 ∧
      (accessAuth abroad packageReply).map (fun r => (r.2[3]?, minutesAt 24 r.2)) =
        some (some 0x31, 0) ∧
      (codingWithCFMDSocket abroad 310 2 { World.silent with deal := packageReply }).map Prod.snd =
        some [[0x85, 4, 0, 0, 0, 0, 0, 0]] ∧
      (codingWithDeal abroad { World.silent with deal := packageReply }).map Prod.snd =
        some [[0xB1, 5, 0, 0, 0, 0, 0, 0, 1]] ∧
      (codingWithCFMDSocket abroad 310 1 { World.silent with deal := noSimReply }).map Prod.snd =
        some [[0x85, 4, 0, 0, 0xFF, 0xFF, 0, 0]] ∧
      minutesAt 4 [0x85, 4, 0, 0, 0xFF, 0xFF, 0, 0] = 65535 := by
  refine ⟨⟨text "\"minsRemaining\":\"65536\"\x7d", ?_, ?_⟩, ?_, ?_, ?_, ?_, ?_⟩ <;> decide +kernel

end Tdm.Device
