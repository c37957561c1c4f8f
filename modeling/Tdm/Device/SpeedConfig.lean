import Tdm.Device.Minutes

/-!
# The speed configuration

The answer to `TAG_CFMD` has a block of 40 bytes for the speed configuration. `Get_Config_By_MCC`
fills it from `speedStr` if a string of more than five characters is there. Otherwise it fetches
the string from the backend, which stores it in `speedStr` and leaves the block zero: the string
arrives with the next answer only.
-/

namespace Tdm.Device

open Tdm.Lib Tdm.Common

/-- The configuration in an answer to `TAG_CFMD`, behind the header and the minutes. -/
def configBlock (frame : List UInt8) : List UInt8 := (frame.drop 8).take 40

/-- The configuration in an answer is the string `s`. -/
def HoldsConfig (frame s : List UInt8) : Prop := s ++ [0] <+: configBlock frame

section Config
variable {node node' : DataSpm} {x : Exchange} {config : List UInt8}

/-- What is put in the block: the string that was there before, or nothing. -/
theorem getConfigByMCC_config (h : getConfigByMCC node x = some (config, node')) :
    config = node.mem.read Member.speedStr ∨ config = List.replicate 40 0 := by
  obtain ⟨speedStr, -, h⟩ := Option.bind_eq_some_iff.mp h
  split at h
  · exact .inl (Prod.mk.inj (Option.some.inj h)).1.symm
  · obtain ⟨fetched, -, h⟩ := Option.bind_eq_some_iff.mp h
    exact .inr (Prod.mk.inj (Option.some.inj h)).1.symm

/-- A string that is there is not fetched. -/
theorem getConfigByMCC_of_cached {s : List UInt8} (hs : 5 < s.length)
    (hcached : node.mem.cstrAt Member.speedStr = some s) :
    getConfigByMCC node x = some (node.mem.read Member.speedStr, node) := by
  rw [getConfigByMCC, hcached, Option.bind_eq_bind, Option.bind_some, if_pos hs]
  rfl

theorem length_config (h : getConfigByMCC node x = some (config, node')) : config.length = 40 := by
  rcases getConfigByMCC_config h with rfl | rfl
  · exact node.mem.length_read Member.speedStr
  · exact List.length_replicate

end Config

section Answer
variable {node node' : DataSpm} {mcc : ℤ} {state : ℕ} {w : World} {frame : List UInt8}

/-- The frame with a configuration. -/
def configFrame (version : ℕ) (remain config test : List UInt8) : List UInt8 :=
  let data := (config ++ List.replicate 200 0).take (if 1601080936 ≤ version then 40 else 240)
  let payload := remain ++ data ++ if 1605041005 ≤ version then test else []
  [Cmd.cfmd.tag, UInt8.ofNat payload.length, 0, 0] ++ payload

theorem configBlock_configFrame (version : ℕ) {remain config : List UInt8} (test : List UInt8)
    (hremain : remain.length = 4) (hconfig : config.length = 40) :
    configBlock (configFrame version remain config test) = config := by
  have hdata : config <+: (config ++ List.replicate 200 0).take
      (if 1601080936 ≤ version then 40 else 240) := by
    rw [List.prefix_take_iff]
    refine ⟨List.prefix_append _ _, ?_⟩
    split <;> omega
  obtain ⟨rest, hrest⟩ := hdata
  unfold configBlock configFrame
  dsimp only
  rw [← hrest, show 8 = 4 + 4 from rfl, ← List.drop_drop]
  simp only [List.append_assoc]
  rw [List.drop_left' (by rfl), List.drop_left' hremain, List.take_left' hconfig]

/-- The answer to a device with minutes left, in a state that is answered with a configuration. -/
theorem cfmdAnswer_of_minutes (version : ℕ) (hminutes : node.mem.getNat Member.miniteRemain ≠ 0)
    (hstate : state = 0 ∨ state = 2) (hmcc : mcc ≠ 0) :
    cfmdAnswer version mcc state w node = (getConfigByMCC node w.speed).map fun c =>
      (c.2, [configFrame version ((node.mem.bytes.drop Member.miniteRemain.off).take 4) c.1
        (c.2.mem.read Member.ifTest)]) := by
  simp only [cfmdAnswer]
  rw [if_pos ⟨hminutes, hstate, hmcc⟩, Option.map_eq_bind]
  rfl

/-- An answer with a configuration has the string that was cached, or none. -/
theorem configBlock_cases (h : codingWithCFMDSocket node mcc state w = some (node', [frame]))
    (hlong : frame.length ≠ 8) :
    configBlock frame = node.mem.read Member.speedStr ∨
      configBlock frame = List.replicate 40 0 := by
  rw [codingWithCFMDSocket_eq] at h
  obtain ⟨dealt, hdealt, h⟩ := Option.bind_eq_some_iff.mp h
  have hread : dealt.mem.read Member.speedStr = node.mem.read Member.speedStr := by
    split at hdealt
    · obtain ⟨⟨cnt, proc⟩, hproc, rfl⟩ := Option.map_eq_some_iff.mp hdealt
      exact (touches_dealProc hproc).read_eq (by decide)
    · rw [Option.some.inj hdealt]
  by_cases hfull : dealt.mem.getNat Member.miniteRemain ≠ 0 ∧ (state = 0 ∨ state = 2) ∧ mcc ≠ 0
  · rw [cfmdAnswer_of_minutes _ hfull.1 hfull.2.1 hfull.2.2] at h
    obtain ⟨⟨config, configured⟩, hconfig, h⟩ := Option.map_eq_some_iff.mp h
    obtain ⟨-, hframe⟩ := Prod.mk.inj h
    rw [← List.singleton_inj.mp hframe,
      configBlock_configFrame _ _ (length_remain dealt) (length_config hconfig), ← hread]
    exact getConfigByMCC_config hconfig
  · -- without a configuration there are the minutes only
    simp only [cfmdAnswer] at h
    rw [if_neg hfull] at h
    obtain ⟨-, hframe⟩ := Prod.mk.inj (Option.some.inj h)
    refine absurd ?_ hlong
    rw [← List.singleton_inj.mp hframe, List.length_append, length_remain]
    rfl

/-- A device whose string is cached is answered with it. -/
theorem codingWithCFMDSocket_of_cached {s : List UInt8} (hs : 5 < s.length) (hs' : s.length < 40)
    (hcached : node.mem.cstrAt Member.speedStr = some s) {cnt : ℤ} {dealt : DataSpm}
    (hdealt : dealProc node 1 w.deal = some (cnt, dealt))
    (hminutes : dealt.mem.getNat Member.miniteRemain ≠ 0) (hstate : state = 0 ∨ state = 2)
    (hmcc : mcc ≠ 0) :
    ∃ frame, codingWithCFMDSocket node mcc state w = some (dealt, [frame]) ∧ frame.length ≠ 8 ∧
      configBlock frame = node.mem.read Member.speedStr ∧ HoldsConfig frame s := by
  have hread : dealt.mem.read Member.speedStr = node.mem.read Member.speedStr :=
    (touches_dealProc hdealt).read_eq (by decide)
  have hprefix : s ++ [0] <+: node.mem.read Member.speedStr :=
    CArray.prefix_of_cstrAt hcached hs'
  have hkept : dealt.mem.cstrAt Member.speedStr = some s :=
    CArray.cstrAt_of_prefix (CArray.zero_notMem_of_cstrAt hcached) (hread ▸ hprefix)
  have hblock := configBlock_configFrame (node.mem.getNat Member.version)
    (dealt.mem.read Member.ifTest) (length_remain dealt) (dealt.mem.length_read Member.speedStr)
  refine ⟨_, ?_, ?_, hblock.trans hread, ?_⟩
  · rw [codingWithCFMDSocket_eq, if_pos hmcc, hdealt, Option.map_some, Option.bind_some,
      cfmdAnswer_of_minutes _ hminutes hstate hmcc, getConfigByMCC_of_cached hs hkept]
    rfl
  · -- a frame of the minutes only has no block
    intro hlen
    have hempty : configBlock (configFrame (node.mem.getNat Member.version)
        ((dealt.mem.bytes.drop Member.miniteRemain.off).take 4) (dealt.mem.read Member.speedStr)
        (dealt.mem.read Member.ifTest)) = [] := by
      rw [configBlock, List.drop_of_length_le hlen.le]
      rfl
    have hfull := dealt.mem.length_read Member.speedStr
    rw [← hblock, hempty] at hfull
    exact absurd hfull (by decide)
  · rw [HoldsConfig, hblock, hread]
    exact hprefix

end Answer

/-! ## Fetching -/

/-- The backend holds the string `s` for the device. -/
def HoldsSpeed (x : Exchange) (s : List UInt8) : Prop :=
  ∃ dst, getDealFromSimPoolSocket x = some (0, dst) ∧ dst.length < 256 ∧
    getKey dst (text "speedStr") = some (some s)

theorem getSpeedStrFromSocket_of_holds (node : DataSpm) {x : Exchange} {s : List UInt8}
    (hx : HoldsSpeed x s) (hmin : 4 < s.length) (hmax : s.length ≤ 40) :
    ∃ node', getSpeedStrFromSocket node x = some node' ∧
      s <+: node'.mem.read Member.speedStr := by
  obtain ⟨dst, hsocket, hroom, hkey⟩ := hx
  have hfit : Member.speedStr.off + s.length ≤ dataSpmSize :=
    (Nat.add_le_add_left hmax 352).trans (by decide)
  refine ⟨{ node with mem := node.mem.put Member.speedStr.off s hfit }, ?_,
    node.mem.prefix_read_put Member.speedStr hfit hmax⟩
  have hstr : getKeyValueStr dst (text "speedStr") Member.speedStr 4 node =
      some (1, { node with mem := node.mem.put Member.speedStr.off s hfit }) := by
    simp only [getKeyValueStr]
    rw [hkey, Option.bind_eq_bind, Option.bind_some]
    simp only [hmin, if_true]
    rw [DataSpm.copyTo, CArray.copyTo_of_le _ _ hfit]
    rfl
  simp only [getSpeedStrFromSocket]
  rw [hsocket, Option.bind_eq_bind, Option.bind_some]
  simp only [if_neg (Nat.not_le.mpr hroom), if_true]
  rw [hstr]
  rfl

/-- A string that has to be fetched is stored in the node, and the answer has none. -/
theorem codingWithCFMDSocket_of_fetched {node : DataSpm} {mcc : ℤ} {state : ℕ} {w : World}
    {s t : List UInt8} (hx : HoldsSpeed w.speed s) (hmin : 6 ≤ s.length) (hmax : s.length ≤ 39)
    (hfetch : node.mem.cstrAt Member.speedStr = some t) (hshort : t.length ≤ 5) {cnt : ℤ}
    {dealt : DataSpm} (hdealt : dealProc node 1 w.deal = some (cnt, dealt))
    (hminutes : dealt.mem.getNat Member.miniteRemain ≠ 0) (hstate : state = 0 ∨ state = 2)
    (hmcc : mcc ≠ 0) :
    ∃ node' frame, codingWithCFMDSocket node mcc state w = some (node', [frame]) ∧
      configBlock frame = List.replicate 40 0 ∧ s <+: node'.mem.read Member.speedStr := by
  have hread : dealt.mem.read Member.speedStr = node.mem.read Member.speedStr :=
    (touches_dealProc hdealt).read_eq (by decide)
  have hkept : dealt.mem.cstrAt Member.speedStr = some t := by
    apply CArray.cstrAt_of_prefix (CArray.zero_notMem_of_cstrAt hfetch)
    rw [hread]
    exact CArray.prefix_of_cstrAt hfetch (hshort.trans_lt (by decide))
  obtain ⟨node', hfetched, hprefix⟩ := getSpeedStrFromSocket_of_holds dealt hx
    (Nat.lt_of_lt_of_le (by decide) hmin) (hmax.trans (by decide))
  have hconfig : getConfigByMCC dealt w.speed = some (List.replicate 40 0, node') := by
    simp only [getConfigByMCC]
    rw [hkept, Option.bind_eq_bind, Option.bind_some, if_neg (Nat.not_lt.mpr hshort), hfetched]
    rfl
  refine ⟨node', _, ?_, configBlock_configFrame (node.mem.getNat Member.version)
    (node'.mem.read Member.ifTest) (length_remain dealt) List.length_replicate, hprefix⟩
  rw [codingWithCFMDSocket_eq, if_pos hmcc, hdealt, Option.map_some, Option.bind_some,
    cfmdAnswer_of_minutes _ hminutes hstate hmcc, hconfig]
  rfl

/-- For two nodes that differ in `speedStr` at most, the first with `s` cached: both are answered
with the same frame, and with `s` in it, exactly if the second has the same bytes cached. So a
string that has to be fetched is never in the answer. -/
theorem speed_config_transparent_iff {cached node : DataSpm} {mcc : ℤ} {state : ℕ} {w : World}
    {s : List UInt8} (hsame : cached.mem.Touches [Member.speedStr] node.mem)
    (hpool : node.pool = cached.pool) (hmin : 6 ≤ s.length) (hmax : s.length ≤ 39)
    (hcached : cached.mem.cstrAt Member.speedStr = some s) (hmcc : mcc ≠ 0)
    (hstate : state = 0 ∨ state = 2)
    (hminutes : ∃ cnt dealt, dealProc cached 1 w.deal = some (cnt, dealt) ∧
      dealt.mem.getNat Member.miniteRemain ≠ 0) :
    (∃ cached' node' frame, codingWithCFMDSocket cached mcc state w = some (cached', [frame]) ∧
        codingWithCFMDSocket node mcc state w = some (node', [frame]) ∧ HoldsConfig frame s) ↔
      node.mem.read Member.speedStr = cached.mem.read Member.speedStr := by
  obtain ⟨cnt, dealt, hdealt, hleft⟩ := hminutes
  obtain ⟨frame, hrun, hlong, hblock, hholds⟩ := codingWithCFMDSocket_of_cached
    (Nat.lt_of_succ_le hmin) (Nat.lt_succ_of_le hmax) hcached hdealt hleft hstate hmcc
  constructor
  · rintro ⟨cached', node', frame', hrun', hnode, -⟩
    obtain ⟨-, hframe⟩ := Prod.mk.inj (Option.some.inj (hrun.symm.trans hrun'))
    obtain rfl := List.singleton_inj.mp hframe
    rcases configBlock_cases hnode hlong with hread | hzero
    · exact hread.symm.trans hblock
    · -- a block of zeros does not hold `s`
      obtain ⟨c, t, rfl⟩ := List.exists_cons_of_length_pos (Nat.lt_of_lt_of_le (by decide) hmin)
      have hmem : c ∈ configBlock frame := hholds.mem (List.mem_append_left _ (List.mem_cons_self ..))
      rw [hzero] at hmem
      exact absurd (List.eq_of_mem_replicate hmem ▸ List.mem_cons_self ..)
        (CArray.zero_notMem_of_cstrAt hcached)
  · -- with the same string the nodes are one node
    intro hread
    obtain ⟨mem, pool⟩ := node
    obtain rfl : mem = cached.mem := hsame.eq_of_read hread
    obtain rfl : pool = cached.pool := hpool
    exact ⟨dealt, dealt, frame, hrun, hrun, hholds⟩

/-- A device that was given a speed string. -/
def cachedNode : DataSpm :=
  { abroad with mem := abroad.mem.put Member.speedStr.off (text "128-256-512") (by decide) }

/-- The backend that gave it. -/
def speedWorld : World :=
  { World.silent with
    deal := dayReply
    speed := .reply (text "333,3002,2,0|[\x7b\"speedStr\":\"128-256-512\"\x7d]") (by decide +kernel)
      (by decide +kernel) }

/-- The device is answered with the string it has. -/
theorem speed_config_transparent_iff_cached :
    ∃ cached' node' frame,
      codingWithCFMDSocket cachedNode 310 2 speedWorld = some (cached', [frame]) ∧
      codingWithCFMDSocket cachedNode 310 2 speedWorld = some (node', [frame]) ∧
      HoldsConfig frame (text "128-256-512") := by
  have hminutes : (dealProc cachedNode 1 speedWorld.deal).map
      (fun r => r.2.mem.getNat Member.miniteRemain) = some 1440 := by decide +kernel
  obtain ⟨⟨cnt, dealt⟩, hdealt, hleft⟩ := Option.map_eq_some_iff.mp hminutes
  have hne : dealt.mem.getNat Member.miniteRemain ≠ 0 := by
    rw [hleft]
    decide
  exact (speed_config_transparent_iff (.refl _ cachedNode.mem) rfl (by decide) (by decide)
    (by decide +kernel) (by decide) (.inr rfl) ⟨cnt, dealt, hdealt, hne⟩).mpr rfl

/-- The same device before it was given the string is answered with zeros, although the backend
holds it. -/
theorem fetched_speed_not_sent :
    cachedNode.mem.cstrAt Member.speedStr = some (text "128-256-512") ∧
      ((getDealFromSimPoolSocket speedWorld.speed).bind fun r => getKey r.2 (text "speedStr")) =
        some (some (text "128-256-512")) ∧
      (codingWithCFMDSocket cachedNode 310 2 speedWorld).map (fun r => r.2.map configBlock) =
        some [text "128-256-512" ++ List.replicate 29 0] ∧
      (codingWithCFMDSocket abroad 310 2 speedWorld).map (fun r => r.2.map configBlock) =
        some [List.replicate 40 0] ∧
      ((codingWithCFMDSocket abroad 310 2 speedWorld).bind fun r =>
        r.1.mem.cstrAt Member.speedStr) = some (text "128-256-512") := by
  refine ⟨?_, ?_, ?_, ?_, ?_⟩ <;> decide +kernel

end Tdm.Device
