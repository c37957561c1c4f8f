import Tdm.Device.Transmission

/-!
# The length of an answer

A device reads the four bytes of a header, and then as many bytes as the header announces.
The server sets the announced length and the length it passes to `write` one by one in each
packer. An answer here is one of the packers with what it is given; the frames of the SIM
file are not packed by the server, they come from the SIM pool server as they are.
-/

namespace Tdm.Device

open Tdm.Lib Tdm.Common

/-! ## The receiver -/

/-- A device takes one frame from what it has received. -/
def nextFrame : List UInt8 → Option (List UInt8 × List UInt8)
  | tag :: sizeL :: sizeH :: result :: rest =>
    let size := sizeL.toNat + 256 * sizeH.toNat
    if size ≤ rest.length then
      some (tag :: sizeL :: sizeH :: result :: rest.take size, rest.drop size)
    else none
  | _ => none

/-- The frame is as long as it says, so that a receiver finds the one behind it. -/
structure Announced (frame : List UInt8) : Prop where
  length : frame.length = 4 + (frame.getD 1 0).toNat + 256 * (frame.getD 2 0).toNat
  next (rest : List UInt8) : nextFrame (frame ++ rest) = some (frame, rest)

theorem announced_frame {tag sizeL sizeH result : UInt8} {payload : List UInt8}
    (h : payload.length = sizeL.toNat + 256 * sizeH.toNat) :
    Announced ([tag, sizeL, sizeH, result] ++ payload) where
  length := by
    show payload.length + 4 = 4 + sizeL.toNat + 256 * sizeH.toNat
    omega
  next rest := by
    show nextFrame (tag :: sizeL :: sizeH :: result :: (payload ++ rest)) = _
    simp only [nextFrame]
    rw [← h, if_pos (by rw [List.length_append]; omega), List.take_left, List.drop_left]
    rfl

/-- `n` frames, one after the other. -/
def readFrames : ℕ → List UInt8 → Option (List (List UInt8) × List UInt8)
  | 0, stream => some ([], stream)
  | n + 1, stream => do
    let (frame, stream) ← nextFrame stream
    let (frames, stream) ← readFrames n stream
    return (frame :: frames, stream)

/-- A device that reads what it is sent reads the frames that were sent. -/
theorem readFrames_flatten {frames : List (List UInt8)} (h : ∀ f ∈ frames, Announced f) :
    readFrames frames.length frames.flatten = some (frames, []) := by
  induction frames with
  | nil => rfl
  | cons frame frames ih =>
    have hframe := (h frame (List.mem_cons_self ..)).next frames.flatten
    have hrest := ih fun f hf => h f (List.mem_cons_of_mem _ hf)
    simp only [List.length_cons, List.flatten_cons, readFrames, hframe, hrest,
      Option.bind_eq_bind, Option.bind_some]
    rfl

/-! ## The packers -/

/-- What the server makes an answer from. -/
inductive Packing
  | accessAuthResultPack (node : DataSpm)
  | codingWithCMDTT (first : UInt8) (sendbytes : ℤ) (recvBuf : CArray 520)
  | codingWithCFMD (node : DataSpm) (mcc : ℤ) (state : ℕ) (w : World)
  | codingWithLowVsim (node : DataSpm)
  | codingWithDeal (node : DataSpm) (w : World)
  | codingWithVPNRqst (node : DataSpm)
  | codingWithVPNCmd (node : DataSpm)
  | sendChangeIP (node : DataSpm) (w : World)
  | codingWithSelnet (node : DataSpm)
  | codingWithAPN (node : DataSpm)
  | codingWithADN (node : DataSpm)
  | clientWebManage (src : List UInt8)
  | codingWithTTReinsert (tag : UInt8)
  /-- a header alone, as it confirms a message -/
  | confirm (tag result : UInt8)

/-- The frames that are written for an answer. -/
def Packing.frames : Packing → Option (List (List UInt8))
  | .accessAuthResultPack node => (Device.accessAuthResultPack node).map fun frame => [frame]
  | .codingWithCMDTT first sendbytes recvBuf =>
    (cmdttFrame first sendbytes recvBuf).map fun frame => [frame]
  | .codingWithCFMD node mcc state w => (codingWithCFMDSocket node mcc state w).map Prod.snd
  | .codingWithLowVsim node => (Device.codingWithLowVsim node).map Prod.snd
  | .codingWithDeal node w => (Device.codingWithDeal node w).map Prod.snd
  | .codingWithVPNRqst node => some (Device.codingWithVPNRqst node).2
  | .codingWithVPNCmd node => (Device.codingWithVPNCmd node).map Prod.snd
  | .sendChangeIP node w => (Device.sendChangeIP node w).map Prod.snd
  | .codingWithSelnet node => (Device.codingWithSelnet node 0).map fun write => [write.bytes]
  | .codingWithAPN node => (Device.codingWithAPN node 0).map fun write => [write.bytes]
  | .codingWithADN node => (Device.codingWithADN node 0).map fun write => [write.bytes]
  | .clientWebManage src => (getValue src).map fun para1 => (webFrame para1).toList
  | .codingWithTTReinsert tag => some [pickUpWebData tag []]
  | .confirm tag result => some [[tag, 0, 0, result]]

/-- Every frame of the answer announces its length. `Coding_With_CMDTT` must have an answer,
whatever the SIM pool server sends. -/
def Packing.Announces (a : Packing) : Prop :=
  (∀ frames, a.frames = some frames → ∀ f ∈ frames, Announced f) ∧
    ∀ first sendbytes recvBuf, a = .codingWithCMDTT first sendbytes recvBuf → a.frames ≠ none

/-- The answer is none of the two that go wrong: a refused login with the address of another
server, and a code of the SIM pool server that has no meaning or does not fit. -/
def Packing.Plain : Packing → Prop
  | .accessAuthResultPack node =>
    ¬ (0 < node.mem.getInt Member.result ∧ node.mem.getNat Member.factoryFlag = 1 ∧
      ∃ info, node.mem.cstrAt Member.serverInfo = some info ∧ info ≠ [])
  | .codingWithCMDTT _ sendbytes recvBuf =>
    sendbytes ≤ 128 ∧
      (sendbytes = 1 → 1 ≤ (recvBuf.get 0).toNat ∧ (recvBuf.get 0).toNat ≤ 11)
  | _ => True

/-! ## One packer after the other -/

theorem announced_pickUpWebData {tag : UInt8} {src : List UInt8} (h : src.length < 256) :
    Announced (pickUpWebData tag src) := by
  apply announced_frame
  rw [UInt8.toNat_ofNat', Nat.mod_eq_of_lt h]
  rfl

theorem announced_ttResultPack (recvBuf : CArray 520) {num : ℕ} (h : num < 256) (first : UInt8) :
    Announced (ttResultPack recvBuf num first) := by
  apply announced_frame
  rw [List.length_take, List.length_drop, recvBuf.size, UInt8.toNat_ofNat', Nat.mod_eq_of_lt h]
  show min num 516 = num + 256 * 0
  omega

/-- As many bytes of the text are sent as the length byte says. -/
theorem announced_textAnswer {cmd : Cmd} {f : Member} {node : DataSpm} {fd : ℤ} {write : Write}
    (h : textAnswer cmd f node fd = some write) : Announced write.bytes := by
  obtain ⟨value, -, h⟩ := Option.bind_eq_some_iff.mp h
  cases h
  apply announced_frame
  rw [List.length_take, UInt8.toNat_ofNat']
  show min (value.length % 2 ^ 8) value.length = value.length % 2 ^ 8 + 256 * 0
  have := Nat.mod_le value.length (2 ^ 8)
  omega

/-- The remaining time, and a configuration of at most 244 bytes. -/
theorem announced_cfmdAnswer {version : ℕ} {mcc : ℤ} {state : ℕ} {w : World}
    {node node' : DataSpm} {frames : List (List UInt8)}
    (h : cfmdAnswer version mcc state w node = some (node', frames)) :
    ∀ f ∈ frames, Announced f := by
  have hremain := length_remain node
  simp only [cfmdAnswer] at h
  split at h
  · obtain ⟨⟨config, configured⟩, -, h⟩ := Option.bind_eq_some_iff.mp h
    dsimp only at h
    cases h
    rw [List.forall_mem_singleton]
    apply announced_frame
    have htest : (if 1605041005 ≤ version then node'.mem.read Member.ifTest
        else []).length ≤ 4 := by
      split
      · exact Nat.le_of_eq (node'.mem.length_read Member.ifTest)
      · exact Nat.zero_le 4
    have hdata := List.length_take_le (if 1601080936 ≤ version then 40 else 240)
      (config ++ List.replicate 200 0)
    have hlength : (if 1601080936 ≤ version then 40 else 240) ≤ 240 := by
      split <;> decide
    rw [UInt8.toNat_ofNat', Nat.mod_eq_of_lt]
    · rfl
    · rw [List.length_append, List.length_append, hremain]
      omega
  · cases h
    rw [List.forall_mem_singleton]
    apply announced_frame
    rw [hremain]
    rfl

theorem announced_codingWithCFMDSocket {node node' : DataSpm} {mcc : ℤ} {state : ℕ} {w : World}
    {frames : List (List UInt8)} (h : codingWithCFMDSocket node mcc state w = some (node', frames)) :
    ∀ f ∈ frames, Announced f := by
  rw [codingWithCFMDSocket_eq] at h
  obtain ⟨dealt, -, h⟩ := Option.bind_eq_some_iff.mp h
  exact announced_cfmdAnswer h

theorem announced_codingWithDeal {node node' : DataSpm} {w : World} {frames : List (List UInt8)}
    (h : codingWithDeal node w = some (node', frames)) : ∀ f ∈ frames, Announced f := by
  obtain ⟨named, -, h⟩ := Option.bind_eq_some_iff.mp h
  obtain ⟨⟨cnt, dealt⟩, -, h⟩ := Option.bind_eq_some_iff.mp h
  cases h
  rw [List.forall_mem_singleton, List.append_assoc]
  apply announced_frame
  rw [List.length_append, length_remain]
  rfl

/-- The texts of a request are shorter than the buffers they are found in. -/
theorem length_dst_of_getValue {src : List UInt8} {para1 : WebRequest}
    (h : getValue src = some para1) : para1.dst.length < 56 := by
  obtain ⟨sn, -, h⟩ := Option.bind_eq_some_iff.mp h
  obtain ⟨type, -, h⟩ := Option.bind_eq_some_iff.mp h
  obtain ⟨num, hnum, h⟩ := Option.bind_eq_some_iff.mp h
  cases num with
  | none =>
    cases h
    exact (by decide : 0 < 56)
  | some value =>
    have hvalue : value.length < 56 := by
      obtain ⟨found, -, hnum⟩ := Option.bind_eq_some_iff.mp hnum
      split at hnum
      · cases hnum
      · split at hnum
        · cases hnum
          assumption
        · cases hnum
    cases type with
    | none =>
      cases h
      exact (by decide : 0 < 56)
    | some type =>
      simp only at h
      split at h
      · cases h
        exact hvalue
      · cases h
        exact (by decide : 0 < 56)

theorem announced_webFrame {para1 : WebRequest} (hdst : para1.dst.length < 56) {frame : List UInt8}
    (h : webFrame para1 = some frame) : Announced frame := by
  have hshort {tag : UInt8} (src : List UInt8) (hsrc : src.length < 56)
      (he : some (pickUpWebData tag src) = some frame) : Announced frame := by
    cases he
    exact announced_pickUpWebData (hsrc.trans (by decide))
  unfold webFrame at h
  split at h
  · exact hshort [para1.type, para1.num] (by show 2 < 56; decide) h
  · split at h
    · exact hshort [para1.type, para1.num] (by show 2 < 56; decide) h
    · split at h
      all_goals first | exact hshort para1.dst hdst h | exact hshort [] (by decide) h | cases h

/-! ## All of them -/

/-- A code of one byte is passed on as it stands if it has no meaning, which is less than a
header; and a reply of more than 128 bytes overruns `tmp_buff`. -/
theorem cmdttFrame_announced_iff (first : UInt8) (sendbytes : ℤ) (recvBuf : CArray 520) :
    (∃ frame, cmdttFrame first sendbytes recvBuf = some frame ∧ Announced frame) ↔
      sendbytes ≤ 128 ∧
        (sendbytes = 1 → 1 ≤ (recvBuf.get 0).toNat ∧ (recvBuf.get 0).toNat ≤ 11) := by
  have hpack (num : ℕ) (hnum : num < 256) : ∃ frame,
      some (ttResultPack recvBuf num first) = some frame ∧ Announced frame :=
    ⟨_, rfl, announced_ttResultPack recvBuf hnum first⟩
  unfold cmdttFrame
  split
  · rename_i hone
    simp only [hone]
    split
    · rename_i hresult
      apply iff_of_true (hpack 1 (by decide))
      simp only [List.mem_cons, List.not_mem_nil, or_false] at hresult
      omega
    · split
      · rename_i hresult
        apply iff_of_true (hpack 2 (by decide))
        simp only [List.mem_cons, List.not_mem_nil, or_false] at hresult
        omega
      · rename_i hfailed hchanged
        apply iff_of_false
        · rintro ⟨frame, hframe, hannounced⟩
          cases hframe
          have hlen := hannounced.length
          rw [List.length_take, recvBuf.size] at hlen
          omega
        · rintro ⟨-, hcode⟩
          have hrange := hcode trivial
          simp only [List.mem_cons, List.not_mem_nil, or_false] at hfailed hchanged
          omega
  · rename_i hone
    split
    · split
      · rename_i hmany
        apply iff_of_false
        · rintro ⟨frame, hframe, -⟩
          cases hframe
        · omega
      · rename_i hfew
        apply iff_of_true
        · refine ⟨_, rfl, ?_⟩
          apply announced_frame
          rw [List.length_take, recvBuf.size, UInt8.toNat_ofNat', Nat.mod_eq_of_lt (by omega)]
          show min sendbytes.toNat 520 = sendbytes.toNat + 256 * 0
          omega
        · omega
    · rename_i hnothing
      apply iff_of_true (hpack 1 (by decide))
      omega

/-- A refusal announces one byte, and the address of another server stands behind it. -/
theorem accessAuthResultPack_announced_iff (node : DataSpm) :
    (∀ frame, accessAuthResultPack node = some frame → Announced frame) ↔
      ¬ (0 < node.mem.getInt Member.result ∧ node.mem.getNat Member.factoryFlag = 1 ∧
        ∃ info, node.mem.cstrAt Member.serverInfo = some info ∧ info ≠ []) := by
  constructor
  · rintro h ⟨hresult, hfactory, info, hinfo, hne⟩
    have hpack : ∃ code, accessAuthResultPack node = some ([0x91, 1, 0, 0x32, code] ++ info) := by
      simp only [accessAuthResultPack]
      rw [if_pos hresult, if_pos hfactory, hinfo]
      exact ⟨_, rfl⟩
    obtain ⟨code, hpack⟩ := hpack
    have hlen := (h _ hpack).length
    have hpos := List.length_pos_of_ne_nil hne
    rw [List.length_append] at hlen
    change 5 + info.length = 4 + 1 + 256 * 0 at hlen
    omega
  · intro h frame hframe
    simp only [accessAuthResultPack] at hframe
    split at hframe
    · rename_i hresult
      -- whatever is behind the code is empty
      have hnil : ∃ code, frame = [0x91, 1, 0, 0x32] ++ [code] := by
        split at hframe
        · rename_i hfactory
          obtain ⟨info, hinfo, hframe⟩ := Option.bind_eq_some_iff.mp hframe
          cases hframe
          have hempty : info = [] := by
            by_contra hne
            exact h ⟨hresult, hfactory, info, hinfo, hne⟩
          rw [hempty]
          exact ⟨_, rfl⟩
        · cases hframe
          exact ⟨_, rfl⟩
      obtain ⟨code, rfl⟩ := hnil
      exact announced_frame rfl
    · obtain ⟨ip, -, hframe⟩ := Option.bind_eq_some_iff.mp hframe
      obtain ⟨para1, -, hframe⟩ := Option.bind_eq_some_iff.mp hframe
      cases hframe
      apply announced_frame
      rw [(tdResult node para1).size]
      rfl

theorem announced_singleton_iff {o : Option (List UInt8)} :
    (∀ frames, (o.map fun frame => [frame]) = some frames → ∀ f ∈ frames, Announced f) ↔
      ∀ frame, o = some frame → Announced frame := by
  constructor
  · rintro h frame rfl
    exact h _ rfl frame (List.mem_singleton_self frame)
  · intro h frames hframes
    obtain ⟨frame, hframe, rfl⟩ := Option.map_eq_some_iff.mp hframes
    rw [List.forall_mem_singleton]
    exact h frame hframe

/-- For all but one packer it is only what is written that counts. -/
theorem announces_iff {a : Packing}
    (ha : ∀ first sendbytes recvBuf, a ≠ .codingWithCMDTT first sendbytes recvBuf) :
    a.Announces ↔ ∀ frames, a.frames = some frames → ∀ f ∈ frames, Announced f :=
  and_iff_left fun _ _ _ h => absurd h (ha _ _ _)

theorem announced_of_map {o : Option Handled} {frames : List (List UInt8)}
    (h : ∀ node frames, o = some (node, frames) → ∀ f ∈ frames, Announced f)
    (hframes : o.map Prod.snd = some frames) : ∀ f ∈ frames, Announced f := by
  obtain ⟨⟨node, frames'⟩, ho, rfl⟩ := Option.map_eq_some_iff.mp hframes
  exact h node frames' ho

theorem announced_header (tag result : UInt8) : ∀ f ∈ [[tag, 0, 0, result]], Announced f := by
  rw [List.forall_mem_singleton, ← List.append_nil [tag, 0, 0, result]]
  exact announced_frame rfl

theorem announced_textFrames {cmd : Cmd} {m : Member} {node : DataSpm} {frames : List (List UInt8)}
    (h : ((textAnswer cmd m node 0).map fun write => [write.bytes]) = some frames) :
    ∀ f ∈ frames, Announced f := by
  obtain ⟨write, hwrite, rfl⟩ := Option.map_eq_some_iff.mp h
  rw [List.forall_mem_singleton]
  exact announced_textAnswer hwrite

theorem announced_sendChangeIP {node node' : DataSpm} {w : World} {frames : List (List UInt8)}
    (h : sendChangeIP node w = some (node', frames)) : ∀ f ∈ frames, Announced f := by
  unfold sendChangeIP at h
  split at h
  · obtain ⟨_, -, h⟩ := Option.bind_eq_some_iff.mp h
    cases h
    exact announced_header _ _
  · cases h
    exact announced_header _ _

theorem announced_codingWithLowVsim {node node' : DataSpm} {frames : List (List UInt8)}
    (h : codingWithLowVsim node = some (node', frames)) : ∀ f ∈ frames, Announced f := by
  unfold codingWithLowVsim at h
  split at h
  · cases h
  · cases h
    exact announced_header _ _

theorem announced_codingWithVPNCmd {node node' : DataSpm} {frames : List (List UInt8)}
    (h : codingWithVPNCmd node = some (node', frames)) : ∀ f ∈ frames, Announced f := by
  simp only [codingWithVPNCmd] at h
  split_ifs at h
  · cases h
    exact announced_header _ _
  · cases h
    exact announced_header _ _

/-! ## Nothing else is written -/

/-- The frame is one of those of the answer. -/
def Packing.Writes (a : Packing) (frame : List UInt8) : Prop :=
  ∃ frames, a.frames = some frames ∧ frame ∈ frames

theorem Packing.Announces.writes {a : Packing} (h : a.Announces) {frame : List UInt8}
    (hframe : a.Writes frame) : Announced frame := by
  obtain ⟨frames, hframes, hmem⟩ := hframe
  exact h.1 frames hframes frame hmem

theorem writes_of_cmdttFrame {first : UInt8} {sendbytes : ℤ} {recvBuf : CArray 520}
    {frame : List UInt8} (h : cmdttFrame first sendbytes recvBuf = some frame) :
    (Packing.codingWithCMDTT first sendbytes recvBuf).Writes frame := by
  refine ⟨[frame], ?_, List.mem_singleton_self frame⟩
  rw [Packing.frames, h, Option.map_some]

theorem writes_of_accessAuthResultPack {node : DataSpm} {frame : List UInt8}
    (h : accessAuthResultPack node = some frame) :
    (Packing.accessAuthResultPack node).Writes frame := by
  refine ⟨[frame], ?_, List.mem_singleton_self frame⟩
  rw [Packing.frames, h, Option.map_some]

theorem codingWithCMDTT_writes {node node' : DataSpm} {w : World} {frames : List (List UInt8)}
    (h : codingWithCMDTT node w = some (node', frames)) :
    ∀ f ∈ frames, ∃ a : Packing, a.Writes f := by
  rw [codingWithCMDTT_eq] at h
  obtain ⟨started, -, h⟩ := Option.bind_eq_some_iff.mp h
  obtain ⟨⟨sendbytes, recvBuf, exchanged⟩, -, h⟩ := Option.bind_eq_some_iff.mp h
  obtain ⟨frame, hframe, h⟩ := Option.bind_eq_some_iff.mp h
  obtain ⟨logged, -, h⟩ := Option.bind_eq_some_iff.mp h
  cases h
  rw [List.forall_mem_singleton]
  exact ⟨_, writes_of_cmdttFrame hframe⟩

theorem codingWithAccessAuth_writes {node node' : DataSpm} {w : World}
    {frames : List (List UInt8)} (h : codingWithAccessAuth node w = some (node', frames)) :
    ∀ f ∈ frames, ∃ a : Packing, a.Writes f := by
  unfold codingWithAccessAuth at h
  obtain ⟨⟨authorised, frame⟩, hauth, h⟩ := Option.bind_eq_some_iff.mp h
  unfold accessAuth at hauth
  obtain ⟨⟨cnt, allocated⟩, -, hauth⟩ := Option.bind_eq_some_iff.mp hauth
  obtain ⟨packed, hpacked, hauth⟩ := Option.bind_eq_some_iff.mp hauth
  cases hauth
  cases h
  intro f hf
  split at hf
  · rw [List.mem_singleton.mp hf]
    exact ⟨_, writes_of_accessAuthResultPack hpacked⟩
  · cases hf

theorem writes_of_codingWithCFMDSocket {node node' : DataSpm} {mcc : ℤ} {state : ℕ} {w : World}
    {frames : List (List UInt8)}
    (h : codingWithCFMDSocket node mcc state w = some (node', frames)) {f : List UInt8}
    (hf : f ∈ frames) : (Packing.codingWithCFMD node mcc state w).Writes f := by
  refine ⟨frames, ?_, hf⟩
  rw [Packing.frames, h, Option.map_some]

theorem codingWithCFMD_writes {node node' : DataSpm} {w : World} {frames : List (List UInt8)}
    (h : codingWithCFMD node w = some (node', frames)) :
    ∀ f ∈ frames, ∃ a : Packing, a.Writes f := by
  unfold codingWithCFMD at h
  obtain ⟨tell, -, h⟩ := Option.bind_eq_some_iff.mp h
  obtain ⟨⟨answered, frames'⟩, hanswer, h⟩ := Option.bind_eq_some_iff.mp h
  obtain ⟨named, -, h⟩ := Option.bind_eq_some_iff.mp h
  cases h
  exact fun f hf => ⟨_, writes_of_codingWithCFMDSocket hanswer hf⟩

theorem codingWithLogOut_silent {node node' : DataSpm} {w : World} {frames : List (List UInt8)}
    (h : codingWithLogOut node w = some (node', frames)) : frames = [] := by
  unfold codingWithLogOut at h
  obtain ⟨named, -, h⟩ := Option.bind_eq_some_iff.mp h
  simp only at h
  split_ifs at h <;> cases h <;> rfl

theorem codingWithHB_silent {node node' : DataSpm} {frames : List (List UInt8)}
    (h : codingWithHB node = some (node', frames)) : frames = [] := by
  unfold codingWithHB at h
  split at h
  · obtain ⟨named, -, h⟩ := Option.bind_eq_some_iff.mp h
    cases h
    rfl
  · cases h
    rfl

/-- What a handler writes, apart from the SIM file, is one of the answers. -/
theorem codingWithDate_writes {node node' : DataSpm} {cmd : Cmd} {w : World}
    {frames : List (List UInt8)} (hcmd : cmd ≠ .simfileRequest)
    (h : codingWithDate node cmd w = some (node', frames)) :
    ∀ f ∈ frames, ∃ a : Packing, a.Writes f := by
  have hmap {a : Packing} {o : Option Handled} (ha : a.frames = o.map Prod.snd)
      (ho : o = some (node', frames)) : ∀ f ∈ frames, ∃ a : Packing, a.Writes f := by
    intro f hf
    refine ⟨a, frames, ?_, hf⟩
    rw [ha, ho, Option.map_some]
  have hsilent (ho : frames = []) : ∀ f ∈ frames, ∃ a : Packing, a.Writes f := by
    rw [ho]
    exact fun _ hf => absurd hf List.not_mem_nil
  unfold codingWithDate at h
  cases cmd with
  | ip => exact hmap (a := .sendChangeIP node w) rfl h
  | accessAuth => exact codingWithAccessAuth_writes h
  | simfileRequest => exact absurd rfl hcmd
  | cmdTT => exact codingWithCMDTT_writes h
  | cfmd => exact codingWithCFMD_writes h
  | lowVsim => exact hmap (a := .codingWithLowVsim node) rfl h
  | deal => exact hmap (a := .codingWithDeal node w) rfl h
  | vpnProfileRqst => exact hmap (a := .codingWithVPNRqst node) rfl h
  | vpnReleaseCmd => exact hmap (a := .codingWithVPNCmd node) rfl h
  | hb => exact hsilent (codingWithHB_silent h)
  | logout => exact hsilent (codingWithLogOut_silent h)
  | hbNew | localSta | adn | getApnInfo | autonet =>
    cases h
    exact hsilent rfl

theorem writes_confirm (tag result : UInt8) : (Packing.confirm tag result).Writes [tag, 0, 0, result] :=
  ⟨_, rfl, List.mem_singleton_self _⟩

theorem writes_codingWithTTReinsert {fd : ℤ} {tag : UInt8} {write : Write}
    (h : write ∈ codingWithTTReinsert fd tag) :
    (Packing.codingWithTTReinsert tag).Writes write.bytes := by
  unfold codingWithTTReinsert at h
  split at h
  · rw [List.mem_singleton.mp h]
    exact ⟨_, rfl, List.mem_singleton_self _⟩
  · cases h

/-- The bytes of a text do not depend on where they are sent. -/
theorem writes_textAnswer {cmd : Cmd} {m : Member} {node : DataSpm} {fd : ℤ} {write : Write}
    (h : textAnswer cmd m node fd = some write) {a : Packing}
    (ha : a.frames = (textAnswer cmd m node 0).map fun write => [write.bytes]) :
    a.Writes write.bytes := by
  obtain ⟨value, hvalue, h⟩ := Option.bind_eq_some_iff.mp h
  cases h
  refine ⟨[_], ?_, List.mem_singleton_self _⟩
  rw [ha, textAnswer, hvalue]
  rfl

theorem localAnswers_writes {tempBuf : CArray 256} {fd : ℤ} :
    ∀ write ∈ localAnswers tempBuf fd, ∃ a : Packing, a.Writes write.bytes := by
  intro write hwrite
  rcases List.mem_cons.mp hwrite with rfl | hwrite
  · exact ⟨_, writes_confirm _ _⟩
  · split at hwrite
    · exact ⟨_, writes_codingWithTTReinsert hwrite⟩
    · cases hwrite

theorem outSqlAnswer_writes {cmd : Cmd} {node : DataSpm} {fd : ℤ} {writes : List Write}
    (h : outSqlAnswer cmd node fd = some writes) :
    ∀ write ∈ writes, ∃ a : Packing, a.Writes write.bytes := by
  have hone {m : Member} {cmd : Cmd} {a : Packing}
      (ha : a.frames = (textAnswer cmd m node 0).map fun write => [write.bytes])
      (h : (textAnswer cmd m node fd).map (fun write => [write]) = some writes) :
      ∀ write ∈ writes, ∃ a : Packing, a.Writes write.bytes := by
    obtain ⟨write, hwrite, rfl⟩ := Option.map_eq_some_iff.mp h
    rw [List.forall_mem_singleton]
    exact ⟨a, writes_textAnswer hwrite ha⟩
  unfold outSqlAnswer at h
  split at h
  · exact hone (a := .codingWithSelnet node) rfl h
  · exact hone (a := .codingWithAPN node) rfl h
  · exact hone (a := .codingWithADN node) rfl h
  · cases h
    exact fun _ hf => absurd hf List.not_mem_nil

theorem ttReinsert_writes {para : Session} {fd : ℤ} :
    ∀ write ∈ ttReinsert para fd, ∃ a : Packing, a.Writes write.bytes := by
  intro write hwrite
  unfold ttReinsert at hwrite
  split at hwrite
  · cases hwrite
  · exact ⟨_, writes_codingWithTTReinsert hwrite⟩

theorem packAnswer_writes {cmd : Cmd} {fd : ℤ} :
    ∀ write ∈ packAnswer cmd fd, ∃ a : Packing, a.Writes write.bytes := by
  intro write hwrite
  unfold packAnswer at hwrite
  split at hwrite
  · rw [List.mem_singleton.mp hwrite]
    exact ⟨_, writes_confirm _ _⟩
  · rw [List.mem_singleton.mp hwrite]
    exact ⟨_, writes_confirm _ _⟩
  · cases hwrite

theorem codingWithLocalSocket_writes {r : Registry} {buf : CArray 512} {tempBuf : CArray 256}
    {para : Session} {fd : ℤ} {w : World} {received : Received}
    (h : codingWithLocalSocket r buf tempBuf para fd w = some received) :
    ∀ write ∈ received.writes, ∃ a : Packing, a.Writes write.bytes := by
  simp only [codingWithLocalSocket] at h
  obtain ⟨⟨node, r'⟩, -, h⟩ := Option.bind_eq_some_iff.mp h
  cases node with
  | none =>
    cases h
    exact localAnswers_writes
  | some i =>
    simp only at h
    split at h
    · cases h
      exact localAnswers_writes
    · cases h

theorem codingWithOutSql_writes {r : Registry} {tempBuf : CArray 256} {cmd : Cmd}
    {para : Session} {fd : ℤ} {w : World} {received : Received}
    (h : codingWithOutSql r tempBuf cmd para fd w = some received) :
    ∀ write ∈ received.writes, ∃ a : Packing, a.Writes write.bytes := by
  simp only [codingWithOutSql] at h
  obtain ⟨⟨node, r'⟩, -, h⟩ := Option.bind_eq_some_iff.mp h
  cases node with
  | none =>
    cases h
    exact fun _ hf => absurd hf List.not_mem_nil
  | some i =>
    obtain ⟨found, -, h⟩ := Option.bind_eq_some_iff.mp h
    obtain ⟨writes, hwrites, h⟩ := Option.bind_eq_some_iff.mp h
    cases h
    exact outSqlAnswer_writes hwrites

/-- What is written while a frame is decoded is one of the answers, too. -/
theorem deviceBranch_writes {r : Registry} {buf : CArray 512} {tempBuf : CArray 256} {cmd : Cmd}
    {para : Session} {fd : ℤ} {w : World} {received : Received}
    (h : deviceBranch r buf tempBuf cmd para fd w = some received) :
    ∀ write ∈ received.writes, ∃ a : Packing, a.Writes write.bytes := by
  have hconfirm (tag result : UInt8) :
      ∀ write ∈ [(⟨fd, [tag, 0, 0, result]⟩ : Write)], ∃ a : Packing, a.Writes write.bytes := by
    rw [List.forall_mem_singleton]
    exact ⟨_, writes_confirm tag result⟩
  unfold deviceBranch at h
  cases cmd with
  | accessAuth | simfileRequest | ip =>
    cases h
    exact fun _ hf => absurd hf List.not_mem_nil
  | cmdTT =>
    obtain ⟨⟨para', tempBuf'⟩, -, h⟩ := Option.bind_eq_some_iff.mp h
    cases h
    exact ttReinsert_writes
  | hbNew | hb =>
    cases h
    exact hconfirm _ _
  | vpnProfileRqst | vpnReleaseCmd | deal | lowVsim | logout | cfmd =>
    obtain ⟨para', -, h⟩ := Option.bind_eq_some_iff.mp h
    cases h
    dsimp only
    exact packAnswer_writes
  | localSta => exact codingWithLocalSocket_writes h
  | autonet | getApnInfo | adn => exact codingWithOutSql_writes h

/-- Every answer announces its own length, apart from two. -/
theorem announces_iff_plain (a : Packing) : a.Announces ↔ a.Plain := by
  cases a with
  | accessAuthResultPack node =>
    rw [announces_iff (by simp)]
    exact announced_singleton_iff.trans (accessAuthResultPack_announced_iff node)
  | codingWithCMDTT first sendbytes recvBuf =>
    rw [Packing.Plain, ← cmdttFrame_announced_iff first sendbytes recvBuf]
    constructor
    · rintro ⟨hframes, hsome⟩
      cases hframe : cmdttFrame first sendbytes recvBuf with
      | none => exact absurd (congrArg (Option.map fun frame => [frame]) hframe) (hsome _ _ _ rfl)
      | some frame => exact ⟨frame, rfl, announced_singleton_iff.mp hframes frame hframe⟩
    · rintro ⟨frame, hframe, hannounced⟩
      have hframes : (Packing.codingWithCMDTT first sendbytes recvBuf).frames = some [frame] :=
        congrArg (Option.map fun frame => [frame]) hframe
      constructor
      · intro frames h
        cases hframes.symm.trans h
        rwa [List.forall_mem_singleton]
      · intro _ _ _ _ hnone
        cases hframes.symm.trans hnone
  | codingWithCFMD node mcc state w =>
    rw [announces_iff (by simp)]
    exact iff_of_true (fun _ =>
      announced_of_map fun _ _ h => announced_codingWithCFMDSocket h) trivial
  | codingWithLowVsim node =>
    rw [announces_iff (by simp)]
    exact iff_of_true (fun _ => announced_of_map fun _ _ h => announced_codingWithLowVsim h) trivial
  | codingWithDeal node w =>
    rw [announces_iff (by simp)]
    exact iff_of_true (fun _ => announced_of_map fun _ _ h => announced_codingWithDeal h) trivial
  | codingWithVPNRqst node =>
    rw [announces_iff (by simp)]
    exact iff_of_true (fun _ h => Option.some.inj h ▸ announced_header _ _) trivial
  | codingWithVPNCmd node =>
    rw [announces_iff (by simp)]
    exact iff_of_true (fun _ => announced_of_map fun _ _ h => announced_codingWithVPNCmd h) trivial
  | sendChangeIP node w =>
    rw [announces_iff (by simp)]
    exact iff_of_true (fun _ => announced_of_map fun _ _ h => announced_sendChangeIP h) trivial
  | codingWithSelnet node =>
    rw [announces_iff (by simp)]
    exact iff_of_true (fun _ => announced_textFrames) trivial
  | codingWithAPN node =>
    rw [announces_iff (by simp)]
    exact iff_of_true (fun _ => announced_textFrames) trivial
  | codingWithADN node =>
    rw [announces_iff (by simp)]
    exact iff_of_true (fun _ => announced_textFrames) trivial
  | clientWebManage src =>
    rw [announces_iff (by simp)]
    apply iff_of_true _ trivial
    intro frames hframes
    obtain ⟨para1, hpara, rfl⟩ := Option.map_eq_some_iff.mp hframes
    intro f hf
    exact announced_webFrame (length_dst_of_getValue hpara) (Option.mem_toList.mp hf)
  | codingWithTTReinsert tag =>
    rw [announces_iff (by simp)]
    exact iff_of_true (fun _ h => Option.some.inj h ▸ announced_header _ _) trivial
  | confirm tag result =>
    rw [announces_iff (by simp)]
    exact iff_of_true (fun _ h => Option.some.inj h ▸ announced_header _ _) trivial

/-- The answer to a device that asks for its access point. -/
theorem announces_iff_plain_apn :
    (Packing.codingWithAPN initDataSpm).Announces ∧ (Packing.codingWithAPN initDataSpm).Plain :=
  ⟨(announces_iff_plain _).mpr trivial, trivial⟩

/-- A login refused with the address of another server. -/
def redirectedNode : DataSpm :=
  let node := (initDataSpm.setNat Member.result 3).setNat Member.factoryFlag 1
  { node with mem := node.mem.put Member.serverInfo.off (text "10.0.0.1:5000") (by decide) }

/-- The refusal announces one byte and sends fourteen; the code 200 of the SIM pool server is
sent without a header. -/
theorem answers_not_announced :
    accessAuthResultPack redirectedNode =
      some ([0x91, 1, 0, 0x32, 3] ++ text "10.0.0.1:5000") ∧
    cmdttFrame 7 1 ((CArray.zero 520).overlay [200] (by decide)) = some [200] ∧
    ¬ (Packing.accessAuthResultPack redirectedNode).Announces ∧
    ¬ (Packing.codingWithCMDTT 7 1 ((CArray.zero 520).overlay [200] (by decide))).Announces := by
  have hlogin : accessAuthResultPack redirectedNode =
      some ([0x91, 1, 0, 0x32, 3] ++ text "10.0.0.1:5000") := by decide +kernel
  have hcode : cmdttFrame 7 1 ((CArray.zero 520).overlay [200] (by decide)) = some [200] := by
    decide +kernel
  refine ⟨hlogin, hcode, ?_, ?_⟩
  · intro h
    exact absurd (h.writes (writes_of_accessAuthResultPack hlogin)).length (by decide)
  · intro h
    exact absurd (h.writes (writes_of_cmdttFrame hcode)).length (by decide)

end Tdm.Device
