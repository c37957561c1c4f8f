import Tdm.Device.LoginStores
import Tdm.Lib.System

/-!
# Logins of one device, one after the other

The node of a device goes from login to login. Texts of a deal are copied over those of the
one before without a terminator, network selection and the redirect flag are only ever set,
so an answer can carry data of an earlier login. `NoLeftover` says of the node before a
login that nothing of this kind can happen; it looks at the lengths of the texts there and
at the two flags. In runs of such logins every answer depends on the request and the reply
of the backend alone (`login_history_independent`).
-/

namespace Tdm.Device

open Tdm.Lib Tdm.Common

/-! ## What stays in order -/

theorem read_copiedInfo (node : DataSpm) {t : List UInt8} (hlen : t.length ≤ 128) :
    (node.stores [.of Member.serverInfo t]).mem.read Member.serverInfo =
      t ++ (node.mem.read Member.serverInfo).drop t.length := by
  have hread := CArray.read_stores_of_mem (a := node.mem) (w := .of Member.serverInfo t)
    (List.mem_singleton.mpr rfl) (fun v hv => .inl (List.mem_singleton.mp hv))
  rwa [Store.src_of hlen] at hread

theorem read_copiedInfo_of_disjoint {node : DataSpm} {t : List UInt8} {f : Member}
    (hf : Member.serverInfo.Disjoint f) :
    (node.stores [.of Member.serverInfo t]).mem.read f = node.mem.read f := by
  rw [DataSpm.mem_stores]
  apply CArray.read_stores_of_disjoint
  intro w hw
  rw [List.mem_singleton.mp hw]
  exact hf

/-- The text members hold strings with zeros behind them, and there is no threshold. -/
structure Tidy (node : DataSpm) : Prop where
  threshold : node.mem.getNat Member.threshold = 0
  ip : ∃ s, node.mem.Holds Member.ip s
  apn : ∃ s, node.mem.Holds Member.apn s
  selnet : ∃ s, node.mem.Holds Member.selnet s
  vusim : ∃ s, node.mem.Holds Member.vusimActiveNum s
  serverInfo : ∃ s, node.mem.Holds Member.serverInfo s

/-- The members `Tidy` is about. -/
def tidyFields : List Member :=
  [Member.threshold, Member.ip, Member.apn, Member.selnet, Member.vusimActiveNum,
   Member.serverInfo]

namespace Tidy

variable {node node' : DataSpm}

theorem congr (h : Tidy node) (hread : ∀ f ∈ tidyFields, node'.mem.read f = node.mem.read f) :
    Tidy node' where
  threshold := (congrArg leNat (hread _ (by simp [tidyFields]))).trans h.threshold
  ip := h.ip.imp fun _ hs => hs.congr (hread _ (by simp [tidyFields]))
  apn := h.apn.imp fun _ hs => hs.congr (hread _ (by simp [tidyFields]))
  selnet := h.selnet.imp fun _ hs => hs.congr (hread _ (by simp [tidyFields]))
  vusim := h.vusim.imp fun _ hs => hs.congr (hread _ (by simp [tidyFields]))
  serverInfo := h.serverInfo.imp fun _ hs => hs.congr (hread _ (by simp [tidyFields]))

theorem setNat (h : Tidy node) {f : Member} (v : ℕ) (hf : ∀ g ∈ tidyFields, f.Disjoint g) :
    Tidy (node.setNat f v) :=
  h.congr fun _ hg => node.read_setNat v (hf _ hg)

theorem prepare (h : Tidy node) (para : NodeData) : Tidy (prepare node para) := by
  apply h.congr
  intro f hf
  apply read_prepare
  have hdisj : ∀ f ∈ tidyFields, ∀ g ∈ requestFields, g.Disjoint f := by decide
  exact hdisj f hf

/-- A text is copied to `ServerInfo`. -/
theorem copyInfo (h : Tidy node) {t : List UInt8} (hclean : 0 ∉ t) (hlen : t.length < 128) :
    Tidy (node.stores [.of Member.serverInfo t]) := by
  have hread := @read_copiedInfo_of_disjoint node t
  obtain ⟨s, hs⟩ := h.serverInfo
  exact {
    threshold := (congrArg leNat (hread (by decide))).trans h.threshold
    ip := h.ip.imp fun _ hs => hs.congr (hread (by decide))
    apn := h.apn.imp fun _ hs => hs.congr (hread (by decide))
    selnet := h.selnet.imp fun _ hs => hs.congr (hread (by decide))
    vusim := h.vusim.imp fun _ hs => hs.congr (hread (by decide))
    serverInfo := ⟨_, hs.overlay hclean hlen (read_copiedInfo node (Nat.le_of_lt hlen))⟩ }

theorem deal (h : Tidy node) {deal : Deal} (ht : deal.Texts) (hf : deal.Fits) :
    Tidy (node.stores deal.stores) := by
  obtain ⟨ip, hip⟩ := h.ip
  obtain ⟨apn, hapn⟩ := h.apn
  obtain ⟨selnet, hselnet⟩ := h.selnet
  obtain ⟨vusim, hvusim⟩ := h.vusim
  obtain ⟨info, hinfo⟩ := h.serverInfo
  obtain ⟨info', hinfo', -⟩ := Deal.holds_serverInfo_stored ht.serverInfo hf hinfo
  have hthreshold : (node.stores deal.stores).mem.read Member.threshold =
      node.mem.read Member.threshold := Deal.read_stores_of_unused (by decide) (by decide) node
  exact {
    threshold := (congrArg leNat hthreshold).trans h.threshold
    ip := ⟨_, ht.holds_ip hip⟩
    apn := ⟨_, ht.holds_apn hapn⟩
    selnet := ⟨_, ht.holds_selnet hselnet⟩
    vusim := ⟨_, ht.holds_vusim hvusim⟩
    serverInfo := ⟨info', hinfo'⟩ }

end Tidy

/-- A node that was just allocated for a device. -/
theorem tidy_fresh (sn : SnArg) : Tidy (initDataSpm.copySN sn) := by
  have hread : ∀ f ∈ tidyFields, (initDataSpm.copySN sn).mem.read f = List.replicate f.size 0 := by
    have hkey : ∀ f ∈ tidyFields, Member.key.Disjoint f := by decide
    have hsocket : ∀ f ∈ tidyFields, Member.socketSpm.Disjoint f := by decide
    intro f hf
    rw [DataSpm.read_copySN _ _ (hkey f hf)]
    exact (DataSpm.zero.read_setInt (-1) (hsocket f hf)).trans (CArray.read_zero f)
  have hholds : ∀ f ∈ tidyFields, 0 < f.size → (initDataSpm.copySN sn).mem.Holds f [] :=
    fun f hf hpos => .of_zeros hpos (hread f hf)
  exact {
    threshold := congrArg leNat (hread Member.threshold (by simp [tidyFields]))
    ip := ⟨[], hholds _ (by simp [tidyFields]) (by decide)⟩
    apn := ⟨[], hholds _ (by simp [tidyFields]) (by decide)⟩
    selnet := ⟨[], hholds _ (by simp [tidyFields]) (by decide)⟩
    vusim := ⟨[], hholds _ (by simp [tidyFields]) (by decide)⟩
    serverInfo := ⟨[], hholds _ (by simp [tidyFields]) (by decide)⟩ }

/-! ## The condition -/

/-- The string in a member has at most `len` bytes. -/
def NotLonger (node : DataSpm) (f : Member) (len : ℕ) : Prop :=
  ∀ s ∈ node.mem.cstrAt f, s.length ≤ len

instance (node : DataSpm) (f : Member) (len : ℕ) : Decidable (NotLonger node f len) :=
  inferInstanceAs (Decidable (∀ s ∈ node.mem.cstrAt f, s.length ≤ len))

/-- Nothing of an earlier login can get into what is made of an answer of the backend. -/
def Answer.NoLeftover (node : DataSpm) : Answer → Prop
  | .refused _ => node.mem.getNat Member.factoryFlag ≠ 1
  | .granted deal =>
    NotLonger node Member.ip deal.ip.length ∧
    NotLonger node Member.apn deal.apnText.length ∧
    NotLonger node Member.selnet deal.selnetText.length ∧
    NotLonger node Member.vusimActiveNum deal.vusimText.length ∧
    (deal.selnetText = [] → node.mem.getNat Member.isNet = 0)

instance (node : DataSpm) : (answer : Answer) → Decidable (answer.NoLeftover node)
  | .refused _ => inferInstanceAs (Decidable (_ ≠ _))
  | .granted _ => inferInstanceAs (Decidable (_ ∧ _ ∧ _ ∧ _ ∧ (_ → _)))

/-- Nothing of an earlier login can get into the answer to this one. -/
def NoLeftover (node : DataSpm) (para : NodeData) (answer : Answer) : Prop :=
  if redirected (requestMCC para) then NotLonger node Member.serverInfo testIP.length
  else answer.NoLeftover node

instance (node : DataSpm) (para : NodeData) (answer : Answer) :
    Decidable (NoLeftover node para answer) :=
  inferInstanceAs (Decidable (if redirected (requestMCC para)
    then NotLonger node Member.serverInfo testIP.length else answer.NoLeftover node))

/-! ## The answer frame -/

/-- The data attached to an answer frame that refuses the login. -/
def attached (frame : List UInt8) : List UInt8 :=
  if frame[3]? = some 0x32 then frame.drop 5 else []

/-- The server the backend redirects to, if it does. -/
def Answer.redirectInfo : Answer → List UInt8
  | .refused _ => []
  | .granted deal => deal.redirectInfo

/-- The server a login is redirected to, if it is redirected. -/
def redirectInfo (para : NodeData) (answer : Answer) : List UInt8 :=
  if redirected (requestMCC para) then testIP else answer.redirectInfo

theorem pack_refusal {node : DataSpm} {code : SimAllocErrCode} {info : List UInt8}
    (hresult : node.mem.getInt Member.result = code.value) (hcode : code ≠ .sockErr)
    (hinfo : (if node.mem.getNat Member.factoryFlag = 1 then node.mem.cstrAt Member.serverInfo
      else some []) = some info) :
    accessAuthResultPack node =
      some ([0x91, 1, 0, 0x32, UInt8.ofNat code.value.toNat] ++ info) := by
  have hpos : 0 < code.value := by cases code <;> decide
  have hne : code.value ≠ SimAllocErrCode.sockErr.value := by
    cases code <;> first | decide | exact absurd rfl hcode
  simp only [accessAuthResultPack, hresult, if_pos hpos, if_neg hne, Option.bind_eq_bind,
    Option.bind_some]
  by_cases hflag : node.mem.getNat Member.factoryFlag = 1
  · rw [if_pos hflag] at hinfo ⊢
    rw [hinfo]
    rfl
  · rw [if_neg hflag] at hinfo ⊢
    cases hinfo
    rfl

/-- The dotted text of a deal fits `simip`, its numbers fit `Data_IP`. -/
theorem setDadaIP_isSome {ip : List UInt8} (h : ip.length < 16) :
    ∃ para1, setDadaIP ip = some para1 := by
  have htokens : 2 * (tokens 46 ip).length ≤ ip.length + 1 := length_strtokLoop ..
  unfold setDadaIP
  rw [if_neg (by omega), CArray.memcpy_of_le]
  · exact ⟨_, rfl⟩
  · rw [List.length_map]
    omega

theorem pack_granted {node : DataSpm} {ip : List UInt8} {para1 : CArray 12}
    (hresult : node.mem.getInt Member.result = 0) (hip : node.mem.cstrAt Member.ip = some ip)
    (hpara : setDadaIP ip = some para1) :
    accessAuthResultPack node = some ([0x91, 36, 0, 0x31] ++ (tdResult node para1).bytes) := by
  simp only [accessAuthResultPack, hresult, Int.lt_irrefl, if_false, hip, hpara,
    Option.bind_eq_bind, Option.bind_some]
  rfl

/-- The numbers a granted answer is made of. -/
def numberFields : List Member :=
  [Member.miniteRemain, Member.needFile, Member.orderType, Member.lastStart, Member.isApn,
   Member.isNet, Member.speedType, Member.ifVPN, Member.ifRoam, Member.threshold,
   Member.vusimActiveFlag, Member.simBankID, Member.channelID, Member.port]

theorem tdResult_congr {a b : DataSpm} (himsi : a.mem.read Member.imsi = b.mem.read Member.imsi)
    (h : ∀ f ∈ numberFields, a.mem.getNat f = b.mem.getNat f) (para1 : CArray 12) :
    tdResult a para1 = tdResult b para1 := by
  have hcopy : (CArray.zero 36).copyField TdResult.imsi a.mem Member.imsi (by decide) =
      (CArray.zero 36).copyField TdResult.imsi b.mem Member.imsi (by decide) := by
    unfold CArray.copyField
    congr 1
  have h' : ∀ {f}, f ∈ numberFields → a.mem.getNat f = b.mem.getNat f := fun hf => h _ hf
  simp only [tdResult, featureByte, hcopy, h' (f := Member.miniteRemain) (by simp [numberFields]),
    h' (f := Member.needFile) (by simp [numberFields]),
    h' (f := Member.orderType) (by simp [numberFields]),
    h' (f := Member.lastStart) (by simp [numberFields]),
    h' (f := Member.isApn) (by simp [numberFields]),
    h' (f := Member.isNet) (by simp [numberFields]),
    h' (f := Member.speedType) (by simp [numberFields]),
    h' (f := Member.ifVPN) (by simp [numberFields]),
    h' (f := Member.ifRoam) (by simp [numberFields]),
    h' (f := Member.threshold) (by simp [numberFields]),
    h' (f := Member.vusimActiveFlag) (by simp [numberFields]),
    h' (f := Member.simBankID) (by simp [numberFields]),
    h' (f := Member.channelID) (by simp [numberFields]),
    h' (f := Member.port) (by simp [numberFields])]

/-! ## One login -/

/-- The node the answer frame is made from. -/
def settled (node : DataSpm) (para : NodeData) (answer : Answer) : DataSpm :=
  (prepare node para).stores (loginStores para answer)

theorem login_eq {x : Exchange} {answer : Answer} (h : Reply x answer) (node : DataSpm)
    (para : NodeData) : login node para x =
      (accessAuthResultPack (settled node para answer)).map fun frame =>
        ((settled node para answer).setNat Member.type 1, frame) := by
  obtain ⟨⟨cnt, node'⟩, hproc, hnode⟩ := Option.map_eq_some_iff.mp (simAllocateProc_eq h node para)
  have hnode' : node' = settled node para answer := hnode
  unfold login accessAuth
  rw [hproc, ← hnode']
  simp only [Option.bind_eq_bind, Option.bind_some]
  cases accessAuthResultPack node' <;> rfl

theorem getInt_setInt_result (node : DataSpm) (code : SimAllocErrCode) :
    (node.setInt Member.result code.value).mem.getInt Member.result = code.value := by
  apply CArray.getInt_setInt_self _ (by decide)
  · cases code <;> decide
  · cases code <;> decide

/-- A string that is not longer than the text copied over it. -/
theorem NotLonger.length_le {node : DataSpm} {f : Member} {len : ℕ} (h : NotLonger node f len)
    {s : List UInt8} (hs : node.mem.Holds f s) : s.length ≤ len := h s hs.cstrAt

theorem testIP_clean : 0 ∉ testIP := by decide

theorem masterIP_clean : 0 ∉ masterIP := by decide

section Cases

variable {node : DataSpm} {para : NodeData}

theorem settled_redirected (hr : redirected (requestMCC para) = true) (answer : Answer) :
    settled node para answer = (((prepare node para).setNat Member.factoryFlag 1).stores
      [.of Member.serverInfo testIP]).setInt Member.result SimAllocErrCode.ipChange.value := by
  rw [settled, loginStores, if_pos hr, DataSpm.setInt_eq_stores, DataSpm.setNat_eq_stores,
    ← DataSpm.stores_append, ← DataSpm.stores_append]
  rfl

/-- The country of the request is redirected. -/
theorem pack_redirected (ht : Tidy node) (hr : redirected (requestMCC para) = true)
    (answer : Answer) (hl : NoLeftover node para answer) :
    accessAuthResultPack (settled node para answer) = some ([0x91, 1, 0, 0x32, 6] ++ testIP) := by
  obtain ⟨s, hs⟩ := (ht.prepare para).serverInfo
  have hle : s.length ≤ testIP.length := by
    rw [NoLeftover, if_pos hr] at hl
    exact hl.length_le (hs.congr (read_prepare node para (by decide)).symm)
  have hsettled := @settled_redirected node para hr answer
  have hflag : (settled node para answer).mem.getNat Member.factoryFlag = 1 := by
    rw [hsettled, CArray.getNat, DataSpm.read_setInt _ _ (by decide),
      read_copiedInfo_of_disjoint (by decide), ← CArray.getNat, DataSpm.getNat_setNat]
    rfl
  have hinfo : (settled node para answer).mem.Holds Member.serverInfo testIP := by
    have hs' : ((prepare node para).setNat Member.factoryFlag 1).mem.Holds Member.serverInfo s :=
      hs.congr (DataSpm.read_setNat _ _ (by decide))
    rw [hsettled]
    apply (hs'.overwrite testIP_clean (by decide) (read_copiedInfo _ (by decide)) hle).congr
    exact DataSpm.read_setInt _ _ (by decide)
  refine pack_refusal (?_ : _ = SimAllocErrCode.ipChange.value) ?_ ?_
  · rw [hsettled]
    exact getInt_setInt_result _ .ipChange
  · decide
  · rw [if_pos hflag, hinfo.cstrAt]

/-- The node once `ServerInfo` has its preset. -/
def preset (node : DataSpm) (para : NodeData) : DataSpm :=
  (prepare node para).stores [.of Member.serverInfo masterIP]

theorem settled_of_not_redirected (hr : ¬ redirected (requestMCC para) = true) (answer : Answer) :
    settled node para answer = (preset node para).stores answer.stores := by
  rw [settled, loginStores, if_neg hr, DataSpm.stores_append]
  rfl

theorem Tidy.preset (ht : Tidy node) (para : NodeData) : Tidy (preset node para) :=
  (ht.prepare para).copyInfo masterIP_clean (by decide)

theorem read_preset {f : Member} (hf : ∀ g ∈ Member.serverInfo :: requestFields, g.Disjoint f) :
    (preset node para).mem.read f = node.mem.read f := by
  rw [Tdm.Device.preset, read_copiedInfo_of_disjoint (hf _ (by simp))]
  exact read_prepare node para fun g hg => hf g (List.mem_cons_of_mem _ hg)

/-- The backend refuses. -/
theorem pack_refused {code : SimAllocErrCode} (hcode : code ≠ .sockErr)
    (hr : ¬ redirected (requestMCC para) = true) (hl : NoLeftover node para (.refused code)) :
    accessAuthResultPack (settled node para (.refused code)) =
      some ([0x91, 1, 0, 0x32, UInt8.ofNat code.value.toNat] ++ []) := by
  have hsettled : settled node para (.refused code) =
      (preset node para).setInt Member.result code.value := settled_of_not_redirected hr _
  have hflag : (settled node para (.refused code)).mem.getNat Member.factoryFlag ≠ 1 := by
    rw [NoLeftover, if_neg hr] at hl
    rw [hsettled, CArray.getNat, DataSpm.read_setInt _ _ (by decide), read_preset (by decide)]
    exact hl
  refine pack_refusal ?_ hcode ?_
  · rw [hsettled]
    exact getInt_setInt_result _ code
  · rw [if_neg hflag]

theorem settled_redirect (hr : ¬ redirected (requestMCC para) = true) {deal : Deal}
    (hred : deal.redirectInfo ≠ []) : settled node para (.granted deal) =
      ((preset node para).stores deal.stores).setInt Member.result
        SimAllocErrCode.ipChange.value := by
  rw [settled_of_not_redirected hr, Answer.stores, if_neg hred, DataSpm.stores_append]
  rfl

theorem settled_deal (hr : ¬ redirected (requestMCC para) = true) {deal : Deal}
    (hred : deal.redirectInfo = []) :
    settled node para (.granted deal) = (preset node para).stores deal.stores := by
  rw [settled_of_not_redirected hr, Answer.stores, if_pos hred, List.append_nil]

/-- The backend redirects. -/
theorem pack_redirect (ht : Tidy node) {deal : Deal} (htexts : deal.Texts) (hf : deal.Fits)
    (hr : ¬ redirected (requestMCC para) = true) (hred : deal.redirectInfo ≠ []) :
    accessAuthResultPack (settled node para (.granted deal)) =
      some ([0x91, 1, 0, 0x32, 6] ++ deal.redirectInfo) := by
  have hsettled := @settled_redirect node para hr deal hred
  obtain ⟨s, hs⟩ := (ht.preset para).serverInfo
  obtain ⟨s', hs', hinfo⟩ := Deal.holds_serverInfo_stored htexts.serverInfo hf hs
  obtain rfl := hinfo hred
  have hflag : (settled node para (.granted deal)).mem.getNat Member.factoryFlag = 1 := by
    rw [hsettled, CArray.getNat, DataSpm.read_setInt _ _ (by decide), ← CArray.getNat,
      Deal.factoryFlag_stored, if_neg hred]
  refine pack_refusal (?_ : _ = SimAllocErrCode.ipChange.value) ?_ ?_
  · rw [hsettled]
    exact getInt_setInt_result _ .ipChange
  · decide
  · rw [if_pos hflag, hsettled]
    exact (hs'.congr (DataSpm.read_setInt _ _ (by decide))).cstrAt

/-- What a granted deal leaves in the node when nothing of an earlier one is left. -/
structure Renewed (node : DataSpm) (deal : Deal) : Prop where
  ip : node.mem.Holds Member.ip deal.ip
  apn : node.mem.Holds Member.apn deal.apnText
  selnet : node.mem.Holds Member.selnet deal.selnetText
  vusim : node.mem.Holds Member.vusimActiveNum deal.vusimText

theorem Renewed.setNat {deal : Deal} (h : Renewed node deal) {f : Member} (v : ℕ)
    (hf : ∀ g ∈ tidyFields, f.Disjoint g) : Renewed (node.setNat f v) deal where
  ip := h.ip.congr (node.read_setNat v (hf _ (by simp [tidyFields])))
  apn := h.apn.congr (node.read_setNat v (hf _ (by simp [tidyFields])))
  selnet := h.selnet.congr (node.read_setNat v (hf _ (by simp [tidyFields])))
  vusim := h.vusim.congr (node.read_setNat v (hf _ (by simp [tidyFields])))

theorem drop_of_notLonger {f : Member} {t s : List UInt8}
    (hf : ∀ g ∈ Member.serverInfo :: requestFields, g.Disjoint f)
    (h : NotLonger node f t.length) (hs : (preset node para).mem.Holds f s) :
    t ++ s.drop t.length = t := by
  have hle : s.length ≤ t.length := h.length_le (hs.congr (read_preset hf).symm)
  rw [List.drop_eq_nil_of_le hle, List.append_nil]

theorem renewed_deal (ht : Tidy node) {deal : Deal} (htexts : deal.Texts)
    (hl : Answer.NoLeftover node (.granted deal)) :
    Renewed ((preset node para).stores deal.stores) deal := by
  obtain ⟨hip, hapn, hselnet, hvusim, -⟩ := hl
  have htidy := ht.preset para
  obtain ⟨ip, hip'⟩ := htidy.ip
  obtain ⟨apn, hapn'⟩ := htidy.apn
  obtain ⟨selnet, hselnet'⟩ := htidy.selnet
  obtain ⟨vusim, hvusim'⟩ := htidy.vusim
  exact {
    ip := drop_of_notLonger (by decide) hip hip' ▸ htexts.holds_ip hip'
    apn := drop_of_notLonger (by decide) hapn hapn' ▸ htexts.holds_apn hapn'
    selnet := drop_of_notLonger (by decide) hselnet hselnet' ▸ htexts.holds_selnet hselnet'
    vusim := drop_of_notLonger (by decide) hvusim hvusim' ▸ htexts.holds_vusim hvusim' }

/-- The numbers of the answer to a granted login do not depend on the node. -/
theorem numbers_granted {node' : DataSpm} {deal : Deal} (ht : Tidy node) (ht' : Tidy node')
    (hf : deal.Fits) (hl : Answer.NoLeftover node (.granted deal))
    (hl' : Answer.NoLeftover node' (.granted deal)) {f : Member} (h : f ∈ numberFields) :
    ((preset node para).stores deal.stores).mem.getNat f =
      ((preset node' para).stores deal.stores).mem.getNat f := by
  have hcases : f = Member.isNet ∨ f = Member.threshold ∨ f ∈ Deal.settledFields := by
    simp only [numberFields, Deal.settledFields, List.mem_cons, List.not_mem_nil, or_false] at h ⊢
    grind
  rcases hcases with rfl | rfl | hsettled
  · -- switched on by this deal, or off in both nodes
    rw [Deal.isNet_stored, Deal.isNet_stored]
    by_cases hnil : deal.selnetText = []
    · rw [if_pos hnil, if_pos hnil, CArray.getNat, CArray.getNat, read_preset (by decide),
        read_preset (by decide)]
      exact (hl.2.2.2.2 hnil).trans (hl'.2.2.2.2 hnil).symm
    · rw [if_neg hnil, if_neg hnil]
  · have hread : ∀ node : DataSpm, (node.stores deal.stores).mem.read Member.threshold =
        node.mem.read Member.threshold := Deal.read_stores_of_unused (by decide) (by decide)
    rw [CArray.getNat, CArray.getNat, hread, hread]
    exact (ht.preset para).threshold.trans (ht'.preset para).threshold.symm
  · exact congrArg leNat (Deal.read_settled_congr hf _ _ hsettled)

/-- The backend grants a deal that is no redirect. -/
theorem pack_deal {node' : DataSpm} {deal : Deal} (ht : Tidy node) (ht' : Tidy node')
    (htexts : deal.Texts) (hf : deal.Fits) (hr : ¬ redirected (requestMCC para) = true)
    (hred : deal.redirectInfo = []) (hl : Answer.NoLeftover node (.granted deal))
    (hl' : Answer.NoLeftover node' (.granted deal)) :
    ∃ bytes, accessAuthResultPack (settled node para (.granted deal)) =
        some ([0x91, 36, 0, 0x31] ++ bytes) ∧
      accessAuthResultPack (settled node' para (.granted deal)) =
        some ([0x91, 36, 0, 0x31] ++ bytes) := by
  obtain ⟨para1, hpara⟩ := setDadaIP_isSome hf.ip
  have hpack : ∀ node : DataSpm, Tidy node → Answer.NoLeftover node (.granted deal) →
      accessAuthResultPack (settled node para (.granted deal)) = some ([0x91, 36, 0, 0x31] ++
        (tdResult ((preset node para).stores deal.stores) para1).bytes) := by
    intro node ht hl
    rw [settled_deal hr hred]
    exact pack_granted (deal.result_stored _) (renewed_deal ht htexts hl).ip.cstrAt hpara
  refine ⟨_, hpack node ht hl, ?_⟩
  rw [hpack node' ht' hl', tdResult_congr]
  · exact Deal.read_settled_congr hf _ _ (by simp [Deal.settledFields])
  · exact fun f h => numbers_granted ht' ht hf hl' hl h

end Cases

/-! ## Runs -/

/-- The logins of one device whose steps leave nothing over. A label is the request, the
exchange with the backend and what the backend answers in it. -/
def logins (sn : SnArg) : System DataSpm (NodeData × Exchange × Answer) where
  init node := node = initDataSpm.copySN sn
  step node label node' := Reply label.2.1 label.2.2 ∧ NoLeftover node label.1 label.2.2 ∧
    ∃ frame, login node label.1 label.2.1 = some (node', frame)

theorem Tidy.settled {node : DataSpm} {para : NodeData} {x : Exchange} {answer : Answer}
    (ht : Tidy node) (h : Reply x answer) : Tidy (settled node para answer) := by
  by_cases hr : redirected (requestMCC para) = true
  · rw [settled_redirected hr]
    apply Tidy.setNat _ _ (by decide)
    apply Tidy.copyInfo _ testIP_clean (by decide)
    exact (ht.prepare para).setNat 1 (by decide)
  · have hpreset := ht.preset para
    cases answer with
    | refused code =>
      rw [settled_of_not_redirected hr]
      exact hpreset.setNat (f := Member.result) _ (by decide)
    | granted deal =>
      have hdeal := hpreset.deal (Deal.texts_of_reply h) h.choose_spec.2.2
      by_cases hred : deal.redirectInfo = []
      · rw [settled_deal hr hred]
        exact hdeal
      · rw [settled_redirect hr hred]
        exact hdeal.setNat _ (by decide)

theorem Tidy.login {node node' : DataSpm} {para : NodeData} {x : Exchange} {answer : Answer}
    {frame : List UInt8} (ht : Tidy node) (hr : Reply x answer)
    (h : login node para x = some (node', frame)) : Tidy node' := by
  rw [login_eq hr] at h
  obtain ⟨frame', -, h⟩ := Option.map_eq_some_iff.mp h
  obtain ⟨rfl, -⟩ := Prod.mk.inj h
  exact (ht.settled hr).setNat 1 (by decide)

theorem tidy_of_reachable {sn : SnArg} {node : DataSpm} (h : (logins sn).Reachable node) :
    Tidy node := by
  apply h.invariant
  · rintro node rfl
    exact tidy_fresh sn
  · rintro node ⟨para, x, answer⟩ node' - ht ⟨hr, -, frame, hlogin⟩
    exact ht.login hr hlogin

/-- The answer to a login is the same in both nodes, and nothing is attached to it but the
server of a redirect. -/
theorem pack_agrees {node node' : DataSpm} {para : NodeData} {x : Exchange} {answer : Answer}
    (ht : Tidy node) (ht' : Tidy node') (hr : Reply x answer) (hl : NoLeftover node para answer)
    (hl' : NoLeftover node' para answer) :
    ∃ frame, accessAuthResultPack (settled node para answer) = some frame ∧
      accessAuthResultPack (settled node' para answer) = some frame ∧
      attached frame = redirectInfo para answer := by
  by_cases hmcc : redirected (requestMCC para) = true
  · refine ⟨_, pack_redirected ht hmcc answer hl, pack_redirected ht' hmcc answer hl', ?_⟩
    rw [redirectInfo, if_pos hmcc]
    rfl
  · rw [redirectInfo, if_neg hmcc]
    cases answer with
    | refused code =>
      have hcode : code ≠ .sockErr := by
        obtain ⟨cnt, -, -, -, rfl⟩ := hr
        unfold refusal
        split_ifs <;> decide
      exact ⟨_, pack_refused hcode hmcc hl, pack_refused hcode hmcc hl', rfl⟩
    | granted deal =>
      have htexts := Deal.texts_of_reply hr
      have hf : deal.Fits := hr.choose_spec.2.2
      by_cases hred : deal.redirectInfo = []
      · rw [NoLeftover, if_neg hmcc] at hl hl'
        obtain ⟨bytes, h, h'⟩ := pack_deal ht ht' htexts hf hmcc hred hl hl'
        exact ⟨_, h, h', hred.symm⟩
      · exact ⟨_, pack_redirect ht htexts hf hmcc hred, pack_redirect ht' htexts hf hmcc hred, rfl⟩

/-- The strings of the node after a login are those of the deal that was granted in it. -/
def RenewedBy (node : DataSpm) (para : NodeData) : Answer → Prop
  | .refused _ => True
  | .granted deal => redirected (requestMCC para) = false →
    node.mem.cstrAt Member.ip = some deal.ip ∧
    node.mem.cstrAt Member.apn = some deal.apnText ∧
    node.mem.cstrAt Member.selnet = some deal.selnetText ∧
    node.mem.cstrAt Member.vusimActiveNum = some deal.vusimText

theorem renewedBy_settled {node : DataSpm} {para : NodeData} {x : Exchange} {answer : Answer}
    (ht : Tidy node) (hr : Reply x answer) (hl : NoLeftover node para answer) :
    RenewedBy ((settled node para answer).setNat Member.type 1) para answer := by
  cases answer with
  | refused code => exact trivial
  | granted deal =>
    intro hmcc
    have hmcc' : ¬ redirected (requestMCC para) = true := by simp [hmcc]
    rw [NoLeftover, if_neg hmcc'] at hl
    have hrenewed : Renewed (settled node para (.granted deal)) deal := by
      have hdeal : Renewed ((preset node para).stores deal.stores) deal :=
        renewed_deal ht (Deal.texts_of_reply hr) hl
      by_cases hred : deal.redirectInfo = []
      · rw [settled_deal hmcc' hred]
        exact hdeal
      · rw [settled_redirect hmcc' hred]
        exact hdeal.setNat _ (by decide)
    have hlast := hrenewed.setNat (f := Member.type) 1 (by decide)
    exact ⟨hlast.ip.cstrAt, hlast.apn.cstrAt, hlast.selnet.cstrAt, hlast.vusim.cstrAt⟩

/-- Take any two nodes of one device, each after a run of logins that leave nothing over.
One more such login, with the same request and the same well-formed reply, ends with the
same answer frame in both; afterwards the strings of both nodes are those of the deal it
was granted, and the server of a redirect is attached if and only if it is redirected. -/
theorem login_history_independent {sn : SnArg} {node₁ node₂ : DataSpm}
    (h₁ : (logins sn).Reachable node₁) (h₂ : (logins sn).Reachable node₂)
    {para : NodeData} {x : Exchange} {answer : Answer} (hr : Reply x answer)
    (hl₁ : NoLeftover node₁ para answer) (hl₂ : NoLeftover node₂ para answer) :
    ∃ node₁' node₂' frame, login node₁ para x = some (node₁', frame) ∧
      login node₂ para x = some (node₂', frame) ∧
      RenewedBy node₁' para answer ∧ RenewedBy node₂' para answer ∧
      attached frame = redirectInfo para answer := by
  have ht₁ := tidy_of_reachable h₁
  have ht₂ := tidy_of_reachable h₂
  obtain ⟨frame, hp₁, hp₂, hattached⟩ := pack_agrees ht₁ ht₂ hr hl₁ hl₂
  refine ⟨_, _, frame, ?_, ?_, renewedBy_settled ht₁ hr hl₁, renewedBy_settled ht₂ hr hl₂,
    hattached⟩
  · rw [login_eq hr, hp₁]
    rfl
  · rw [login_eq hr, hp₂]
    rfl

/-! ## Two replies -/

/-- The text of a deal that grants a card at an address. -/
def cardText (ip : String) : List UInt8 :=
  text "\"minsRemaining\":\"60\",\"SIMIfActivated\":\"yes\",\"IPAndPort\":\"" ++ text ip ++
    text ":9001\",\"slotNumber\":\"1-2\",\"IMSI\":\"804600000000000012\"\x7d"

def cardAt (ip : String) : Deal where
  minsRemaining := 60
  lastStart := 0
  ifTest := 0
  orderType := 0
  ifRoam := 0
  speedType := 0
  fileUpdate := 0
  apn := none
  ifVPN := 0
  factoryFlag := 0
  serverInfo := none
  ip := text ip
  port := text "9001"
  bank := text "1"
  channel := text "2"
  speedStr := none
  activated := text "yes"
  vusimActiveNum := none
  imei := none
  imsi := text "804600000000000012"
  selnet := none

def nearReply : Exchange :=
  .reply (text "333,1001,12,0|[\x7b" ++ cardText "10.0.0.1" ++ text "]")
    (by decide +kernel) (by decide +kernel)

def farReply : Exchange :=
  .reply (text "333,1001,12,0|[\x7b" ++ cardText "192.168.100.200" ++ text "]")
    (by decide +kernel) (by decide +kernel)

theorem reply_near : Reply nearReply (.granted (cardAt "10.0.0.1")) :=
  ⟨cardText "10.0.0.1", by decide +kernel, by decide +kernel, by decide +kernel⟩

theorem reply_far : Reply farReply (.granted (cardAt "192.168.100.200")) :=
  ⟨cardText "192.168.100.200", by decide +kernel, by decide +kernel, by decide +kernel⟩

/-- A login from country 310. -/
def loginRequest : NodeData :=
  ⟨0, 5, 0, CArray.zero 16, CArray.zero 12,
    (CArray.zero 256).overlay [0x36, 1] NodeData.country_fits⟩

def someDevice : SnArg := ⟨text "172150210000937", fifteen_le_serial⟩

/-- The node of the device after the reply with the short address. -/
def afterNear : DataSpm :=
  ((login (initDataSpm.copySN someDevice) loginRequest nearReply).map Prod.fst).getD .zero

/-- The reply with the short address has been read above, what is left are the stores. -/
theorem login_near : ∃ frame, login (initDataSpm.copySN someDevice) loginRequest nearReply =
    some ((settled (initDataSpm.copySN someDevice) loginRequest
      (.granted (cardAt "10.0.0.1"))).setNat Member.type 1, frame) := by
  have hsome : (accessAuthResultPack (settled (initDataSpm.copySN someDevice) loginRequest
      (.granted (cardAt "10.0.0.1")))).isSome = true := by decide +kernel
  obtain ⟨frame, hframe⟩ := Option.isSome_iff_exists.mp hsome
  refine ⟨frame, ?_⟩
  rw [login_eq reply_near, hframe]
  rfl

theorem afterNear_eq : afterNear =
    (settled (initDataSpm.copySN someDevice) loginRequest
      (.granted (cardAt "10.0.0.1"))).setNat Member.type 1 := by
  obtain ⟨frame, h⟩ := login_near
  rw [afterNear, h]
  rfl

/-- The second login grants a longer address than the first. -/
theorem login_history_independent_longer : ∃ node₁ node₂ frame,
    login (initDataSpm.copySN someDevice) loginRequest farReply = some (node₁, frame) ∧
    login afterNear loginRequest farReply = some (node₂, frame) ∧
    node₂.mem.cstrAt Member.ip = some (text "192.168.100.200") := by
  have hstart : (logins someDevice).Reachable (initDataSpm.copySN someDevice) := .start rfl
  have hstep : (logins someDevice).step (initDataSpm.copySN someDevice)
      (loginRequest, nearReply, .granted (cardAt "10.0.0.1")) afterNear := by
    refine ⟨reply_near, by decide +kernel, ?_⟩
    rw [afterNear_eq]
    exact login_near
  have hleft : NoLeftover afterNear loginRequest (.granted (cardAt "192.168.100.200")) := by
    rw [afterNear_eq]
    decide +kernel
  obtain ⟨node₁, node₂, frame, h₁, h₂, -, hrenewed, -⟩ :=
    login_history_independent hstart (hstart.next hstep) reply_far
      (show NoLeftover _ loginRequest _ by decide +kernel) hleft
  exact ⟨node₁, node₂, frame, h₁, h₂, (hrenewed (by decide +kernel)).1⟩

/-- The other way round the end of the longer address stays in the node and gets into the
answer: the last number of the address is 76 and not 1. -/
theorem address_mixed_with_earlier_one :
    Reply farReply (.granted (cardAt "192.168.100.200")) ∧
    Reply nearReply (.granted (cardAt "10.0.0.1")) ∧
    ∃ node frame node₁ frame₁ node₂ frame₂,
      login (initDataSpm.copySN someDevice) loginRequest farReply = some (node, frame) ∧
      login (initDataSpm.copySN someDevice) loginRequest nearReply = some (node₁, frame₁) ∧
      login node loginRequest nearReply = some (node₂, frame₂) ∧
      frame₁[35]? = some 1 ∧ frame₂[35]? = some 76 ∧
      node₂.mem.cstrAt Member.ip = some (text "10.0.0.1100.200") := by
  let fresh := initDataSpm.copySN someDevice
  have hrun : ((login fresh loginRequest farReply).bind fun r =>
      (login fresh loginRequest nearReply).bind fun r₁ =>
        (login r.1 loginRequest nearReply).map fun r₂ =>
          (r₁.2[35]?, r₂.2[35]?, r₂.1.mem.cstrAt Member.ip)) =
      some (some 1, some 76, some (text "10.0.0.1100.200")) := by
    simp only [login_eq reply_far, login_eq reply_near]
    decide +kernel
  obtain ⟨⟨node, frame⟩, h, hrun⟩ := Option.bind_eq_some_iff.mp hrun
  obtain ⟨⟨node₁, frame₁⟩, h₁, hrun⟩ := Option.bind_eq_some_iff.mp hrun
  obtain ⟨⟨node₂, frame₂⟩, h₂, hrun⟩ := Option.map_eq_some_iff.mp hrun
  simp only [Prod.mk.injEq] at hrun
  exact ⟨reply_far, reply_near, node, frame, node₁, frame₁, node₂, frame₂, h, h₁, h₂, hrun⟩

end Tdm.Device
