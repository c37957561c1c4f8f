import Tdm.Common.DealStores
import Mathlib.Data.List.Pairwise

/-!
# What a deal leaves in the node

Read off the list of stores of a deal: the numbers are the same whatever the node held
before (`read_settled_congr`), a text is the granted one with the end of an earlier, longer
one behind it (`read_text_stored`), and the flag and the text of a redirect are those of
the deal (`factoryFlag_stored`, `holds_serverInfo_stored`).
-/

namespace Tdm.Common.Deal

open Tdm.Lib

variable {deal : Deal} {src : List UInt8}

/-! ## Texts -/

/-- Two stores of texts are the same store or are for different members. -/
theorem eq_or_disjoint_of_mem_textStoreList {v w : Store dataSpmSize}
    (hv : v ∈ deal.textStoreList) (hw : w ∈ deal.textStoreList) :
    v = w ∨ v.field.Disjoint w.field := by
  have hpair : (deal.textStoreList.map Store.field).Pairwise Field.Disjoint :=
    show List.Pairwise Field.Disjoint [Member.apn, Member.ip, Member.speedStr,
      Member.vusimActiveNum, Member.selnet] by decide
  have hsymm : Std.Symm fun v w : Store dataSpmSize => v = w ∨ v.field.Disjoint w.field :=
    ⟨fun v w h => h.imp Eq.symm Or.symm⟩
  have hpair' : deal.textStoreList.Pairwise fun v w => v = w ∨ v.field.Disjoint w.field :=
    (List.pairwise_map.mp hpair).imp Or.inr
  have hrefl : ∀ w ∈ deal.textStoreList, w = w ∨ w.field.Disjoint w.field :=
    fun w _ => .inl rfl
  exact List.Pairwise.forall_of_forall hrefl hpair' hv hw

theorem mem_finalStores {w : Store dataSpmSize} (hw : w ∈ deal.finalStores) :
    w.field = Member.speedType ∨ w.field = Member.result := by
  rcases List.mem_append.mp hw with hw | hw
  · split at hw
    · rw [List.mem_singleton.mp hw]
      exact .inl rfl
    · cases hw
  · rw [List.mem_singleton.mp hw]
    exact .inr rfl

/-- The members of all stores that are not texts. -/
def plainFields : List Member :=
  earlierFields ++ [Member.factoryFlag, Member.serverInfo] ++ laterFields ++
    [Member.speedType, Member.result]

theorem mem_stores {w : Store dataSpmSize} (hw : w ∈ deal.stores) :
    w ∈ deal.textStoreList ∨ w.field ∈ plainFields := by
  simp only [stores, List.mem_append] at hw
  rcases hw with ((hw | hw) | hw) | hw
  · rcases mem_earlierStores hw with h | h
    · exact .inl h
    · exact .inr (by simp [plainFields, h])
  · rcases field_of_mem_factoryStores hw with h | h <;> simp [plainFields, h]
  · rcases mem_laterStores hw with h | h
    · exact .inl h
    · exact .inr (by simp [plainFields, h])
  · rcases mem_finalStores hw with h | h <;> simp [plainFields, h]

theorem textStores_cases (f : Member) (t : List UInt8) :
    Store.of f t ∈ textStores f t ∨ (Store.of f t).src = [] := by
  by_cases ht : t = []
  · exact .inr (by simp [ht, Store.of])
  · exact .inl (by simp [textStores, ht])

theorem vusimStores_cases (deal : Deal) :
    Store.of Member.vusimActiveNum deal.vusimText ∈ deal.vusimStores ∨
      (Store.of Member.vusimActiveNum deal.vusimText).src = [] := by
  by_cases ht : deal.vusimText = []
  · exact .inr (by simp [ht, Store.of])
  · left
    have hin : deal.inactive = true := by
      by_contra hin
      exact ht (if_neg hin)
    cases hnum : deal.vusimActiveNum with
    | none => simp [vusimText, hin, hnum, longer] at ht
    | some value => simp [vusimStores, hin, hnum, ht]

/-- A store of a text is made, unless the text is empty. -/
theorem stored_of_mem_textStoreList {w : Store dataSpmSize} (hw : w ∈ deal.textStoreList) :
    w ∈ deal.stores ∨ w.src = [] := by
  simp only [textStoreList, List.mem_cons, List.not_mem_nil, or_false] at hw
  rcases hw with rfl | rfl | rfl | rfl | rfl
  · rcases textStores_cases Member.apn deal.apnText with h | h
    · exact .inl (by simp [stores, earlierStores, h])
    · exact .inr h
  · exact .inl (by simp [stores, laterStores, cardStores, addressStores])
  · rcases textStores_cases Member.speedStr deal.speedText with h | h
    · exact .inl (by simp [stores, laterStores, cardStores, h])
    · exact .inr h
  · rcases vusimStores_cases deal with h | h
    · exact .inl (by simp [stores, laterStores, cardStores, h])
    · exact .inr h
  · rcases textStores_cases Member.selnet deal.selnetText with h | h
    · exact .inl (by simp [stores, laterStores, cardStores, h])
    · exact .inr h

/-- A text member holds the granted text and then what was there before. -/
theorem read_text_stored {f : Member} {t : List UInt8} (hw : .of f t ∈ deal.textStoreList)
    (hlen : t.length ≤ f.size) (hplain : ∀ g ∈ plainFields, g.Disjoint f) (node : DataSpm) :
    (node.stores deal.stores).mem.read f = t ++ (node.mem.read f).drop t.length := by
  have hother : ∀ v ∈ deal.stores, v = .of f t ∨ v.field.Disjoint f := by
    intro v hv
    rcases mem_stores hv with h | h
    · exact eq_or_disjoint_of_mem_textStoreList h hw
    · exact .inr (hplain _ h)
  have hread := CArray.read_stores_of_only (a := node.mem) (stored_of_mem_textStoreList hw) hother
  rw [Store.src_of hlen] at hread
  rw [DataSpm.mem_stores]
  exact hread

/-- What no store is for stays as it is. -/
theorem read_stores_of_unused {f : Member} (hplain : ∀ g ∈ plainFields, g.Disjoint f)
    (htext : ∀ g ∈ [Member.apn, Member.ip, Member.speedStr, Member.vusimActiveNum,
      Member.selnet], g.Disjoint f) (node : DataSpm) :
    (node.stores deal.stores).mem.read f = node.mem.read f := by
  rw [DataSpm.mem_stores]
  apply CArray.read_stores_of_disjoint
  intro w hw
  rcases mem_stores hw with h | h
  · exact htext _ (field_of_mem_textStoreList h)
  · exact hplain _ h

/-! ## Numbers -/

/-- The members of which a deal leaves nothing as it was. -/
def settledFields : List Member :=
  [Member.imsi, Member.miniteRemain, Member.needFile, Member.orderType, Member.lastStart,
   Member.isApn, Member.speedType, Member.ifVPN, Member.ifRoam, Member.vusimActiveFlag,
   Member.simBankID, Member.channelID, Member.port, Member.result]

/-- One of the stores fills a range of bytes that `f` is in. -/
def Fills (deal : Deal) (f : Member) : Prop :=
  ∃ w ∈ deal.stores, w.src.length = w.field.size ∧
    w.field.off ≤ f.off ∧ f.off + f.size ≤ w.field.off + w.field.size

theorem fills_of_assign {f : Member} (g : Member) (v : ℕ) (hw : .assign g v ∈ deal.stores)
    (hin : g.off ≤ f.off ∧ f.off + f.size ≤ g.off + g.size) : deal.Fills f :=
  ⟨_, hw, length_leBytes .., hin⟩

theorem fills_number {f : Member} (v : ℤ) (hw : .assignInt f v ∈ deal.numberStores) :
    deal.Fills f :=
  fills_of_assign f _ (show .assignInt f v ∈ deal.stores by simp [stores, earlierStores, hw])
    ⟨Nat.le_refl _, Nat.le_refl _⟩

theorem fills_slot {f : Member} (v : ℤ) (hw : .assignInt f v ∈ deal.slotStores) :
    deal.Fills f :=
  fills_of_assign f _ (show .assignInt f v ∈ deal.stores by simp [stores, laterStores, cardStores, hw])
    ⟨Nat.le_refl _, Nat.le_refl _⟩

theorem fills_vusimActiveFlag (deal : Deal) : deal.Fills Member.vusimActiveFlag := by
  by_cases hin : deal.inactive = true
  · apply fills_of_assign Member.vusimActiveFlag 1
    · simp [stores, laterStores, cardStores, vusimStores, hin]
    · exact ⟨Nat.le_refl _, Nat.le_refl _⟩
  · apply fills_of_assign Member.vusimActiveFlag 0
    · simp [stores, laterStores, cardStores, vusimStores, hin]
    · exact ⟨Nat.le_refl _, Nat.le_refl _⟩

theorem fills_imsi (hf : deal.Fits) : deal.Fills Member.imsi := by
  refine ⟨.of Member.imsi (str2Hex deal.imsi).2, ?_, ?_, Nat.le_refl _, Nat.le_refl _⟩
  · simp [stores, laterStores, cardStores, imsiStores]
  · rw [Store.src_of (Nat.le_of_eq hf.hex)]
    exact hf.hex

theorem fills_of_mem_settledFields (hf : deal.Fits) {f : Member} (h : f ∈ settledFields) :
    deal.Fills f := by
  simp only [settledFields, List.mem_cons, List.not_mem_nil, or_false] at h
  rcases h with rfl | rfl | rfl | rfl | rfl | rfl | rfl | rfl | rfl | rfl | rfl | rfl | rfl | rfl
  · exact fills_imsi hf
  · exact fills_number deal.minsRemaining (by simp [numberStores])
  · exact fills_number deal.fileUpdate (by simp [numberStores])
  · exact fills_number deal.orderType (by simp [numberStores])
  · exact fills_number deal.lastStart (by simp [numberStores])
  · exact fills_of_assign Member.isApn (if deal.apnText = [] then 0 else 1)
      (by simp [stores, earlierStores]) (by decide)
  · exact fills_number deal.speedType (by simp [numberStores])
  · exact fills_of_assign Member.ifVPN _
      (show .assignInt Member.ifVPN (8 * deal.ifVPN) ∈ deal.stores by
        simp [stores, earlierStores, vpnStores]) (by decide)
  · exact fills_number deal.ifRoam (by simp [numberStores])
  · exact fills_vusimActiveFlag deal
  · exact fills_slot (atoi deal.bank) (by simp [slotStores])
  · exact fills_slot (atoi deal.channel) (by simp [slotStores])
  · -- the port is stored as an `int`
    exact fills_of_assign Member.portInt _
      (show .assignInt Member.portInt (atoi deal.port) ∈ deal.stores by
        simp [stores, laterStores, cardStores, addressStores]) (by decide)
  · exact fills_of_assign Member.result 0
      (show .assignInt Member.result 0 ∈ deal.stores by simp [stores, finalStores]) (by decide)

theorem read_settled_congr (hf : deal.Fits) (a b : DataSpm) {f : Member}
    (h : f ∈ settledFields) :
    (a.stores deal.stores).mem.read f = (b.stores deal.stores).mem.read f := by
  obtain ⟨w, hw, hfill, hin⟩ := fills_of_mem_settledFields hf h
  rw [DataSpm.mem_stores, DataSpm.mem_stores]
  exact CArray.read_stores_congr_of_filled hw hfill hin

/-- `Get_Data_From_Deal` ends with `Result = 0`. -/
theorem result_stored (deal : Deal) (node : DataSpm) :
    (node.stores deal.stores).mem.getInt Member.result = 0 := by
  have hlast : (node.stores deal.stores).mem.read Member.result = leBytes 1 0 := by
    rw [stores, finalStores, ← List.append_assoc, DataSpm.stores_append]
    exact CArray.read_setNat_self _ Member.result 0
  rw [CArray.getInt, CArray.getNat, hlast]
  decide

theorem isNet_only {w : Store dataSpmSize} (hw : w ∈ deal.stores) :
    w ∈ deal.netStores ∨ w.field.Disjoint Member.isNet := by
  have htext : ∀ g ∈ [Member.apn, Member.ip, Member.speedStr, Member.vusimActiveNum,
      Member.selnet], g.Disjoint Member.isNet := by decide
  have hfields : ∀ g ∈ earlierFields ++ cardFields, g.Disjoint Member.isNet := by decide
  simp only [stores, laterStores, List.mem_append] at hw
  rcases hw with ((hw | hw) | hw | hw) | hw
  · rcases mem_earlierStores hw with h | h
    · exact .inr (htext _ (field_of_mem_textStoreList h))
    · exact .inr (hfields _ (List.mem_append_left _ h))
  · exact .inr (disjoint_of_mem_factoryStores (by decide) hw)
  · rcases mem_cardStores hw with h | h
    · exact .inr (htext _ (field_of_mem_textStoreList h))
    · exact .inr (hfields _ (List.mem_append_right _ h))
  · exact .inl hw
  · right
    rcases mem_finalStores hw with h | h
    · rw [h]
      decide
    · rw [h]
      decide

/-- Network selection is what it was, unless `Selnet` is granted. -/
theorem isNet_stored (deal : Deal) (node : DataSpm) :
    (node.stores deal.stores).mem.getNat Member.isNet =
      if deal.selnetText = [] then node.mem.getNat Member.isNet else 2 := by
  rw [CArray.getNat, DataSpm.mem_stores]
  split
  · rename_i hnil
    rw [CArray.read_stores_of_disjoint]
    · rfl
    · intro w hw
      rcases isNet_only hw with h | h
      · rw [netStores, if_pos hnil] at h
        cases h
      · exact h
  · rename_i hne
    rw [CArray.read_stores_assign (v := 2)]
    · decide
    · simp [stores, laterStores, netStores, hne]
    · intro w hw
      rcases isNet_only hw with h | h
      · exact .inl (eq_of_mem_netStores h)
      · exact .inr h

/-! ## Redirects -/

/-- The stores behind those for a redirect do not touch its members. -/
theorem read_stores_factory {f : Member} (hf : f = Member.factoryFlag ∨ f = Member.serverInfo)
    (node : DataSpm) : (node.stores deal.stores).mem.read f =
      ((node.stores deal.earlierStores).stores deal.factoryStores).mem.read f := by
  have hsplit : deal.stores =
      deal.earlierStores ++ deal.factoryStores ++ (deal.laterStores ++ deal.finalStores) :=
    List.append_assoc ..
  rw [hsplit, node.stores_append (deal.earlierStores ++ deal.factoryStores),
    ← node.stores_append deal.earlierStores, DataSpm.mem_stores _ (deal.laterStores ++ _)]
  apply CArray.read_stores_of_disjoint
  intro w hw
  rcases List.mem_append.mp hw with hw | hw
  · rcases hf with rfl | rfl
    · exact disjoint_of_mem_laterStores (by decide) (by decide) hw
    · exact disjoint_of_mem_laterStores (by decide) (by decide) hw
  · rcases mem_finalStores hw with h | h
    · rw [h]
      rcases hf with rfl | rfl <;> decide
    · rw [h]
      rcases hf with rfl | rfl <;> decide

theorem factoryFlag_stored (deal : Deal) (node : DataSpm) :
    (node.stores deal.stores).mem.getNat Member.factoryFlag =
      if deal.redirectInfo = [] then 0 else 1 := by
  have hassign : ∀ (node : DataSpm) (v : ℕ),
      (node.setNat Member.factoryFlag v).mem.getNat Member.factoryFlag = v % 256 ^ 1 :=
    fun node v => node.getNat_setNat Member.factoryFlag v
  rw [CArray.getNat, read_stores_factory (.inl rfl), ← CArray.getNat]
  generalize node.stores deal.earlierStores = node
  unfold factoryStores
  split
  · by_cases hnone : deal.redirectInfo = []
    · rw [if_pos hnone, if_pos hnone, DataSpm.stores_append]
      exact hassign _ 0
    · -- the flag is stored first, then the text
      rw [if_neg hnone, if_neg hnone, List.append_nil]
      have hread : ((node.setNat Member.factoryFlag 1).stores [.assign Member.serverInfo 0,
          .of Member.serverInfo (deal.serverInfo.getD [])]).mem.read Member.factoryFlag =
          (node.setNat Member.factoryFlag 1).mem.read Member.factoryFlag := by
        rw [DataSpm.mem_stores]
        apply CArray.read_stores_of_disjoint
        intro w hw
        simp only [List.mem_cons, List.not_mem_nil, or_false] at hw
        rcases hw with rfl | rfl
        · exact show Member.serverInfo.Disjoint Member.factoryFlag by decide
        · exact show Member.serverInfo.Disjoint Member.factoryFlag by decide
      exact (congrArg leNat hread).trans (hassign node 1)
  · rename_i hflag
    have hnone : deal.redirectInfo = [] := if_neg hflag
    rw [if_pos hnone]
    exact hassign node 0

theorem earlierStores_disjoint_serverInfo {w : Store dataSpmSize} (hw : w ∈ deal.earlierStores) :
    w.field.Disjoint Member.serverInfo := by
  have htext : ∀ g ∈ [Member.apn, Member.ip, Member.speedStr, Member.vusimActiveNum,
      Member.selnet], g.Disjoint Member.serverInfo := by decide
  have hearlier : ∀ g ∈ earlierFields, g.Disjoint Member.serverInfo := by decide
  rcases mem_earlierStores hw with h | h
  · exact htext _ (field_of_mem_textStoreList h)
  · exact hearlier _ h

/-- `ServerInfo` still holds a text, and if the deal is a redirect it is that of the deal. -/
theorem holds_serverInfo_stored (hzero : 0 ∉ deal.serverInfo.getD []) (hf : deal.Fits)
    {node : DataSpm} {s : List UInt8} (hs : node.mem.Holds Member.serverInfo s) :
    ∃ s', (node.stores deal.stores).mem.Holds Member.serverInfo s' ∧
      (deal.redirectInfo ≠ [] → s' = deal.redirectInfo) := by
  have hread : (node.stores deal.stores).mem.read Member.serverInfo = _ :=
    read_stores_factory (.inr rfl) node
  have hearlier : (node.stores deal.earlierStores).mem.read Member.serverInfo =
      node.mem.read Member.serverInfo := by
    rw [DataSpm.mem_stores]
    exact CArray.read_stores_of_disjoint fun w hw => earlierStores_disjoint_serverInfo hw
  have hs' := hs.congr hearlier
  generalize node.stores deal.earlierStores = node' at hread hs'
  -- an assignment to the flag does not touch the text
  have hflag : ∀ (node : DataSpm) (v : ℕ), (node.setNat Member.factoryFlag v).mem.read
      Member.serverInfo = node.mem.read Member.serverInfo :=
    fun node v => CArray.read_setNat_of_disjoint node.mem v (by decide)
  by_cases h : deal.factoryFlag = 1
  · have hlen : (deal.serverInfo.getD []).length < 128 := by
      cases hinfo : deal.serverInfo with
      | none => exact (by decide : 0 < 128)
      | some value => exact hf.serverInfo value hinfo
    have hcleared := holds_cleared_serverInfo (node'.setNat Member.factoryFlag 1) hzero hlen
    refine ⟨deal.serverInfo.getD [], ?_, ?_⟩
    · apply hcleared.congr
      rw [hread, factoryStores, if_pos h, DataSpm.stores_append]
      split
      · exact hflag _ 0
      · rfl
    · intro hne
      have hlonger : deal.redirectInfo = longer 9 deal.serverInfo := if_pos h
      rw [hlonger] at hne ⊢
      exact congrArg (Option.getD · []) (eq_some_of_longer hne)
  · refine ⟨s, ?_, ?_⟩
    · apply hs'.congr
      rw [hread, factoryStores, if_neg h]
      exact hflag node' 0
    · intro hne
      exact absurd (if_neg h) hne

/-! ## Strings -/

theorem zero_notMem_of_getKey {key value : List UInt8} (hsrc : 0 ∉ src)
    (h : getKey src key = some (some value)) : 0 ∉ value :=
  zero_notMem_of_getKeyValue hsrc (getKeyValue_of_getKey h).1

theorem zero_notMem_longer {key : List UInt8} {len : ℕ} {t : Option (List UInt8)} (hsrc : 0 ∉ src)
    (h : getKey src key = some t) : 0 ∉ longer len t := by
  by_cases hnil : longer len t = []
  · rw [hnil]
    exact List.not_mem_nil
  · rw [eq_some_of_longer hnil] at h
    exact zero_notMem_of_getKey hsrc h

/-- The texts of a deal are strings that fit their members. -/
structure Texts (deal : Deal) : Prop where
  ip : 0 ∉ deal.ip ∧ deal.ip.length < Member.ip.size
  apn : 0 ∉ deal.apnText ∧ deal.apnText.length < Member.apn.size
  selnet : 0 ∉ deal.selnetText ∧ deal.selnetText.length < Member.selnet.size
  vusim : 0 ∉ deal.vusimText ∧ deal.vusimText.length < Member.vusimActiveNum.size
  serverInfo : 0 ∉ deal.serverInfo.getD []

theorem texts (hc : deal.CarriedBy src) (hf : deal.Fits) (hsrc : 0 ∉ src) : deal.Texts where
  ip := by
    obtain ⟨value, rest, rest', hkey, hip, -⟩ := exists_of_parts hc.address
    refine ⟨fun hzero => ?_, hf.ip⟩
    exact zero_notMem_of_getKey hsrc hkey (mem_of_mem_strtok hip hzero)
  apn := ⟨zero_notMem_longer hsrc hc.apn, Nat.lt_succ_of_le (length_longer_le_of_getKey hc.apn)⟩
  selnet := by
    refine ⟨zero_notMem_longer hsrc hc.selnet, Nat.lt_succ_of_le (length_longer_le ?_)⟩
    exact fun value h => Nat.le_of_lt_succ (hf.selnet value h)
  vusim := by
    unfold vusimText
    split
    · refine ⟨zero_notMem_longer hsrc hc.vusimActiveNum, ?_⟩
      have hle : (longer 9 deal.vusimActiveNum).length ≤ 63 :=
        length_longer_le_of_getKey hc.vusimActiveNum
      show _ < 126
      omega
    · exact ⟨List.not_mem_nil, by decide⟩
  serverInfo := by
    obtain ⟨res, hres, hval⟩ := Option.map_eq_some_iff.mp hc.serverInfo
    rw [← hval]
    cases res with
    | error code => exact List.not_mem_nil
    | ok value => exact zero_notMem_of_getKeyValue hsrc hres

namespace Texts

variable {node : DataSpm} {s : List UInt8}

theorem holds_ip (h : deal.Texts) (hs : node.mem.Holds Member.ip s) :
    (node.stores deal.stores).mem.Holds Member.ip (deal.ip ++ s.drop deal.ip.length) :=
  hs.overlay h.ip.1 h.ip.2
    (read_text_stored (by simp [textStoreList]) (Nat.le_of_lt h.ip.2) (by decide) node)

theorem holds_apn (h : deal.Texts) (hs : node.mem.Holds Member.apn s) :
    (node.stores deal.stores).mem.Holds Member.apn
      (deal.apnText ++ s.drop deal.apnText.length) :=
  hs.overlay h.apn.1 h.apn.2
    (read_text_stored (by simp [textStoreList]) (Nat.le_of_lt h.apn.2) (by decide) node)

theorem holds_selnet (h : deal.Texts) (hs : node.mem.Holds Member.selnet s) :
    (node.stores deal.stores).mem.Holds Member.selnet
      (deal.selnetText ++ s.drop deal.selnetText.length) :=
  hs.overlay h.selnet.1 h.selnet.2
    (read_text_stored (by simp [textStoreList]) (Nat.le_of_lt h.selnet.2) (by decide) node)

theorem holds_vusim (h : deal.Texts) (hs : node.mem.Holds Member.vusimActiveNum s) :
    (node.stores deal.stores).mem.Holds Member.vusimActiveNum
      (deal.vusimText ++ s.drop deal.vusimText.length) :=
  hs.overlay h.vusim.1 h.vusim.2
    (read_text_stored (by simp [textStoreList]) (Nat.le_of_lt h.vusim.2) (by decide) node)

end Texts

end Tdm.Common.Deal
