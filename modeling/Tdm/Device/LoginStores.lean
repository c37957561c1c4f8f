import Tdm.Common.DealEffect
import Tdm.Device.AccessAuth

/-!
# What a login stores in the node

The request changes the members it is stored in and nothing else (`read_prepare`), and the
country it comes from does not depend on the node (`mcc_prepare`). Behind the request a
login with a well-formed reply is a list of stores that does not depend on the node either
(`simAllocateProc_eq`).
-/

namespace Tdm.Device

open Tdm.Lib Tdm.Common

/-! ## The request -/

/-- The node with the request in it, before the country is looked at. -/
def prepare (node : DataSpm) (para : NodeData) : DataSpm :=
  let node := receive node para
  let node := node.copyField Member.takeTime node.mem Member.authTakeTime Member.size_authTakeTime
  let node := node.copyField Member.versionAPK node.mem Member.authVersionAPK Member.size_authVersionAPK
  noteMCC node

/-- `MCC` of the `AccessAuth_Def` in the message. -/
def NodeData.mcc : Field 256 := ⟨0, 4, by decide⟩

/-- The country of a request, 460 when there is none. -/
def requestMCC (para : NodeData) : ℕ :=
  if para.buff.getInt NodeData.mcc = 0 then 460
  else (para.buff.getInt NodeData.mcc % 2 ^ 16).toNat

/-- The members a request is stored in. -/
def requestFields : List Member :=
  [Member.cmdTag, Member.fd1, Member.len, Member.buff, Member.imsi, Member.takeTime,
   Member.versionAPK, Member.socketSpm, Member.mcc]

theorem read_receive (node : DataSpm) (para : NodeData) {f : Member}
    (h : ∀ g ∈ [Member.cmdTag, Member.fd1, Member.len, Member.buff, Member.imsi],
      g.Disjoint f) : (receive node para).mem.read f = node.mem.read f := by
  have hstored : (((node.setInt Member.cmdTag para.cmdTag).setInt Member.fd1 para.fd).setInt
      Member.len para.len).mem.read f = node.mem.read f := by
    rw [DataSpm.read_setInt _ _ (h _ (by simp)), DataSpm.read_setInt _ _ (h _ (by simp)),
      DataSpm.read_setInt _ _ (h _ (by simp))]
  simp only [receive]
  split
  · rw [DataSpm.read_copyField _ _ _ _ (h _ (by simp)),
      DataSpm.read_copyField _ _ _ _ (h _ (by simp)), hstored]
  · rw [DataSpm.read_copyField _ _ _ _ (h _ (by simp)), hstored]

theorem read_noteMCC (node : DataSpm) {f : Member}
    (h : ∀ g ∈ [Member.socketSpm, Member.authMCC, Member.mcc], g.Disjoint f) :
    (noteMCC node).mem.read f = node.mem.read f := by
  have hclose : (closeSocketFd node Member.socketSpm).mem.read f = node.mem.read f :=
    read_closeSocketFd node (h _ (by simp))
  simp only [noteMCC]
  split_ifs
  · rw [DataSpm.read_setInt _ _ (h _ (by simp)), DataSpm.read_setInt _ _ (h _ (by simp)),
      hclose]
  · rw [DataSpm.read_setInt _ _ (h _ (by simp)), hclose]
  · rw [DataSpm.read_setInt _ _ (h _ (by simp)), hclose]
  · exact hclose

/-- A request changes nothing but the members it is stored in. -/
theorem read_prepare (node : DataSpm) (para : NodeData) {f : Member}
    (h : ∀ g ∈ requestFields, g.Disjoint f) : (prepare node para).mem.read f = node.mem.read f := by
  have hmcc : Member.authMCC.Disjoint f := by
    have hbuff := h Member.buff (by simp [requestFields])
    unfold Field.Disjoint at hbuff ⊢
    simp only [Member.buff, Member.authMCC] at hbuff ⊢
    omega
  simp only [prepare]
  rw [read_noteMCC, DataSpm.read_copyField, DataSpm.read_copyField, read_receive]
  · intro g hg
    apply h
    simp only [requestFields, List.mem_cons] at hg ⊢
    tauto
  · exact h _ (by simp [requestFields])
  · exact h _ (by simp [requestFields])
  · intro g hg
    simp only [List.mem_cons, List.not_mem_nil, or_false] at hg
    rcases hg with rfl | rfl | rfl
    · exact h _ (by simp [requestFields])
    · exact hmcc
    · exact h _ (by simp [requestFields])

/-- The country of the node after `noteMCC`, whatever it was before. -/
theorem mcc_noteMCC (node : DataSpm) : (noteMCC node).mem.getNat Member.mcc =
    if node.mem.getInt Member.authMCC = 0 then 460
    else (node.mem.getInt Member.authMCC % 2 ^ 16).toNat := by
  have hclose : (closeSocketFd node Member.socketSpm).mem.getInt Member.authMCC =
      node.mem.getInt Member.authMCC :=
    congrArg (fun bs => toSigned 32 (leNat bs)) (read_closeSocketFd node (by decide))
  have hset : ∀ node : DataSpm, (node.setInt Member.authMCC 460).mem.getInt Member.authMCC = 460 :=
    fun node => congrArg (toSigned 32) (node.getNat_setInt Member.authMCC 460)
  have hmcc : ∀ (node : DataSpm) (v : ℤ), (node.setInt Member.mcc v).mem.getNat Member.mcc =
      (v % 2 ^ 16).toNat := fun node v => node.getNat_setInt Member.mcc v
  -- a country that is not stored is the one the node has already
  have hsame : ∀ (node : DataSpm) {v : ℤ}, ¬ v ≠ node.mem.getNat Member.mcc →
      node.mem.getNat Member.mcc = (v % 2 ^ 16).toNat := by
    intro node v h
    have hlt : node.mem.getNat Member.mcc < 2 ^ 16 := node.mem.getNat_lt Member.mcc
    have hv := not_not.mp h
    omega
  simp only [noteMCC, hclose]
  split
  · rw [hset]
    split
    · exact hmcc _ 460
    · rename_i h
      exact hsame _ h
  · rw [hclose]
    split
    · exact hmcc _ _
    · rename_i h
      exact hsame _ h

theorem mcc_prepare (node : DataSpm) (para : NodeData) :
    (prepare node para).mem.getNat Member.mcc = requestMCC para := by
  have hbuff : ∀ node : DataSpm, (node.copyField Member.buff para.buff NodeData.wholeBuff
      (by decide)).mem.read Member.authMCC = para.buff.read NodeData.mcc := by
    intro node
    have hlen : (para.buff.read NodeData.wholeBuff).length = 256 := CArray.length_read ..
    have hfits : 72 + (para.buff.read NodeData.wholeBuff).length ≤ dataSpmSize := by
      rw [hlen]
      decide
    have hread := CArray.read_put_of_covers node.mem Member.authMCC hfits (by decide)
      (show 72 + 4 ≤ 72 + (para.buff.read NodeData.wholeBuff).length by omega)
    refine hread.trans ?_
    simp [CArray.read, NodeData.wholeBuff, NodeData.mcc, Member.authMCC, List.take_take]
  have hread : (receive node para).mem.read Member.authMCC = para.buff.read NodeData.mcc := by
    simp only [receive]
    split
    · rw [DataSpm.read_copyField _ _ _ _ (by decide), hbuff]
    · exact hbuff _
  have hint : ∀ node : DataSpm, node.mem.read Member.authMCC = para.buff.read NodeData.mcc →
      node.mem.getInt Member.authMCC = para.buff.getInt NodeData.mcc :=
    fun node h => congrArg (fun bs => toSigned 32 (leNat bs)) h
  simp only [prepare]
  rw [mcc_noteMCC, hint]
  · rfl
  · rw [DataSpm.read_copyField _ _ _ _ (by decide), DataSpm.read_copyField _ _ _ _ (by decide),
      hread]

/-! ## The answer of the backend -/

inductive Answer
  | refused (code : SimAllocErrCode)
  | granted (deal : Deal)

/-- The error `Get_Deal_From_SimPool` makes of a result other than 0. -/
def refusal (cnt : ℤ) : SimAllocErrCode :=
  if cnt = 1 then .lowPower else if cnt = 2 then .outOfService else .noSimUsable

/-- The exchange ends with a well-formed reply. -/
def Reply (x : Exchange) : Answer → Prop
  | .refused code => ∃ cnt dst, getDealFromSimPoolSocket x = some (cnt, dst) ∧ cnt ≠ 0 ∧
      code = refusal cnt
  | .granted deal => ∃ src, getDealFromSimPoolSocket x = some (0, src) ∧ deal.CarriedBy src ∧
      deal.Fits

/-- The stores an answer of the backend leads to. -/
def Answer.stores : Answer → List (Store dataSpmSize)
  | .refused code => [.assignInt Member.result code.value]
  | .granted deal => deal.stores ++
      (if deal.redirectInfo = [] then []
        else [.assignInt Member.result SimAllocErrCode.ipChange.value])

/-- The stores of a login behind those of the request. -/
def loginStores (para : NodeData) (answer : Answer) : List (Store dataSpmSize) :=
  if redirected (requestMCC para) then
    [.assign Member.factoryFlag 1, .of Member.serverInfo testIP,
      .assignInt Member.result SimAllocErrCode.ipChange.value]
  else [.of Member.serverInfo masterIP] ++ answer.stores

theorem Deal.texts_of_reply {x : Exchange} {deal : Deal} (h : Reply x (.granted deal)) :
    deal.Texts := by
  obtain ⟨src, hsrc, hc, hf⟩ := h
  exact Deal.texts hc hf (zero_notMem_of_socket hsrc)

/-- `Get_Deal_From_SimPool` when the backend refuses. -/
theorem getDealFromSimPool_refused {x : Exchange} {cnt : ℤ} {dst : List UInt8}
    (h : getDealFromSimPoolSocket x = some (cnt, dst)) (hcnt : cnt ≠ 0) (node : DataSpm) :
    getDealFromSimPool node x = some ((refusal cnt).value,
      node.stores [.assignInt Member.result (refusal cnt).value], dst) := by
  simp only [getDealFromSimPool, h, Option.bind_eq_bind, Option.bind_some, refusal, if_pos hcnt]
  split_ifs <;> rfl

theorem refusal_value_ne_zero (cnt : ℤ) : (refusal cnt).value ≠ 0 := by
  unfold refusal
  split_ifs <;> decide

/-- What a login does, as a list of stores that depends on the request and the answer only. -/
theorem simAllocateProc_eq {x : Exchange} {answer : Answer} (h : Reply x answer)
    (node : DataSpm) (para : NodeData) :
    (simAllocateProc (receive node para) x).map Prod.snd =
      some ((prepare node para).stores (loginStores para answer)) := by
  have hfold : simAllocateProc (receive node para) x = (do
      let node := prepare node para
      if redirected (node.mem.getNat Member.mcc) then
        let node := node.setNat Member.factoryFlag 1
        let node ← node.copyTo Member.serverInfo testIP
        return simAllocateErr .ipChange node
      else
        let node ← node.copyTo Member.serverInfo masterIP
        let reply ← getDealFromSimPool node x
        if reply.1 ≠ 0 then return (reply.1, reply.2.1)
        else
          let node ← getDataFromDeal reply.2.2 reply.2.1
          if node.mem.getNat Member.factoryFlag ≠ 0 then return simAllocateErr .ipChange node
          else return (reply.1, node)) := rfl
  have htest : testIP.length ≤ Member.serverInfo.size := by decide
  have hmaster : masterIP.length ≤ Member.serverInfo.size := by decide
  rw [hfold]
  unfold loginStores
  simp only [mcc_prepare]
  generalize prepare node para = node
  split
  · rw [DataSpm.copyTo_of_le _ htest]
    rfl
  · rw [DataSpm.copyTo_of_le _ hmaster, DataSpm.stores_append]
    simp only [Option.bind_eq_bind, Option.bind_some]
    generalize node.stores [.of Member.serverInfo masterIP] = node
    cases answer with
    | refused code =>
      obtain ⟨cnt, dst, hx, hcnt, rfl⟩ := h
      rw [getDealFromSimPool_refused hx hcnt]
      simp only [Option.bind_some, refusal_value_ne_zero, ne_eq, not_false_eq_true, if_true]
      rfl
    | granted deal =>
      obtain ⟨src, hx, hc, hf⟩ := h
      have hpool : getDealFromSimPool node x = some (0, node, src) := by
        simp only [getDealFromSimPool, hx, Option.bind_eq_bind, Option.bind_some]
        rfl
      rw [hpool]
      simp only [Option.bind_some, ne_eq, not_true_eq_false, if_false,
        Deal.getDataFromDeal_eq hc hf (zero_notMem_of_socket hx), Deal.factoryFlag_stored]
      by_cases hred : deal.redirectInfo = []
      · simp only [hred, Answer.stores, if_true, not_true_eq_false, if_false, List.append_nil]
        rfl
      · simp only [hred, Answer.stores, if_false, one_ne_zero, not_false_eq_true, if_true]
        rw [DataSpm.stores_append]
        rfl

end Tdm.Device
