import Tdm.Common.Deal

/-!
# Which exchanges count as a granted deal

`Send_Sim_Data` reports every failure as -1 and a closed connection as 0. The caller takes
anything but 0 for a reply, and both `Data_Coing` on the empty text and a closed connection
leave the field `Result` at the 0 it was initialised with, which means that the deal is
granted. `verdict_iff` says for which exchanges the two users of the verdict are right.
-/

namespace Tdm.Common

open Tdm.Lib

/-! ## What the backend said -/

/-- The text received. -/
def Exchange.text (x : Exchange) : List UInt8 := x.bytes.takeWhile (· ≠ 0)

/-- The fields of the header of a reply. -/
def headerFields (src : List UInt8) : List (List UInt8) :=
  match strtok 124 src with
  | none => []
  | some (header, _) => tokens 44 header

/-- The fourth field of the header, when a reply was received and its header has one. -/
def Exchange.verdict (x : Exchange) : Option (List UInt8) := (headerFields x.text)[3]?

/-- The field is written as an integer and is 0. -/
def isZero (field : List UInt8) : Bool :=
  let s := field.dropWhile isSpace
  let digits := if s.head? = some 45 ∨ s.head? = some 43 then s.tail else s
  digits ≠ [] && digits.all (· == 48)

/-- A reply was received and its fourth header field is the integer 0. -/
def Exchange.Grants (x : Exchange) : Prop := ∃ field, x.verdict = some field ∧ isZero field = true

instance (x : Exchange) : Decidable x.Grants :=
  decidable_of_iff (x.verdict.any isZero = true) (by
    simp [Exchange.Grants, Option.any_eq_true])

/-! ## When the verdict is read -/

/-- The copy of the body stays inside `Data` and its length is not negative. -/
def BodyFits (src : List UInt8) : Prop :=
  ∀ header rest body rest', strtok 124 src = some (header, rest) →
    strtok 91 rest = some (body, rest') → 2 ≤ body.length ∧ body.length ≤ 514

/-- The reply is terminated inside `recvbuff` and its body fits. -/
def Exchange.Legible (x : Exchange) : Prop :=
  (x.bytes.length < 1024 ∨ 0 ∈ x.bytes) ∧ BodyFits x.text

/-- The fourth header field is there and is either the integer 0 or, in a legible reply,
read as another number. -/
def Exchange.Judged (x : Exchange) : Prop :=
  ∃ field, x.verdict = some field ∧ (isZero field = true ∨ atoi field ≠ 0 ∧ x.Legible)

/-! ## The reply read by `Data_Coing` -/

theorem storeField_result (data : JsonDate) (p : List UInt8) (i : ℕ) :
    (storeField data p i).result = if i = 3 then atoi p else data.result := by
  match i with
  | 0 | 1 | 2 | 3 | i + 4 => rfl

/-- From field `i` on, the loop changes `Result` only at the fourth field. -/
theorem codeHeader_result (data : JsonDate) (i : ℕ) (ps : List (List UInt8)) :
    (codeHeader data i ps).result =
      if i ≤ 3 then (ps[3 - i]?.map atoi).getD data.result else data.result := by
  induction ps generalizing data i with
  | nil => simp [codeHeader]
  | cons p ps ih =>
    rw [codeHeader, ih, storeField_result]
    rcases Nat.lt_trichotomy i 3 with hlt | rfl | hgt
    · -- the fourth field is still to come
      rw [if_pos (by omega), if_neg (by omega), if_pos (by omega),
        show 3 - i = 3 - (i + 1) + 1 by omega, List.getElem?_cons_succ]
    · simp
    · rw [if_neg (by omega), if_neg (by omega), if_neg (by omega)]

theorem codeBody_result {data data' : JsonDate} {p : List UInt8}
    (h : codeBody data p = some data') : data'.result = data.result := by
  simp only [codeBody] at h
  split at h
  · cases h
  · obtain ⟨copy, -, rfl⟩ := Option.map_eq_some_iff.mp h
    rfl

/-- `Len` is two less than the length of the body. -/
theorem codeBody_isSome_iff (data : JsonDate) (p : List UInt8) :
    (codeBody data p).isSome = true ↔ 2 ≤ p.length ∧ p.length ≤ 514 := by
  have hcopy : ((p.drop 1).take ((p.drop 1).length - 1 : ℤ).toNat).length = p.length - 2 := by
    simp only [List.length_take, List.length_drop]
    omega
  simp only [codeBody]
  split
  · rename_i hneg
    simp only [List.length_drop] at hneg
    simp only [Option.isSome_none, Bool.false_eq_true, false_iff]
    omega
  · rename_i hneg
    rw [Option.isSome_map, CArray.isSome_memcpy, hcopy]
    simp only [List.length_drop] at hneg
    omega

/-- What `Data_Coing` makes of a text, if its copy stays in bounds: `Result` is the fourth
field of the header, or what it was. -/
theorem dataCoing_result {src : List UInt8} {data data' : JsonDate} {ret : ℤ}
    (h : dataCoing src data = some (ret, data')) :
    data'.result = ((headerFields src)[3]?.map atoi).getD data.result := by
  unfold dataCoing at h
  unfold headerFields
  split at h
  · rename_i hsrc
    rw [hsrc]
    cases h
    rfl
  · cases hhead : strtok 124 src with
    | none =>
      rw [hhead] at h
      cases h
      rfl
    | some hr =>
      obtain ⟨header, rest⟩ := hr
      rw [hhead] at h
      have hcode := codeHeader_result data 0 (tokens 44 header)
      rw [if_pos (Nat.zero_le 3)] at hcode
      cases hbody : strtok 91 rest with
      | none =>
        simp only [hbody, Option.some.injEq, Prod.mk.injEq] at h
        rw [← h.2, hcode]
      | some br =>
        simp only [hbody] at h
        obtain ⟨data'', hdata, heq⟩ := Option.map_eq_some_iff.mp h
        rw [← (Prod.mk.inj heq).2, codeBody_result hdata, hcode]

theorem dataCoing_isSome_iff (src : List UInt8) (data : JsonDate) :
    (dataCoing src data).isSome = true ↔ BodyFits src := by
  unfold dataCoing BodyFits
  split
  · rename_i hsrc
    simp [hsrc, strtok]
  · cases hhead : strtok 124 src with
    | none => simp
    | some hr =>
      obtain ⟨header, rest⟩ := hr
      cases hbody : strtok 91 rest with
      | none =>
        simp only [hbody, Option.isSome_some, true_iff]
        rintro _ _ body rest' ⟨⟩ hb
        rw [hbody] at hb
        cases hb
      | some br =>
        obtain ⟨body, rest'⟩ := br
        simp only [hbody, Option.isSome_map, codeBody_isSome_iff]
        constructor
        · rintro hlen _ _ _ _ ⟨⟩ hb
          rw [hbody] at hb
          cases hb
          exact hlen
        · intro h
          exact h header rest body rest' rfl hbody

/-! ## The two users of the verdict -/

theorem recvbuff_cstr (x : Exchange) : x.recvbuff.cstr =
    if x.bytes.length < 1024 ∨ 0 ∈ x.bytes then some x.text else none :=
  CArray.cstr_zero_overlay x.bytes_fit

/-- A closed connection has delivered no text. -/
theorem Exchange.verdict_of_closed {x : Exchange} (h : sendSimData x = 0) : x.verdict = none := by
  cases x with
  | reply bytes some fits =>
    have hlen : (bytes.length : ℤ) = 0 := h
    exact absurd (List.length_eq_zero_iff.mp (by omega)) some
  | _ => rfl

/-- The exchange comes out as an error exactly when a legible reply has a fourth header
field that does not read as 0. -/
theorem socket_refuses_iff (x : Exchange) :
    (∃ cnt dst, getDealFromSimPoolSocket x = some (cnt, dst) ∧ cnt ≠ 0) ↔
      ∃ field, x.verdict = some field ∧ atoi field ≠ 0 ∧ x.Legible := by
  unfold getDealFromSimPoolSocket
  by_cases hsend : sendSimData x = 0
  · rw [if_neg (not_not.mpr hsend), x.verdict_of_closed hsend]
    simp [JsonDate.zero]
  rw [if_pos hsend, recvbuff_cstr]
  by_cases hterm : x.bytes.length < 1024 ∨ 0 ∈ x.bytes
  · rw [if_pos hterm]
    have hfits := dataCoing_isSome_iff x.text .zero
    cases hcode : dataCoing x.text .zero with
    | none =>
      -- the copy of the body overruns `Data`
      simp only [hcode, Option.isSome_none, Bool.false_eq_true, false_iff] at hfits
      simp [Exchange.Legible, hfits, hcode]
    | some res =>
      obtain ⟨ret, data⟩ := res
      simp only [hcode, Option.isSome_some, true_iff] at hfits
      have hresult : data.result = (x.verdict.map atoi).getD 0 := dataCoing_result hcode
      by_cases hzero : data.result = 0
      · simp only [Option.bind_eq_bind, Option.bind_some, hcode, hzero, if_true]
        constructor
        · rintro ⟨cnt, dst, hret, hcnt⟩
          obtain ⟨_, -, heq⟩ := Option.bind_eq_some_iff.mp hret
          cases heq
          exact absurd rfl hcnt
        · rintro ⟨field, hfield, hatoi, -⟩
          rw [hfield, hzero] at hresult
          exact absurd hresult.symm hatoi
      · simp only [Option.bind_eq_bind, Option.bind_some, hcode, if_neg hzero]
        refine ⟨fun _ => ?_, fun _ => ⟨_, _, rfl, hzero⟩⟩
        cases hv : x.verdict with
        | none => exact absurd (by simpa [hv] using hresult) hzero
        | some field =>
          refine ⟨field, rfl, ?_, hterm, hfits⟩
          rw [hv] at hresult
          rw [show atoi field = data.result from hresult.symm]
          exact hzero
  · rw [if_neg hterm]
    simp [Exchange.Legible, hterm]

theorem simAllocateErr_ne_zero (code : SimAllocErrCode) (node : DataSpm) :
    (simAllocateErr code node).1 ≠ 0 := by
  show code.value ≠ 0
  cases code <;> decide

/-- Every error of the backend becomes an error of its own. -/
theorem simPool_refuses_iff (node : DataSpm) (x : Exchange) :
    (∃ cnt node' dst, getDealFromSimPool node x = some (cnt, node', dst) ∧ cnt ≠ 0) ↔
      ∃ cnt dst, getDealFromSimPoolSocket x = some (cnt, dst) ∧ cnt ≠ 0 := by
  unfold getDealFromSimPool
  cases hsock : getDealFromSimPoolSocket x with
  | none => simp
  | some res =>
    obtain ⟨cnt, dst⟩ := res
    simp only [Option.bind_eq_bind, Option.bind_some]
    by_cases hcnt : cnt = 0
    · simp [hcnt]
    · simp only [ne_eq, hcnt, not_false_eq_true, if_true]
      refine ⟨fun _ => ⟨cnt, dst, rfl, hcnt⟩, fun _ => ⟨_, _, _, rfl, ?_⟩⟩
      split
      · exact simAllocateErr_ne_zero _ node
      · split <;> exact simAllocateErr_ne_zero _ node

theorem remote_refuses {node : DataSpm} {x : Exchange}
    (hmcc : redirected ((noteMCC node).mem.getNat Member.mcc) = false)
    (h : ∃ cnt dst, getDealFromSimPoolSocket x = some (cnt, dst) ∧ cnt ≠ 0) :
    ∃ cnt node', getDealFromRemote node x = some (cnt, node') ∧ cnt ≠ 0 := by
  obtain ⟨node₁, hcopy⟩ : ∃ node₁, (noteMCC node).copyTo Member.serverInfo masterIP = some node₁ := by
    unfold DataSpm.copyTo
    rw [CArray.copyTo_of_le _ _ (by decide)]
    exact ⟨_, rfl⟩
  obtain ⟨cnt, node', dst, hpool, hcnt⟩ := (simPool_refuses_iff node₁ x).mpr h
  refine ⟨cnt, node', ?_, hcnt⟩
  simp [getDealFromRemote, hmcc, hcopy, hpool, hcnt]

theorem dealProc_refuses_iff (node : DataSpm) (type : ℤ) (x : Exchange) :
    (∃ cnt node', dealProc node type x = some (cnt, node') ∧ cnt ≠ 0) ↔
      ∃ cnt dst, getDealFromSimPoolSocket x = some (cnt, dst) ∧ cnt ≠ 0 := by
  rw [← simPool_refuses_iff (node.setNat Member.miniteRemain 0)]
  simp only [dealProc]
  cases hpool : getDealFromSimPool (node.setNat Member.miniteRemain 0) x with
  | none => simp
  | some res =>
    obtain ⟨cnt, node₁, dst⟩ := res
    simp only [Option.bind_eq_bind, Option.bind_some]
    by_cases hcnt : cnt = 0
    · -- the deal is received: whatever comes of its text, `cnt` is 0
      simp only [hcnt, if_true]
      constructor
      · rintro ⟨cnt', node', hret, hne⟩
        obtain ⟨_, -, hret⟩ := Option.bind_eq_some_iff.mp hret
        obtain ⟨_, -, hret⟩ := Option.bind_eq_some_iff.mp hret
        split at hret <;> (cases hret; exact absurd rfl hne)
      · rintro ⟨cnt', node', dst', heq, hne⟩
        cases heq
        exact absurd rfl hne
    · simp only [hcnt, if_false]
      refine ⟨fun _ => ⟨cnt, node₁, dst, rfl, hcnt⟩, fun _ => ?_⟩
      split
      · exact ⟨_, _, rfl, hcnt⟩
      · exact ⟨_, _, rfl, hcnt⟩

/-! ## The verdict -/

/-- For every request, node and exchange: that the login and `Deal_Proc` take their error
branch unless a reply was received whose fourth header field is the integer 0, is the case
exactly when that field is there and is 0 or, in a legible reply, reads as another number. -/
theorem verdict_iff (node : DataSpm) (type : ℤ) (x : Exchange)
    (hmcc : redirected ((noteMCC node).mem.getNat Member.mcc) = false) :
    (¬ x.Grants →
      (∃ cnt node', getDealFromRemote node x = some (cnt, node') ∧ cnt ≠ 0) ∧
      (∃ cnt node', dealProc node type x = some (cnt, node') ∧ cnt ≠ 0)) ↔ x.Judged := by
  constructor
  · intro h
    by_cases hg : x.Grants
    · obtain ⟨field, hfield, hzero⟩ := hg
      exact ⟨field, hfield, .inl hzero⟩
    · have hrefused := (dealProc_refuses_iff node type x).mp (h hg).2
      obtain ⟨field, hfield, hatoi, hleg⟩ := (socket_refuses_iff x).mp hrefused
      exact ⟨field, hfield, .inr ⟨hatoi, hleg⟩⟩
  · rintro ⟨field, hfield, hzero | ⟨hatoi, hleg⟩⟩ hg
    · exact absurd ⟨field, hfield, hzero⟩ hg
    · have hrefused := (socket_refuses_iff x).mpr ⟨field, hfield, hatoi, hleg⟩
      exact ⟨remote_refuses hmcc hrefused, (dealProc_refuses_iff node type x).mpr hrefused⟩

/-- A device seen for the first time that logs in from country 310. -/
def abroad : DataSpm := initDataSpm.setInt Member.authMCC 310

/-- The backend is out of service and says so. -/
theorem verdict_iff_refused :
    (∃ cnt node', getDealFromRemote abroad
      (.reply (text "333,1001,12,2|") (by decide) (by decide)) = some (cnt, node') ∧ cnt ≠ 0) := by
  have hbody : BodyFits (text "333,1001,12,2|") := by
    intro header rest body rest' hhead hbody
    have hrest : strtok 124 (text "333,1001,12,2|") = some (text "333,1001,12,2", []) := by decide
    rw [hrest] at hhead
    cases hhead
    cases hbody
  have hjudged : (Exchange.reply (text "333,1001,12,2|") (by decide) (by decide)).Judged :=
    ⟨text "2", by decide, .inr ⟨by decide, .inl (by decide), hbody⟩⟩
  exact ((verdict_iff abroad 0 _ (by decide +kernel)).mpr hjudged (by decide)).1

/-- The connection to the backend cannot be made, and the deal is granted. -/
theorem granted_without_connection :
    ¬ Exchange.connectFailed.Grants ∧
      redirected ((noteMCC abroad).mem.getNat Member.mcc) = false ∧
      (getDealFromRemote abroad .connectFailed).map Prod.fst = some 0 ∧
      (dealProc abroad 0 .connectFailed).map Prod.fst = some 0 := by
  decide +kernel

end Tdm.Common
