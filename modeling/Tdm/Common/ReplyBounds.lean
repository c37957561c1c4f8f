import Tdm.Common.Verdict

/-!
# Malformed replies

`Data_Coing` takes what follows the bar, cut at brackets, for a body between a brace and a bracket
and copies what is inside. It does not look whether they are there: of a body of one character
-1 characters are copied, and a long body runs over `Data`.
-/

namespace Tdm.Common

open Tdm.Lib

/-- The token that `Data_Coing` takes for the body. -/
def replyBody (src : List UInt8) : Option (List UInt8) :=
  (strtok 124 src).bind fun (_, rest) => (strtok 91 rest).map Prod.fst

/-- `Data_Coing` stays inside `Data` and leaves a string there, an empty one without a body. -/
def Harmless (src : List UInt8) : Prop :=
  ∃ ret data, dataCoing src .zero = some (ret, data) ∧ 0 ≤ data.len ∧ data.len ≤ 511 ∧
    (∃ s, data.data.cstr = some s) ∧ (replyBody src = none → data.data = CArray.zero 512)

theorem storeField_data (data : JsonDate) (p : List UInt8) (i : ℕ) :
    (storeField data p i).len = data.len ∧ (storeField data p i).data = data.data := by
  match i with
  | 0 | 1 | 2 | 3 | i + 4 => exact ⟨rfl, rfl⟩

/-- The header is stored in the four numbers. -/
theorem codeHeader_data (data : JsonDate) (i : ℕ) (ps : List (List UInt8)) :
    (codeHeader data i ps).len = data.len ∧ (codeHeader data i ps).data = data.data := by
  induction ps generalizing data i with
  | nil => exact ⟨rfl, rfl⟩
  | cons p ps ih =>
    obtain ⟨hlen, hdata⟩ := storeField_data data p i
    obtain ⟨hlen', hdata'⟩ := ih (storeField data p i) (i + 1)
    exact ⟨hlen'.trans hlen, hdata'.trans hdata⟩

/-- Without a body nothing is stored in `Data`. -/
theorem dataCoing_of_noBody {src : List UInt8} (h : replyBody src = none) :
    ∃ ret data, dataCoing src .zero = some (ret, data) ∧ data.len = 0 ∧
      data.data = CArray.zero 512 := by
  unfold dataCoing
  split
  · exact ⟨_, _, rfl, rfl, rfl⟩
  · cases hhead : strtok 124 src with
    | none => exact ⟨_, _, rfl, rfl, rfl⟩
    | some hr =>
      obtain ⟨header, rest⟩ := hr
      rw [replyBody, hhead, Option.bind_some, Option.map_eq_none_iff] at h
      obtain ⟨hlen, hdata⟩ := codeHeader_data .zero 0 (tokens 44 header)
      simp only [h]
      exact ⟨_, _, rfl, hlen, hdata⟩

/-- With a body, the copy is one of two bytes less. -/
theorem dataCoing_of_body {src body : List UInt8} (h : replyBody src = some body) :
    ∃ data, data.data = CArray.zero 512 ∧
      dataCoing src .zero = (codeBody data body).map fun data => (data.result, data) := by
  cases hhead : strtok 124 src with
  | none =>
    rw [replyBody, hhead] at h
    cases h
  | some hr =>
    obtain ⟨header, rest⟩ := hr
    rw [replyBody, hhead, Option.bind_some] at h
    obtain ⟨⟨token, rest'⟩, htoken, rfl⟩ := Option.map_eq_some_iff.mp h
    have hne : src ≠ [] := by
      rintro rfl
      cases hhead
    refine ⟨_, (codeHeader_data .zero 0 (tokens 44 header)).2, ?_⟩
    unfold dataCoing
    rw [if_neg hne, hhead]
    simp only [htoken]

theorem codeBody_of_fits (data : JsonDate) {body : List UInt8} (hlo : 2 ≤ body.length)
    (hfit : ((body.drop 1).take (body.length - 2)).length ≤ 512) :
    codeBody data body = some { data with
      len := (body.length - 2 : ℕ)
      data := data.data.overlay ((body.drop 1).take (body.length - 2)) hfit } := by
  have hlen : ((body.drop 1).length : ℤ) - 1 = (body.length - 2 : ℕ) := by
    rw [List.length_drop]
    omega
  simp only [codeBody, hlen, Int.toNat_natCast]
  rw [if_neg (by omega), CArray.memcpy_of_le _ hfit, Option.map_some]

/-- For every text that arrives as a reply: `Data_Coing` is harmless exactly if there is no body or
it has 2 to 513 characters. -/
theorem reply_harmless_iff (src : List UInt8) :
    Harmless src ↔ ∀ body, replyBody src = some body → 2 ≤ body.length ∧ body.length ≤ 513 := by
  cases hbody : replyBody src with
  | none =>
    obtain ⟨ret, data, hrun, hlen, hdata⟩ := dataCoing_of_noBody hbody
    refine iff_of_true ⟨ret, data, hrun, hlen.ge, by omega, ⟨[], ?_⟩, fun _ => hdata⟩ (by nofun)
    rw [hdata]
    exact CArray.cstr_zero 512 (by decide)
  | some body =>
    obtain ⟨data, hzero, hrun⟩ := dataCoing_of_body hbody
    have hcopy : ((body.drop 1).take (body.length - 2)).length = body.length - 2 := by
      rw [List.length_take, List.length_drop]
      omega
    constructor
    · rintro ⟨ret, data', hsome, -, hmax, -, -⟩ _ ⟨⟩
      obtain ⟨data'', hcode, hpair⟩ := Option.map_eq_some_iff.mp (hrun.symm.trans hsome)
      obtain ⟨-, rfl⟩ := Prod.mk.inj hpair
      obtain ⟨hlo, hhi⟩ := (codeBody_isSome_iff data body).mp (Option.isSome_of_eq_some hcode)
      have hcode' := codeBody_of_fits data hlo (by omega)
      rw [hcode] at hcode'
      rw [Option.some.inj hcode'] at hmax
      exact ⟨hlo, by simp only at hmax; omega⟩
    · intro h
      obtain ⟨hlo, hhi⟩ := h body rfl
      have hfit : ((body.drop 1).take (body.length - 2)).length ≤ 512 := by omega
      rw [codeBody_of_fits data hlo hfit, Option.map_some] at hrun
      refine ⟨_, _, hrun, by simp, by simp only; omega, ?_, by rw [hbody]; nofun⟩
      -- the copy leaves a zero behind it
      simp only [hzero]
      rw [CArray.cstr_zero_overlay, if_pos (.inl (by omega))]
      exact ⟨_, rfl⟩

/-- Of a body of one character -1 characters are copied; one of 514 characters leaves no zero in
`Data`, a longer one runs over it. -/
theorem malformed_replies_harmful :
    (¬ Harmless (text "333,1001,12,0|[\x7b") ∧
      dataCoing (text "333,1001,12,0|[\x7b") .zero = none) ∧
    (∃ ret data, dataCoing (text "333,1001,12,0|[" ++ List.replicate 514 97) .zero =
      some (ret, data) ∧ data.len = 512 ∧ data.data.cstr = none) ∧
    dataCoing (text "333,1001,12,0|[" ++ List.replicate 515 97) .zero = none := by
  have hbrace : dataCoing (text "333,1001,12,0|[\x7b") .zero = none :=
    Option.not_isSome_iff_eq_none.mp (by decide +kernel)
  have hfull : ((dataCoing (text "333,1001,12,0|[" ++ List.replicate 514 97) .zero).map fun p =>
      (p.2.len, p.2.data.cstr)) = some (512, none) := by decide +kernel
  obtain ⟨⟨ret, data⟩, hrun, hdata⟩ := Option.map_eq_some_iff.mp hfull
  obtain ⟨hlen, hcstr⟩ := Prod.mk.inj hdata
  refine ⟨⟨?_, hbrace⟩, ⟨ret, data, hrun, hlen, hcstr⟩, ?_⟩
  · rintro ⟨ret, data, hsome, -⟩
    rw [hbrace] at hsome
    cases hsome
  · exact Option.not_isSome_iff_eq_none.mp (by decide +kernel)

end Tdm.Common
