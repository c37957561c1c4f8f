import Tdm.Common.RegistryTheorems

/-!
# Serial numbers and nodes

`Is_Valid_SN` judges the number `atoll` reads from a serial number, the registry compares
its first 15 bytes. The two agree on serial numbers that begin with a digit other than `0`:
such a text is valid only if its first 15 bytes are the decimal numeral of its number. They
do not agree on all valid texts, since `atoll` skips blanks and leading zeros.
-/

namespace Tdm.Common

open Tdm.Lib

/-- A registry that `Get_Node_By_SN` calls with enough memory have built. -/
inductive Built : Registry → Prop
  | init : Built connectToMysqlInit
  | call {r r' : Registry} {sn : SnArg} {node : Option ℕ} (h : Built r)
      (hr : getNodeBySN r sn true = some (node, r')) : Built r'

/-- A valid serial number obtains a node; closing its socket changes no key. -/
theorem getNodeBySN_obtains {r : Registry} (h : r.Sound) {sn : SnArg}
    (hsn : isValidSN sn.bytes = true) (malloc : Bool) :
    ∃ node r₁, Obtained r sn malloc node r₁ ∧
      getNodeBySN r sn malloc = some (node, getNodeUnlocked r₁ node) := by
  obtain ⟨node, r₁, hr, ho⟩ := findOrAdd_obtains h sn initDataSpm malloc
  exact ⟨node, r₁, ho, by simp [getNodeBySN, hsn, getNodeLocked, hr]⟩

theorem Built.sound {r : Registry} (h : Built r) : r.Sound := by
  induction h with
  | init => exact sound_connectToMysqlInit
  | @call r r' sn node _ hr ih =>
    by_cases hsn : isValidSN sn.bytes = true
    · obtain ⟨node', r₁, ho, hr'⟩ := getNodeBySN_obtains ih hsn true
      obtain ⟨rfl, rfl⟩ := Prod.mk.inj (Option.some.inj (hr'.symm.trans hr))
      exact (ho.sound ih).onNode node' key_closeSocketSpm
    · have hsame : some (none, r) = some (node, r') := by
        rw [← hr, getNodeBySN, if_neg hsn]
      obtain ⟨rfl, rfl⟩ := Prod.mk.inj (Option.some.inj hsame)
      exact ih

/-! ## Nodes and keys -/

/-- With memory for it, a valid serial number gets a node that carries its key, in a
registry that is sound again. -/
theorem getNodeBySN_valid {r : Registry} (h : r.Sound) {sn : SnArg}
    (hsn : isValidSN sn.bytes = true) :
    ∃ i r', getNodeBySN r sn true = some (some i, r') ∧ r'.Sound ∧ r'.keys[i]? = some sn.key ∧
      r.keys <+: r'.keys := by
  obtain ⟨node, r₁, ho, hr⟩ := getNodeBySN_obtains h hsn true
  have hsound := (ho.sound h).onNode node key_closeSocketSpm
  have hkeys := r₁.keys_onNode node key_closeSocketSpm
  cases node with
  | none =>
    cases ho with
    | failed hnew hmalloc => cases hmalloc
  | some i =>
    refine ⟨i, _, hr, hsound, ?_, ?_⟩
    · exact (congrArg (·[i]?) hkeys).trans ho.key_at
    · exact ho.keys_prefix.trans (hkeys ▸ List.prefix_rfl)

/-- Two calls in a row return the same node exactly when their keys are equal. -/
theorem sameNode_iff_key {r : Registry} (h : r.Sound) {a b : SnArg}
    (ha : isValidSN a.bytes = true) (hb : isValidSN b.bytes = true) :
    ∃ i j r₁ r₂, getNodeBySN r a true = some (some i, r₁) ∧
      getNodeBySN r₁ b true = some (some j, r₂) ∧ (i = j ↔ a.key = b.key) := by
  obtain ⟨i, r₁, hr₁, hs₁, hi, -⟩ := getNodeBySN_valid h ha
  obtain ⟨j, r₂, hr₂, hs₂, hj, hpre⟩ := getNodeBySN_valid hs₁ hb
  obtain ⟨t, ht⟩ := hpre
  have hi₂ : r₂.keys[i]? = some a.key := by
    rw [← ht, List.getElem?_append_left (List.getElem?_eq_some_iff.mp hi).1]
    exact hi
  refine ⟨i, j, r₁, r₂, hr₁, hr₂, ?_, ?_⟩
  · rintro rfl
    exact Option.some.inj (hi₂.symm.trans hj)
  · intro hkey
    rw [hkey] at hi₂
    exact hs₂.index_unique hi₂ hj

/-! ## Keys and numbers -/

/-- The text begins with a digit other than `0`. -/
def LeadingDigit (s : List UInt8) : Prop := ∃ d t, s = d :: t ∧ isDigit d = true ∧ d ≠ 48

/-- On such a text `atoll` reads the digits it begins with. -/
theorem atoll_of_leadingDigit {s : List UInt8} (h : LeadingDigit s) :
    atoll s = min (2 ^ 63 - 1) (digitsValue s : ℤ) := by
  obtain ⟨d, t, rfl, hd, -⟩ := h
  obtain ⟨hminus, hplus⟩ := ne_sign_of_isDigit hd
  have hdrop : (d :: t).dropWhile isSpace = d :: t := by
    rw [List.dropWhile_cons, isSpace_of_isDigit hd]
    rfl
  unfold atoll strtoll
  simp only [hdrop, List.head?_cons, Option.some.injEq, hminus, hplus, if_false]

/-- A number in the range `Is_Valid_SN` tests has 15 digits. -/
theorem atoll_of_isValidSN {s : List UInt8} (h : isValidSN s = true)
    (hs : LeadingDigit s) : 10 ^ 14 ≤ digitsValue s ∧ digitsValue s < 10 ^ 15 ∧
      atoll s = digitsValue s := by
  have hval := atoll_of_leadingDigit hs
  simp only [isValidSN, Bool.or_eq_true, Bool.and_eq_true, decide_eq_true_eq] at h
  rw [hval] at h ⊢
  omega

/-- The first 15 bytes of a valid text that begins with a digit other than `0` are digits
and read as its number. -/
theorem key_of_isValidSN {sn : SnArg} (h : isValidSN sn.bytes = true)
    (hs : LeadingDigit sn.bytes) :
    (∀ c ∈ sn.key, isDigit c = true) ∧ atoll sn.bytes = numeral 0 sn.key := by
  obtain ⟨hlo, hhi, hatoll⟩ := atoll_of_isValidSN h hs
  have hdigits : ∀ c ∈ sn.bytes.takeWhile isDigit, isDigit c = true :=
    fun c hc => List.mem_takeWhile_imp hc
  -- the value lies between the powers of ten on both sides of 15 digits
  have hlen : (sn.bytes.takeWhile isDigit).length = 15 := by
    obtain ⟨d, t, hdt, hd, hd0⟩ := hs
    have hcons : sn.bytes.takeWhile isDigit = d :: t.takeWhile isDigit := by
      rw [hdt, List.takeWhile_cons, hd]
      rfl
    have hle : 10 ^ (t.takeWhile isDigit).length ≤ digitsValue sn.bytes := by
      rw [digitsValue, hcons]
      exact le_numeral hd hd0
    have hlt := numeral_lt hdigits
    change digitsValue sn.bytes < _ at hlt
    rw [hcons, List.length_cons] at hlt ⊢
    have h1 : (t.takeWhile isDigit).length < 15 :=
      (Nat.pow_lt_pow_iff_right (by omega)).mp (hle.trans_lt hhi)
    have h2 : 14 < (t.takeWhile isDigit).length + 1 :=
      (Nat.pow_lt_pow_iff_right (by omega)).mp (hlo.trans_lt hlt)
    omega
  have hkey : sn.key = sn.bytes.takeWhile isDigit := by
    have hpre := List.prefix_iff_eq_take.mp (List.takeWhile_prefix (p := isDigit) (l := sn.bytes))
    rw [hlen] at hpre
    exact hpre.symm
  rw [hkey]
  exact ⟨hdigits, hatoll⟩

theorem key_eq_iff_atoll_eq {a b : SnArg} (ha : isValidSN a.bytes = true)
    (hb : isValidSN b.bytes = true) (hda : LeadingDigit a.bytes) (hdb : LeadingDigit b.bytes) :
    a.key = b.key ↔ atoll a.bytes = atoll b.bytes := by
  obtain ⟨hdigits, hnum⟩ := key_of_isValidSN ha hda
  obtain ⟨hdigits', hnum'⟩ := key_of_isValidSN hb hdb
  rw [hnum, hnum']
  constructor
  · intro h
    rw [h]
  · intro h
    apply numeral_injective _ hdigits hdigits' (by exact_mod_cast h)
    rw [a.length_key, b.length_key]

/-! ## One node per device number -/

/-- In every registry built by calls, two valid serial numbers get the same node exactly
when their first 15 bytes are equal; for those that begin with a digit other than `0` this
is exactly when they are the same number. -/
theorem sameNode_iff_sameNumber {r : Registry} (hr : Built r) (a b : SnArg)
    (ha : isValidSN a.bytes = true) (hb : isValidSN b.bytes = true) :
    ∃ i j r₁ r₂, getNodeBySN r a true = some (some i, r₁) ∧
      getNodeBySN r₁ b true = some (some j, r₂) ∧ (i = j ↔ a.key = b.key) ∧
      (LeadingDigit a.bytes → LeadingDigit b.bytes →
        (i = j ↔ atoll a.bytes = atoll b.bytes)) := by
  obtain ⟨i, j, r₁, r₂, hr₁, hr₂, hiff⟩ := sameNode_iff_key hr.sound ha hb
  refine ⟨i, j, r₁, r₂, hr₁, hr₂, hiff, ?_⟩
  intro hda hdb
  rw [hiff]
  exact key_eq_iff_atoll_eq ha hb hda hdb

/-- Two serial numbers of one device range, asked for in an empty registry. -/
theorem sameNode_iff_sameNumber_two :
    ∃ i j r₁ r₂,
      getNodeBySN connectToMysqlInit ⟨text "172150210000937", by decide⟩ true =
        some (some i, r₁) ∧
      getNodeBySN r₁ ⟨text "860172008500001", by decide⟩ true = some (some j, r₂) ∧ i ≠ j := by
  obtain ⟨i, j, r₁, r₂, hr₁, hr₂, -, hiff⟩ := sameNode_iff_sameNumber .init
    ⟨text "172150210000937", by decide⟩ ⟨text "860172008500001", by decide⟩
    (by decide) (by decide)
  refine ⟨i, j, r₁, r₂, hr₁, hr₂, ?_⟩
  intro h
  have hnum := (hiff ⟨49, text "72150210000937", by decide, by decide, by decide⟩
    ⟨56, text "60172008500001", by decide, by decide, by decide⟩).mp h
  revert hnum
  decide

/-- A blank in front gives one number two nodes, and a zero in front gives two numbers one
node. -/
theorem number_and_node_disagree :
    (isValidSN (text "172150210000937") = true ∧ isValidSN (text " 172150210000937") = true ∧
      atoll (text "172150210000937") = atoll (text " 172150210000937") ∧
      ((getNodeBySN connectToMysqlInit ⟨text "172150210000937", by decide⟩ true).bind fun p =>
        (getNodeBySN p.2 ⟨text " 172150210000937", by decide⟩ true).map fun q =>
          (p.1, q.1)) = some (some 0, some 1)) ∧
    (isValidSN (text "0172150210000937") = true ∧ isValidSN (text "0172150210000938") = true ∧
      atoll (text "0172150210000937") ≠ atoll (text "0172150210000938") ∧
      ((getNodeBySN connectToMysqlInit ⟨text "0172150210000937", by decide⟩ true).bind fun p =>
        (getNodeBySN p.2 ⟨text "0172150210000938", by decide⟩ true).map fun q =>
          (p.1, q.1)) = some (some 0, some 0)) := by
  decide +kernel

end Tdm.Common
