import Mathlib.Data.List.DropRight
import Tdm.Lib.CString

/-!
# Trimming in place

`AllTrim` removes the spaces around a string inside its own array: every character behind the leading
spaces is moved to the front as it is read, and the terminator is set behind the last one that is not
a space. `trim` says what is left of the string; the bytes between the new terminator and the place of
the old one are junk.

A buffer is the list of its bytes. Reading or writing outside it has no result.
-/

namespace Tdm.Config

/-! ## The function -/

/-- `sBuf[i] = c`. -/
def store (sBuf : List UInt8) (i : ℕ) (c : UInt8) : Option (List UInt8) :=
  if i < sBuf.length then some (sBuf.set i c) else none

/-- The variables of the loop. -/
structure Trim where
  sBuf : List UInt8
  i : ℕ
  iFirstChar : Bool
  iEndPos : ℕ
  iFirstPos : ℕ

/-- The body of the loop for the character at `i`. -/
def Trim.step (t : Trim) (c : UInt8) : Option Trim :=
  if t.iFirstChar then do
    let sBuf ← store t.sBuf (t.i - t.iFirstPos) c
    return { t with sBuf := sBuf, i := t.i + 1, iEndPos := if c ≠ 32 then t.i else t.iEndPos }
  else if c ≠ 32 then do
    let sBuf ← store t.sBuf 0 c
    return { t with sBuf := sBuf, i := t.i + 1, iFirstChar := true, iEndPos := t.iFirstPos }
  else some { t with i := t.i + 1, iFirstPos := t.iFirstPos + 1 }

/-- The loop, with as many rounds as there are bytes from `i` on. -/
def Trim.loop : ℕ → Trim → Option Trim
  | 0, _ => none
  | n + 1, t => do
    let c ← t.sBuf[t.i]?
    if c = 0 then return t else Trim.loop n (← t.step c)

/-- `AllTrim` on an array: the array afterwards. -/
def allTrim (sBuf : List UInt8) : Option (List UInt8) := do
  let t ← Trim.loop sBuf.length ⟨sBuf, 0, false, 0, 0⟩
  if t.iFirstChar then store t.sBuf (t.iEndPos - t.iFirstPos + 1) 0 else store t.sBuf 0 0

/-! ## What is left of a string -/

/-- A string without the spaces around it. -/
def trim (s : List UInt8) : List UInt8 := (s.dropWhile (· = 32)).rdropWhile (· = 32)

/-- The string in an array. -/
def cstring (sBuf : List UInt8) : List UInt8 := sBuf.takeWhile (· ≠ 0)

theorem cstring_append {s : List UInt8} (h : 0 ∉ s) (rest : List UInt8) :
    cstring (s ++ 0 :: rest) = s := by
  unfold cstring
  rw [Lib.takeWhile_ne h, List.takeWhile_cons_of_neg (by decide), List.append_nil]

theorem trim_spaces {s : List UInt8} (h : ∀ c ∈ s, c = 32) : trim s = [] := by
  have hdrop : s.dropWhile (· = 32) = [] :=
    List.dropWhile_eq_nil_iff.mpr fun c hc => decide_eq_true (h c hc)
  unfold trim
  rw [hdrop, List.rdropWhile_nil]

theorem dropWhile_spaces (k : ℕ) (s : List UInt8) :
    (List.replicate k 32 ++ s).dropWhile (· = 32) = s.dropWhile (· = 32) := by
  induction k with
  | zero => rfl
  | succ k ih => exact ih

/-- Behind leading spaces only the trailing ones are left to remove. -/
theorem trim_of_head {c : UInt8} (hc : c ≠ 32) (k : ℕ) (s : List UInt8) :
    trim (List.replicate k 32 ++ c :: s) = (c :: s).rdropWhile (· = 32) := by
  unfold trim
  rw [dropWhile_spaces, List.dropWhile_cons_of_neg (by rwa [decide_eq_true_eq])]

/-- The leading spaces of a string. -/
theorem exists_spaces (s : List UInt8) :
    (∃ k, s = List.replicate k 32) ∨
      ∃ k c u, c ≠ 32 ∧ s = List.replicate k 32 ++ c :: u := by
  induction s with
  | nil => exact .inl ⟨0, rfl⟩
  | cons c s ih =>
    by_cases hc : c = 32
    · subst hc
      rcases ih with ⟨k, rfl⟩ | ⟨k, d, u, hd, rfl⟩
      · exact .inl ⟨k + 1, rfl⟩
      · exact .inr ⟨k + 1, d, u, hd, rfl⟩
    · exact .inr ⟨0, c, s, hc, rfl⟩

theorem trim_trim (s : List UInt8) : trim (trim s) = trim s := by
  rcases exists_spaces s with ⟨k, rfl⟩ | ⟨k, c, u, hc, rfl⟩
  · rw [trim_spaces fun c hc => List.eq_of_mem_replicate hc]
    rfl
  · rw [trim_of_head hc]
    -- the first character is kept, so the second pass finds no leading space
    have hne : (c :: u).rdropWhile (· = 32) ≠ [] := by
      rw [Ne, List.rdropWhile_eq_nil_iff]
      intro hall
      exact hc (decide_eq_true_eq.mp (hall c (List.mem_cons_self ..)))
    obtain ⟨d, v, hdv⟩ := List.exists_cons_of_ne_nil hne
    have hprefix : d :: v <+: c :: u := hdv ▸ List.rdropWhile_prefix _ _
    have hd : d = c := (List.cons_prefix_cons.mp hprefix).1
    have htrim := trim_of_head (hd ▸ hc : d ≠ 32) 0 v
    rw [List.replicate_zero, List.nil_append] at htrim
    rw [hdv, htrim, ← hdv, List.rdropWhile_idempotent]

/-! ## The loop -/

section Loop
variable {k n : ℕ} (rest : List UInt8)

theorem loop_of_step {t t' : Trim} {c : UInt8} (h : t.sBuf[t.i]? = some c) (hc : c ≠ 0)
    (hstep : t.step c = some t') : Trim.loop (n + 1) t = Trim.loop n t' := by
  simp only [Trim.loop, h, Option.bind_eq_bind, Option.bind_some, if_neg hc, hstep]

theorem loop_of_end {t : Trim} (h : t.sBuf[t.i]? = some 0) : Trim.loop (n + 1) t = some t := by
  rw [Trim.loop, h]
  rfl

theorem step_first {sBuf sBuf' : List UInt8} {i e p : ℕ} {c : UInt8} (hc : c ≠ 32)
    (h : store sBuf 0 c = some sBuf') :
    Trim.step ⟨sBuf, i, false, e, p⟩ c = some ⟨sBuf', i + 1, true, p, p⟩ := by
  simp only [Trim.step, Bool.false_eq_true, if_false, if_pos hc, h, Option.bind_eq_bind,
    Option.bind_some, Option.pure_def]

theorem step_later {sBuf sBuf' : List UInt8} {i e p : ℕ} {c : UInt8}
    (h : store sBuf (i - p) c = some sBuf') :
    Trim.step ⟨sBuf, i, true, e, p⟩ c =
      some ⟨sBuf', i + 1, true, if c ≠ 32 then i else e, p⟩ := by
  simp only [Trim.step, if_true, h, Option.bind_eq_bind, Option.bind_some, Option.pure_def]

/-- Leading spaces are counted. -/
theorem loop_spaces (k : ℕ) {j : ℕ} {sBuf s : List UInt8} (h : sBuf.drop j = List.replicate k 32 ++ s) :
    Trim.loop (k + n) ⟨sBuf, j, false, 0, j⟩ = Trim.loop n ⟨sBuf, j + k, false, 0, j + k⟩ := by
  induction k generalizing j with
  | zero => rw [Nat.zero_add, Nat.add_zero]
  | succ k ih =>
    rw [List.replicate_succ, List.cons_append] at h
    have hread : sBuf[j]? = some 32 := by
      rw [← List.head?_drop, h]
      rfl
    have hdrop : sBuf.drop (j + 1) = List.replicate k 32 ++ s := by
      rw [← List.tail_drop, h]
      rfl
    rw [Nat.add_right_comm, loop_of_step hread (by decide) rfl]
    show Trim.loop (k + n) ⟨sBuf, j + 1, false, 0, j + 1⟩ = _
    rw [ih hdrop, Nat.add_right_comm j 1 k, Nat.add_assoc]

/-- A byte stored behind `t` replaces the first one there. -/
theorem store_behind (t : List UInt8) {x : List UInt8} (hx : x ≠ []) (tail : List UInt8) (c : UInt8) :
    store (t ++ (x ++ tail)) t.length c = some (t ++ c :: (x.tail ++ tail)) := by
  obtain ⟨a, x, rfl⟩ := List.exists_cons_of_ne_nil hx
  have hlt : t.length < (t ++ (a :: x ++ tail)).length := by
    rw [List.length_append, List.length_append, List.length_cons]
    omega
  rw [store, if_pos hlt, List.set_append_right _ _ le_rfl, Nat.sub_self]
  rfl

theorem getElem?_behind (t : List UInt8) {mid : List UInt8} {i : ℕ} (hi : i = mid.length + t.length) (c : UInt8)
    (tail : List UInt8) : (t ++ (mid ++ c :: tail))[i]? = some c := by
  have hzero : i - t.length - mid.length = 0 := by omega
  rw [List.getElem?_append_right (by omega), List.getElem?_append_right (by omega), hzero]
  rfl

/-- The characters behind the first one are moved to the front, behind those that are `done`, over
`k` bytes of junk, and the end is the last one that is not a space. -/
theorem loop_copy (s : List UInt8) {done mid : List UInt8} {e : ℕ} (hs : 0 ∉ s) (hmid : mid.length = k)
    (he : e + 1 = k + (done.rdropWhile (· = 32)).length) :
    ∃ mid' e', mid'.length = k ∧ e' + 1 = k + ((done ++ s).rdropWhile (· = 32)).length ∧
      Trim.loop (s.length + (n + 1))
          ⟨done ++ (mid ++ (s ++ 0 :: rest)), k + done.length, true, e, k⟩ =
        some ⟨done ++ s ++ (mid' ++ 0 :: rest), k + (done ++ s).length, true, e', k⟩ := by
  induction s generalizing done mid e with
  | nil =>
    have hread := getElem?_behind done (by rw [hmid]) 0 rest
    rw [List.append_nil, List.length_nil, Nat.zero_add]
    exact ⟨mid, e, hmid, he, loop_of_end hread⟩
  | cons c s ih =>
    rw [List.mem_cons, not_or] at hs
    have hread := getElem?_behind done (by rw [hmid]) c (s ++ 0 :: rest)
    have hstore : store (done ++ (mid ++ c :: (s ++ 0 :: rest))) (k + done.length - k) c =
        some (done ++ c :: ((mid ++ [c]).tail ++ (s ++ 0 :: rest))) := by
      have hindex : k + done.length - k = done.length := by omega
      have hsplit : mid ++ c :: (s ++ 0 :: rest) = mid ++ [c] ++ (s ++ 0 :: rest) := by
        rw [List.append_assoc]
        rfl
      rw [hindex, hsplit, store_behind _ (by simp)]
    -- the end moves to this character unless it is a space
    have hend : (if c ≠ 32 then k + done.length else e) + 1 =
        k + ((done ++ [c]).rdropWhile (· = 32)).length := by
      rw [List.rdropWhile_concat]
      by_cases hc : c = 32
      · rw [if_neg (not_not.mpr hc), if_pos (decide_eq_true hc), he]
      · rw [if_pos hc, if_neg (by rwa [decide_eq_true_eq]), List.length_append, List.length_singleton]
        omega
    have hmid' : (mid ++ [c]).tail.length = k := by
      rw [List.length_tail, List.length_append, List.length_singleton]
      omega
    obtain ⟨mid', e', hlen, he', hloop⟩ := ih hs.2 hmid' hend
    have hdone (x : List UInt8) : done ++ [c] ++ x = done ++ c :: x := by
      rw [List.append_assoc]
      rfl
    have hi : k + (done ++ [c]).length = k + done.length + 1 := by
      rw [List.length_append, List.length_singleton, Nat.add_assoc]
    rw [hdone] at he'
    rw [hdone, hdone, hi] at hloop
    refine ⟨mid', e', hlen, he', ?_⟩
    rw [List.length_cons, Nat.add_right_comm]
    exact (loop_of_step hread (Ne.symm hs.1) (step_later hstore)).trans hloop

end Loop

/-! ## The result -/

/-- When no character is found, the terminator goes to the front. -/
theorem allTrim_replicate (k : ℕ) (rest : List UInt8) :
    allTrim (List.replicate k 32 ++ 0 :: rest) =
      some (0 :: ((List.replicate k (32 : UInt8) ++ [0]).tail ++ rest)) := by
  have hlen : (List.replicate k 32 ++ 0 :: rest).length = k + (rest.length + 1) := by simp
  have hend : (List.replicate k (32 : UInt8) ++ 0 :: rest)[0 + k]? = some 0 :=
    getElem?_behind [] (by simp) 0 rest
  have hloop : Trim.loop (List.replicate k 32 ++ 0 :: rest).length
      ⟨List.replicate k 32 ++ 0 :: rest, 0, false, 0, 0⟩ =
        some ⟨List.replicate k 32 ++ 0 :: rest, 0 + k, false, 0, 0 + k⟩ := by
    rw [hlen, loop_spaces k rfl, loop_of_end hend]
  have hsplit : List.replicate k 32 ++ 0 :: rest =
      [] ++ (List.replicate k (32 : UInt8) ++ [0] ++ rest) := by simp
  unfold allTrim
  rw [hloop]
  show store (List.replicate k 32 ++ 0 :: rest) 0 0 = _
  rw [hsplit]
  exact store_behind [] (by simp) rest 0

/-- Otherwise the characters from the first one on are moved to the front and the terminator is set
behind the last one. -/
theorem allTrim_text {c : UInt8} {u : List UInt8} (hc : c ≠ 32) (hc₀ : c ≠ 0) (hu : 0 ∉ u) (k : ℕ)
    (rest : List UInt8) :
    ∃ junk, ((c :: u).rdropWhile (· = 32)).length + junk.length = k + (c :: u).length ∧
      allTrim (List.replicate k 32 ++ c :: (u ++ 0 :: rest)) =
        some ((c :: u).rdropWhile (· = 32) ++ 0 :: (junk ++ rest)) := by
  have hlen : (List.replicate k 32 ++ c :: (u ++ 0 :: rest)).length =
      k + (u.length + (rest.length + 1) + 1) := by
    simp only [List.length_append, List.length_replicate, List.length_cons]
  have hread : (List.replicate k 32 ++ c :: (u ++ 0 :: rest))[0 + k]? = some c :=
    getElem?_behind [] (by simp) c (u ++ 0 :: rest)
  have hsplit : List.replicate k 32 ++ c :: (u ++ 0 :: rest) =
      [] ++ (List.replicate k 32 ++ [c] ++ (u ++ 0 :: rest)) := by simp
  have hstore : store (List.replicate k 32 ++ c :: (u ++ 0 :: rest)) 0 c =
      some ([c] ++ ((List.replicate k 32 ++ [c]).tail ++ (u ++ 0 :: rest))) := by
    rw [hsplit]
    exact store_behind [] (by simp) (u ++ 0 :: rest) c
  -- the first character has been moved, the others follow
  have hfirst : 0 + k + 1 = 0 + k + ([c].rdropWhile (· = 32)).length := by
    rw [List.rdropWhile_singleton, if_neg (by rwa [decide_eq_true_eq]), List.length_singleton]
  have hmid : (List.replicate k 32 ++ [c]).tail.length = 0 + k := by simp
  obtain ⟨mid, e, hmid, he, hcopy⟩ := loop_copy (n := rest.length) rest u hu hmid hfirst
  have hloop : Trim.loop (List.replicate k 32 ++ c :: (u ++ 0 :: rest)).length
      ⟨List.replicate k 32 ++ c :: (u ++ 0 :: rest), 0, false, 0, 0⟩ =
        some ⟨[c] ++ u ++ (mid ++ 0 :: rest), 0 + k + ([c] ++ u).length, true, e, 0 + k⟩ := by
    rw [hlen, loop_spaces k rfl]
    exact (loop_of_step hread hc₀ (step_first hc hstore)).trans hcopy
  obtain ⟨w, hw⟩ := List.rdropWhile_prefix (· = 32) (c :: u)
  have hindex : e - (0 + k) + 1 = ((c :: u).rdropWhile (· = 32)).length := by
    have hpos : 0 < ((c :: u).rdropWhile (· = 32)).length := by
      rw [List.length_pos_iff, Ne, List.rdropWhile_eq_nil_iff]
      intro hall
      exact hc (decide_eq_true_eq.mp (hall c (List.mem_cons_self ..)))
    have he' : e + 1 = 0 + k + ((c :: u).rdropWhile (· = 32)).length := he
    omega
  -- the spaces behind the last character, the junk and the old terminator make up the new junk
  have hrest : [c] ++ u ++ (mid ++ 0 :: rest) =
      (c :: u).rdropWhile (· = 32) ++ (w ++ mid ++ [0] ++ rest) := by
    rw [List.singleton_append]
    nth_rewrite 1 [← hw]
    simp
  refine ⟨(w ++ mid ++ [0]).tail, ?_, ?_⟩
  · have hsum := congrArg List.length hw
    rw [List.length_append] at hsum
    rw [List.length_tail, List.length_append, List.length_append, List.length_singleton, hmid]
    omega
  · unfold allTrim
    rw [hloop]
    show store ([c] ++ u ++ (mid ++ 0 :: rest)) (e - (0 + k) + 1) 0 = _
    rw [hindex, hrest]
    exact store_behind _ (by simp) rest 0

/-- The string is trimmed, and nothing behind its old terminator is touched. -/
theorem allTrim_eq {s : List UInt8} (h : 0 ∉ s) (rest : List UInt8) :
    ∃ junk, (trim s).length + junk.length = s.length ∧
      allTrim (s ++ 0 :: rest) = some (trim s ++ 0 :: (junk ++ rest)) := by
  rcases exists_spaces s with ⟨k, rfl⟩ | ⟨k, c, u, hc, rfl⟩
  · rw [trim_spaces fun c hc => List.eq_of_mem_replicate hc]
    have hlen : ([] : List UInt8).length + (List.replicate k (32 : UInt8) ++ [0]).tail.length =
        (List.replicate k (32 : UInt8)).length := by simp
    exact ⟨_, hlen, allTrim_replicate k rest⟩
  · have hu : 0 ∉ u := fun hmem => h (by simp [hmem])
    have hc₀ : c ≠ 0 := fun hzero => h (by simp [hzero])
    obtain ⟨junk, hlen, hresult⟩ := allTrim_text hc hc₀ hu k rest
    refine ⟨junk, ?_, ?_⟩
    · rw [trim_of_head hc, hlen, List.length_append, List.length_replicate]
    · rw [trim_of_head hc, List.append_assoc]
      exact hresult

theorem mem_of_mem_trim {s : List UInt8} {c : UInt8} (h : c ∈ trim s) : c ∈ s :=
  (List.dropWhile_sublist _).subset (( List.rdropWhile_prefix _ _).subset h)

/-- `AllTrim` strips the spaces around every string, writes nothing behind its terminator and has
nothing left to do in a second call. -/
theorem all_trim_strips (s rest : List UInt8) (h : 0 ∉ s) :
    ∃ sBuf, allTrim (s ++ 0 :: rest) = some sBuf ∧ cstring sBuf = trim s ∧
      sBuf.drop (s.length + 1) = rest ∧ allTrim sBuf = some sBuf ∧
      ((∀ c ∈ s, c = 32) → cstring sBuf = []) := by
  obtain ⟨junk, hlen, hresult⟩ := allTrim_eq h rest
  have htrim : 0 ∉ trim s := mt mem_of_mem_trim h
  have hstring : cstring (trim s ++ 0 :: (junk ++ rest)) = trim s := cstring_append htrim _
  refine ⟨_, hresult, hstring, ?_, ?_, ?_⟩
  · have hsplit : trim s ++ 0 :: (junk ++ rest) = trim s ++ 0 :: junk ++ rest := by simp
    rw [hsplit, List.drop_left' (by rw [List.length_append, List.length_cons]; omega)]
  · -- a trimmed string leaves no junk
    obtain ⟨junk', hlen', hresult'⟩ := allTrim_eq htrim (junk ++ rest)
    rw [trim_trim] at hlen' hresult'
    have hnil : junk' = [] := List.length_eq_zero_iff.mp (by omega)
    rwa [hnil, List.nil_append] at hresult'
  · intro hall
    rw [hstring, trim_spaces hall]

/-- Spaces on both sides, and one inside that stays. -/
theorem all_trim_strips_inner :
    ∃ sBuf, allTrim ([32, 32, 97, 32, 98, 32] ++ 0 :: [7]) = some sBuf ∧ cstring sBuf = [97, 32, 98] ∧
      sBuf.drop 7 = [7] := by
  obtain ⟨sBuf, hresult, hstring, hdrop, -⟩ := all_trim_strips [32, 32, 97, 32, 98, 32] [7] (by decide)
  exact ⟨sBuf, hresult, hstring.trans (by decide), hdrop⟩

end Tdm.Config
