import Mathlib.Data.List.Basic
import Mathlib.Data.List.TakeWhile

/-!
# Searching and cutting C strings

A string is the list of its bytes without the terminator, a pointer into it the rest of
the string from there on. `strtok_r` is called with one delimiter throughout: it skips
delimiters, cuts the string at the next one and remembers what is behind it.
-/

namespace Tdm.Lib

/-- `strstr(s, key)`. -/
def strstr (key : List UInt8) : List UInt8 → Option (List UInt8)
  | [] => if key = [] then some [] else none
  | c :: s => if key.isPrefixOf (c :: s) then some (c :: s) else strstr key s

/-- `strtok_r(s, d, &rest)`: the token and the new `rest`. -/
def strtok (d : UInt8) (s : List UInt8) : Option (List UInt8 × List UInt8) :=
  match s.dropWhile (· == d) with
  | [] => none
  | t => some (t.takeWhile (· != d), (t.dropWhile (· != d)).drop 1)

/-- `while((p = strtok_r(..)) != NULL)` for at most `fuel` rounds. -/
def strtokLoop (d : UInt8) : ℕ → List UInt8 → List (List UInt8)
  | 0, _ => []
  | fuel + 1, s =>
    match strtok d s with
    | none => []
    | some (token, rest) => token :: strtokLoop d fuel rest

/-- All tokens of a string. Every round of the loop uses up a byte at least. -/
def tokens (d : UInt8) (s : List UInt8) : List (List UInt8) := strtokLoop d s.length s

/-! ## Up to a character -/

/-- A character is looked for behind a text that does not hold it. -/
theorem takeWhile_ne {d : UInt8} {x : List UInt8} (h : d ∉ x) (y : List UInt8) :
    (x ++ y).takeWhile (· ≠ d) = x ++ y.takeWhile (· ≠ d) := by
  refine List.takeWhile_append_of_pos fun c hc => decide_eq_true ?_
  rintro rfl
  exact h hc

theorem takeWhile_ne_self {d : UInt8} {x : List UInt8} (h : d ∉ x) : x.takeWhile (· ≠ d) = x := by
  have hall := takeWhile_ne h []
  rwa [List.takeWhile_nil, List.append_nil] at hall

/-! ## What is found is part of the string -/

theorem suffix_of_strstr {key s p : List UInt8} (h : strstr key s = some p) : p <:+ s := by
  induction s with
  | nil =>
    unfold strstr at h
    split at h
    · cases h
      exact List.suffix_rfl
    · cases h
  | cons c s ih =>
    unfold strstr at h
    split at h
    · cases h
      exact List.suffix_rfl
    · exact (ih h).trans (List.suffix_cons c s)

/-- A key is found exactly when it stands somewhere in the string. -/
theorem isSome_strstr {key s : List UInt8} : (strstr key s).isSome = true ↔ key <:+: s := by
  induction s with
  | nil =>
    unfold strstr
    split <;> simp_all
  | cons c s ih =>
    unfold strstr
    rw [List.infix_cons_iff, ← List.isPrefixOf_iff_prefix]
    split
    · rename_i h
      simp [h]
    · rename_i h
      rw [ih, or_iff_right h]

/-- The key stands where it is found. -/
theorem prefix_of_strstr {key s p : List UInt8} (h : strstr key s = some p) : key <+: p := by
  induction s with
  | nil =>
    rw [strstr] at h
    split at h
    · rename_i hnil
      rw [hnil]
      exact List.nil_prefix
    · cases h
  | cons c s ih =>
    rw [strstr] at h
    split at h
    · rename_i hprefix
      obtain rfl := Option.some.inj h
      exact List.isPrefixOf_iff_prefix.mp hprefix
    · exact ih h

theorem mem_of_mem_strtok {d : UInt8} {s token rest : List UInt8}
    (h : strtok d s = some (token, rest)) {c : UInt8} (hc : c ∈ token) : c ∈ s := by
  unfold strtok at h
  split at h
  · cases h
  · cases h
    apply (List.dropWhile_suffix (· == d)).mem
    exact (List.takeWhile_prefix _).mem hc

theorem length_of_mem_strtok {d : UInt8} {s token rest : List UInt8}
    (h : strtok d s = some (token, rest)) : token.length ≤ s.length := by
  unfold strtok at h
  split at h
  · cases h
  · cases h
    exact (List.takeWhile_prefix _).length_le.trans (List.dropWhile_suffix _).length_le

/-! ## The number of tokens -/

/-- A token takes a byte, and a delimiter stands between it and what is behind it. -/
theorem length_rest_of_strtok {d : UInt8} {s token rest : List UInt8}
    (h : strtok d s = some (token, rest)) :
    rest.length + 2 ≤ s.length ∨ (rest = [] ∧ 1 ≤ s.length) := by
  unfold strtok at h
  split at h
  · cases h
  · rename_i t hne
    cases h
    have hle : (s.dropWhile (· == d)).length ≤ s.length := (List.dropWhile_suffix _).length_le
    obtain ⟨c, t, ht⟩ : ∃ c t, s.dropWhile (· == d) = c :: t := by
      cases hs : s.dropWhile (· == d) with
      | nil => exact absurd hs hne
      | cons c t => exact ⟨c, t, rfl⟩
    have hc : (c == d) = false := by
      have hne : s.dropWhile (· == d) ≠ [] := by
        rw [ht]
        exact List.cons_ne_nil c t
      have hhead := List.head_dropWhile_not (· == d) hne
      simpa only [ht, List.head_cons] using hhead
    have hdrop : ((c :: t).dropWhile (· != d)).length ≤ t.length := by
      rw [List.dropWhile_cons_of_pos (by simp [bne, hc])]
      exact (List.dropWhile_suffix _).length_le
    rw [ht, List.length_cons] at hle
    rw [ht, List.length_drop]
    cases hr : (c :: t).dropWhile (· != d) with
    | nil => exact .inr ⟨rfl, by omega⟩
    | cons e r =>
      rw [hr, List.length_cons] at hdrop
      left
      rw [List.length_cons]
      omega

theorem length_strtokLoop (d : UInt8) (fuel : ℕ) (s : List UInt8) :
    2 * (strtokLoop d fuel s).length ≤ s.length + 1 := by
  induction fuel generalizing s with
  | zero => exact Nat.zero_le _
  | succ fuel ih =>
    unfold strtokLoop
    split
    · exact Nat.zero_le _
    · rename_i token rest h
      have hrest := ih rest
      rw [List.length_cons]
      rcases length_rest_of_strtok h with hlen | ⟨rfl, hlen⟩
      · omega
      · rw [List.length_nil] at hrest
        omega

/-! ## Texts put together from tokens -/

theorem strtok_delim (d : UInt8) (s : List UInt8) : strtok d (d :: s) = strtok d s := by
  unfold strtok
  rw [List.dropWhile_cons_of_pos (by simp)]

section Tokens
variable {d : UInt8} {t : List UInt8} (ht : t ≠ []) (hd : d ∉ t)
include ht hd

/-- A text without delimiters is a token up to the next delimiter. -/
theorem strtok_append (rest : List UInt8) : strtok d (t ++ d :: rest) = some (t, rest) := by
  obtain ⟨c, t', rfl⟩ := List.exists_cons_of_ne_nil ht
  have hc : c ≠ d := fun h => hd (h ▸ List.mem_cons_self ..)
  have hall : ∀ x ∈ c :: t', (x != d) = true := by
    intro x hx
    rw [bne_iff_ne]
    exact fun h => hd (h ▸ hx)
  have hskip : (c :: t' ++ d :: rest).dropWhile (· == d) = c :: t' ++ d :: rest := by
    rw [List.cons_append, List.dropWhile_cons_of_neg (by simp [hc])]
  unfold strtok
  rw [hskip, List.cons_append]
  simp only
  rw [← List.cons_append, List.takeWhile_append_of_pos hall, List.dropWhile_append_of_pos hall]
  simp

theorem strtok_last : strtok d t = some (t, []) := by
  obtain ⟨c, t', rfl⟩ := List.exists_cons_of_ne_nil ht
  have hc : c ≠ d := fun h => hd (h ▸ List.mem_cons_self ..)
  have hall : ∀ x ∈ c :: t', (x != d) = true := by
    intro x hx
    rw [bne_iff_ne]
    exact fun h => hd (h ▸ hx)
  unfold strtok
  rw [List.dropWhile_cons_of_neg (by simp [hc])]
  simp only
  rw [List.takeWhile_eq_self_iff.mpr hall, List.dropWhile_eq_nil_iff.mpr hall]
  rfl

end Tokens

theorem intercalate_cons_cons (d : UInt8) (t u : List UInt8) (us : List (List UInt8)) :
    [d].intercalate (t :: u :: us) = t ++ d :: [d].intercalate (u :: us) := by
  simp [List.intercalate]

theorem intercalate_head_cons (d c : UInt8) (t : List UInt8) (us : List (List UInt8)) :
    [d].intercalate ((c :: t) :: us) = c :: [d].intercalate (t :: us) := by
  cases us with
  | nil => rw [List.intercalate_singleton, List.intercalate_singleton]
  | cons u us => rw [intercalate_cons_cons, intercalate_cons_cons, List.cons_append]

/-- A byte of a text put together with delimiters is one of a part or the delimiter. -/
theorem notMem_intercalate {c d : UInt8} (hcd : c ≠ d) {ts : List (List UInt8)}
    (hts : ∀ t ∈ ts, c ∉ t) : c ∉ [d].intercalate ts := by
  induction ts with
  | nil => simp [List.intercalate]
  | cons t ts ih =>
    have ht := hts t (List.mem_cons_self ..)
    have hrest := ih fun u hu => hts u (List.mem_cons_of_mem _ hu)
    cases ts with
    | nil => rwa [List.intercalate_singleton]
    | cons u us =>
      rw [intercalate_cons_cons, List.mem_append, List.mem_cons]
      rintro (h | h | h)
      · exact ht h
      · exact hcd h
      · exact hrest h

theorem strtokLoop_intercalate {d : UInt8} {ts : List (List UInt8)}
    (hts : ∀ t ∈ ts, t ≠ [] ∧ d ∉ t) {fuel : ℕ} (hfuel : ts.length ≤ fuel) :
    strtokLoop d fuel ([d].intercalate ts) = ts := by
  induction ts generalizing fuel with
  | nil =>
    cases fuel with
    | zero => rfl
    | succ fuel => rfl
  | cons t ts ih =>
    obtain ⟨fuel, rfl⟩ : ∃ k, fuel = k + 1 := ⟨fuel - 1, by rw [List.length_cons] at hfuel; omega⟩
    rw [List.length_cons] at hfuel
    obtain ⟨hne, hd⟩ := hts t (List.mem_cons_self ..)
    have hrest := ih (fun x hx => hts x (List.mem_cons_of_mem _ hx)) (Nat.le_of_succ_le_succ hfuel)
    cases ts with
    | nil =>
      rw [List.intercalate_singleton, strtokLoop, strtok_last hne hd]
      cases fuel <;> rfl
    | cons u us =>
      rw [intercalate_cons_cons, strtokLoop, strtok_append hne hd]
      simp only [hrest]

/-- The tokens of a text that was put together from them. -/
theorem tokens_intercalate {d : UInt8} {ts : List (List UInt8)}
    (hts : ∀ t ∈ ts, t ≠ [] ∧ d ∉ t) : tokens d ([d].intercalate ts) = ts := by
  apply strtokLoop_intercalate hts
  induction ts with
  | nil => exact Nat.zero_le _
  | cons t ts ih =>
    have hlen := ih fun x hx => hts x (List.mem_cons_of_mem _ hx)
    have hpos := List.length_pos_of_ne_nil (hts t (List.mem_cons_self ..)).1
    cases ts with
    | nil =>
      simp only [List.intercalate, List.intersperse, List.flatten_cons, List.flatten_nil,
        List.append_nil, List.length_cons, List.length_nil]
      omega
    | cons u us =>
      rw [intercalate_cons_cons]
      simp only [List.length_append, List.length_cons] at hlen ⊢
      omega

/-! ## Searching texts put together from pieces -/

/-- The pieces from the first one on that contains `key`, this one from `key` on. -/
def seek (key : List UInt8) : List (List UInt8) → Option (List (List UInt8))
  | [] => none
  | piece :: rest =>
    match strstr key piece with
    | some p => some (p :: rest)
    | none => seek key rest

theorem strstr_cons (key : List UInt8) (c : UInt8) (s : List UInt8) :
    strstr key (c :: s) = if key.isPrefixOf (c :: s) then some (c :: s) else strstr key s :=
  rfl

theorem strstr_self (key : List UInt8) : strstr key key = some key := by
  cases key with
  | nil => rfl
  | cons c s =>
    unfold strstr
    rw [if_pos (List.isPrefixOf_iff_prefix.mpr List.prefix_rfl)]

theorem strstr_eq_none {key s : List UInt8} : strstr key s = none ↔ ¬ key <:+: s := by
  rw [← isSome_strstr, Option.not_isSome_iff_eq_none]

section Pieces
variable {d : UInt8} {key : List UInt8}

/-- A key without delimiters stands before a delimiter or behind it, never across it. -/
theorem prefix_append_delim (hkey : d ∉ key) (s t : List UInt8) :
    key <+: s ++ d :: t ↔ key <+: s := by
  constructor
  · intro h
    rcases Nat.lt_or_ge s.length key.length with hlt | hle
    · -- the key would reach over the delimiter
      have hcut : s ++ [d] <+: key := by
        have htext : s ++ [d] <+: s ++ d :: t :=
          ⟨t, by rw [List.append_assoc, List.singleton_append]⟩
        apply List.prefix_of_prefix_length_le htext h
        rw [List.length_append, List.length_singleton]
        omega
      exact absurd (hcut.mem (List.mem_append_right s (List.mem_singleton_self d))) hkey
    · exact List.prefix_of_prefix_length_le h (List.prefix_append s _) hle
  · intro h
    exact h.trans (List.prefix_append s _)

variable (hne : key ≠ []) (hkey : d ∉ key)
include hne hkey

theorem strstr_append_delim (s t : List UInt8) :
    strstr key (s ++ d :: t) =
      match strstr key s with
      | some p => some (p ++ d :: t)
      | none => strstr key t := by
  have hprefix (s : List UInt8) : key.isPrefixOf (s ++ d :: t) = key.isPrefixOf s := by
    rw [Bool.eq_iff_iff, List.isPrefixOf_iff_prefix, List.isPrefixOf_iff_prefix]
    exact prefix_append_delim hkey s t
  induction s with
  | nil =>
    have hnil : key.isPrefixOf (d :: t) = false := by
      rw [← List.nil_append (d :: t), hprefix]
      cases key with
      | nil => exact absurd rfl hne
      | cons c key => rfl
    simp [strstr, hnil, hne]
  | cons c s ih =>
    rw [List.cons_append, strstr_cons, ← List.cons_append, hprefix (c :: s), ih, strstr_cons]
    split
    · rfl
    · rfl

/-- A search in the whole text is a search piece by piece. -/
theorem strstr_intercalate (pieces : List (List UInt8)) :
    strstr key ([d].intercalate pieces) = (seek key pieces).map [d].intercalate := by
  induction pieces with
  | nil => simp [List.intercalate, strstr, seek, hne]
  | cons s rest ih =>
    cases rest with
    | nil =>
      rw [List.intercalate_singleton]
      unfold seek
      split
      · rename_i p hp
        rw [hp, Option.map_some, List.intercalate_singleton]
      · rename_i hp
        rw [hp]
        rfl
    | cons u us =>
      rw [intercalate_cons_cons, strstr_append_delim hne hkey, ih]
      unfold seek
      cases strstr key s with
      | none => rfl
      | some p => exact congrArg some (intercalate_cons_cons d p u us).symm

end Pieces

/-- The pieces found are made of bytes of those searched. -/
theorem notMem_of_mem_seek {d : UInt8} {key : List UInt8} {pieces found : List (List UInt8)}
    (hd : ∀ s ∈ pieces, d ∉ s) (h : seek key pieces = some found) : ∀ s ∈ found, d ∉ s := by
  induction pieces with
  | nil => cases h
  | cons s rest ih =>
    rw [seek] at h
    split at h
    · rename_i p hp
      cases h
      intro t ht
      rcases List.mem_cons.mp ht with rfl | ht
      · intro hmem
        exact hd s (List.mem_cons_self ..) ((suffix_of_strstr hp).mem hmem)
      · exact hd t (List.mem_cons_of_mem _ ht)
    · exact ih (fun t ht => hd t (List.mem_cons_of_mem _ ht)) h

/-- What is found is found in some piece. -/
theorem ne_nil_of_seek {key : List UInt8} {pieces found : List (List UInt8)}
    (h : seek key pieces = some found) : ∃ p rest, found = p :: rest := by
  induction pieces with
  | nil => cases h
  | cons s rest ih =>
    rw [seek] at h
    split at h
    · cases h
      exact ⟨_, _, rfl⟩
    · exact ih h

theorem prefix_of_seek {key p : List UInt8} {pieces rest : List (List UInt8)}
    (h : seek key pieces = some (p :: rest)) : key <+: p := by
  induction pieces with
  | nil => cases h
  | cons s pieces ih =>
    rw [seek] at h
    split at h
    · rename_i q hq
      obtain ⟨rfl, -⟩ := List.cons.inj (Option.some.inj h)
      exact prefix_of_strstr hq
    · exact ih h

/-- Pieces without the key are passed over. -/
theorem seek_append {key : List UInt8} {pieces : List (List UInt8)}
    (h : ∀ s ∈ pieces, ¬ key <:+: s) (rest : List (List UInt8)) :
    seek key (pieces ++ rest) = seek key rest := by
  induction pieces with
  | nil => rfl
  | cons s pieces ih =>
    rw [List.cons_append, seek, strstr_eq_none.mpr (h s (List.mem_cons_self ..))]
    exact ih fun t ht => h t (List.mem_cons_of_mem _ ht)

/-- The delimiter itself is found behind the first piece, if there is another one. -/
theorem strstr_delim {d : UInt8} {s : List UInt8} (hd : d ∉ s) (t : List UInt8) :
    strstr [d] (s ++ d :: t) = some (d :: t) := by
  induction s with
  | nil => simp [strstr]
  | cons c s ih =>
    have hc : c ≠ d := fun h => hd (h ▸ List.mem_cons_self ..)
    rw [List.cons_append, strstr, if_neg (by simp [hc.symm])]
    exact ih fun h => hd (List.mem_cons_of_mem _ h)

theorem strstr_delim_of_notMem {d : UInt8} {s : List UInt8} (hd : d ∉ s) :
    strstr [d] s = none := by
  rw [strstr_eq_none]
  intro h
  exact hd (h.mem (List.mem_singleton_self d))

/-- Behind a first token, the rest of a text follows its first delimiter. -/
theorem strtok_eq_strstr {d : UInt8} {s : List UInt8} (hne : s ≠ []) (hhead : s.head? ≠ some d) :
    ∃ token, strtok d s = some (token, (strstr [d] s).elim [] List.tail) := by
  by_cases hd : d ∈ s
  · obtain ⟨t, rest, rfl, ht⟩ := List.eq_append_cons_of_mem hd
    have htoken : t ≠ [] := by
      rintro rfl
      exact hhead rfl
    exact ⟨t, by rw [strtok_append htoken ht, strstr_delim ht]; rfl⟩
  · exact ⟨s, by rw [strtok_last hne hd, strstr_delim_of_notMem hd]; rfl⟩

/-- The first token is the first piece that is not empty. -/
theorem strtok_intercalate {d : UInt8} {pieces : List (List UInt8)}
    (hd : ∀ s ∈ pieces, d ∉ s) :
    (strtok d ([d].intercalate pieces)).map Prod.fst = pieces.find? (· ≠ []) := by
  induction pieces with
  | nil => rfl
  | cons s rest ih =>
    have hrest := ih fun t ht => hd t (List.mem_cons_of_mem _ ht)
    have hs := hd s (List.mem_cons_self ..)
    rw [List.find?_cons]
    rcases eq_or_ne s [] with rfl | hne
    · rw [show decide (([] : List UInt8) ≠ []) = false from rfl, ← hrest]
      cases rest with
      | nil => rfl
      | cons u us => rw [intercalate_cons_cons, List.nil_append, strtok_delim]
    · rw [decide_eq_true hne]
      cases rest with
      | nil =>
        rw [List.intercalate_singleton, strtok_last hne hs]
        rfl
      | cons u us =>
        rw [intercalate_cons_cons, strtok_append hne hs]
        rfl

end Tdm.Lib
