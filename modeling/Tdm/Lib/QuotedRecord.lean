import Mathlib.Data.List.Basic
import Mathlib.Data.List.TakeWhile
import Mathlib.Algebra.Order.BigOperators.Group.List

/-!
# Records of quoted entries

A record is a header and behind it entries of a name and a value in quotes, as in
`header|{'name':'value','name':'value'}`. Nothing is escaped when it is written. What `read` makes of
a text is the record at its start exactly if there is one without quotes in its header, names and
values (`read_eq_some`), so records without quotes can be told apart also when they are written one
behind the other (`decode_eq_some`).
-/

namespace Tdm.Lib

universe u
variable {α : Type u}

/-! ## Writing -/

/-- What stands around the entries and in them. A text behind a value is not read as `closing` when
it is `comma`. -/
structure RecordFormat (α : Type u) where
  quote : α
  opening : List α
  colon : List α
  comma : List α
  closing : List α
  quote_notMem_opening : quote ∉ opening
  quote_notMem_closing : quote ∉ closing
  not_closing_prefix_comma : ¬ closing <+: comma

@[ext]
structure QuotedRecord (α : Type u) where
  header : List α
  entries : List (List α × List α)
  entries_ne_nil : entries ≠ []

namespace RecordFormat

variable (F : RecordFormat α)

/-- An entry and what follows it. -/
def entry (name value rest : List α) : List α :=
  F.quote :: (name ++ F.quote :: (F.colon ++ F.quote :: (value ++ F.quote :: rest)))

def renderEntries : List (List α × List α) → List α
  | [] => []
  | [(name, value)] => F.entry name value F.closing
  | (name, value) :: es => F.entry name value (F.comma ++ renderEntries es)

def render (r : QuotedRecord α) : List α := r.header ++ (F.opening ++ F.renderEntries r.entries)

/-- There are no quotes in the entries. -/
def PlainEntries (es : List (List α × List α)) : Prop := ∀ e ∈ es, F.quote ∉ e.1 ∧ F.quote ∉ e.2

/-- There are no quotes in the record. -/
def Plain (r : QuotedRecord α) : Prop := F.quote ∉ r.header ∧ F.PlainEntries r.entries

theorem renderEntries_cons {es : List (List α × List α)} (hes : es ≠ []) (name value : List α) :
    F.renderEntries ((name, value) :: es) = F.entry name value (F.comma ++ F.renderEntries es) := by
  cases es with
  | nil => exact absurd rfl hes
  | cons e es => rfl

theorem entry_append (name value rest tail : List α) :
    F.entry name value rest ++ tail = F.entry name value (rest ++ tail) := by
  simp only [entry, List.cons_append, List.append_assoc]

theorem length_entry (name value rest : List α) : rest.length < (F.entry name value rest).length := by
  simp only [entry, List.length_cons, List.length_append]
  omega

theorem length_le_length_renderEntries (es : List (List α × List α)) :
    es.length ≤ (F.renderEntries es).length := by
  induction es with
  | nil => exact Nat.le_refl 0
  | cons e es ih =>
    by_cases hes : es = []
    · subst hes
      have hlt := F.length_entry e.1 e.2 F.closing
      exact Nat.succ_le_of_lt (Nat.zero_lt_of_lt hlt)
    · have hlt := F.length_entry e.1 e.2 (F.comma ++ F.renderEntries es)
      rw [List.length_append] at hlt
      rw [F.renderEntries_cons hes, List.length_cons]
      omega

/-- An entry starts with a quote. -/
theorem exists_renderEntries {es : List (List α × List α)} (hes : es ≠ []) :
    ∃ t, F.renderEntries es = F.quote :: t := by
  cases es with
  | nil => exact absurd rfl hes
  | cons e es =>
    cases es with
    | nil => exact ⟨_, rfl⟩
    | cons e' es => exact ⟨_, rfl⟩

theorem render_ne_nil (r : QuotedRecord α) : F.render r ≠ [] := by
  obtain ⟨t, ht⟩ := F.exists_renderEntries r.entries_ne_nil
  simp [render, ht]

/-- What is in no part of a record is not in its text. -/
theorem notMem_render {c : α} (hquote : c ≠ F.quote)
    (hformat : ∀ s ∈ [F.opening, F.colon, F.comma, F.closing], c ∉ s) {r : QuotedRecord α}
    (hheader : c ∉ r.header) (hentries : ∀ e ∈ r.entries, c ∉ e.1 ∧ c ∉ e.2) : c ∉ F.render r := by
  simp only [List.forall_mem_cons] at hformat
  obtain ⟨hopening, hcolon, hcomma, hclosing, -⟩ := hformat
  have hentry : ∀ {name value rest : List α}, c ∉ name → c ∉ value → c ∉ rest →
      c ∉ F.entry name value rest := by
    intro name value rest hname hvalue hrest
    simp only [entry, List.mem_cons, List.mem_append, not_or]
    exact ⟨hquote, hname, hquote, hcolon, hquote, hvalue, hquote, hrest⟩
  have hrender : ∀ es : List (List α × List α), (∀ e ∈ es, c ∉ e.1 ∧ c ∉ e.2) →
      c ∉ F.renderEntries es := by
    intro es hes
    induction es with
    | nil => exact List.not_mem_nil
    | cons e es ih =>
      obtain ⟨⟨hname, hvalue⟩, hrest⟩ := List.forall_mem_cons.mp hes
      by_cases hnil : es = []
      · subst hnil
        exact hentry hname hvalue hclosing
      · rw [F.renderEntries_cons hnil]
        refine hentry hname hvalue ?_
        rw [List.mem_append, not_or]
        exact ⟨hcomma, ih hrest⟩
  rw [render, List.mem_append, List.mem_append, not_or, not_or]
  exact ⟨hheader, hopening, hrender r.entries hentries⟩

/-- What follows an entry that is not the last one does not start with `closing`. -/
theorem not_closing_prefix (rest : List α) : ¬ F.closing <+: F.comma ++ F.quote :: rest := by
  intro h
  rcases le_or_gt F.closing.length F.comma.length with hle | hlt
  · exact F.not_closing_prefix_comma
      (List.prefix_of_prefix_length_le h (List.prefix_append ..) hle)
  · -- a longer `closing` would hold the quote
    have hpre : F.comma ++ [F.quote] <+: F.closing := by
      refine List.prefix_of_prefix_length_le ?_ h (by simpa using Nat.succ_le_of_lt hlt)
      exact ⟨rest, by simp⟩
    exact F.quote_notMem_closing (hpre.subset (by simp))

/-! ## Reading -/

variable [DecidableEq α]

/-- The text in quotes at the start, and what is behind it. -/
def readQuoted : List α → Option (List α × List α)
  | [] => none
  | c :: s =>
    if c = F.quote then
      match s.dropWhile (· ≠ F.quote) with
      | [] => none
      | _ :: rest => some (s.takeWhile (· ≠ F.quote), rest)
    else none

/-- The entries up to `closing`, and what is behind it. -/
def readEntries : ℕ → List α → Option (List (List α × List α) × List α)
  | 0, _ => none
  | fuel + 1, s => do
    let (name, s) ← F.readQuoted s
    let s ← s.dropPrefix? F.colon
    let (value, s) ← F.readQuoted s
    match s.dropPrefix? F.closing with
    | some rest => return ([(name, value)], rest)
    | none =>
      let s ← s.dropPrefix? F.comma
      let (es, rest) ← readEntries fuel s
      return ((name, value) :: es, rest)

/-- The record at the start, and what is behind it. -/
def read (s : List α) : Option (QuotedRecord α × List α) := do
  let header ← (s.takeWhile (· ≠ F.quote)).dropSuffix? F.opening
  let (es, rest) ← F.readEntries s.length (s.dropWhile (· ≠ F.quote))
  if hes : es ≠ [] then return (⟨header, es, hes⟩, rest) else none

/-- The records a text consists of, at most `fuel` of them. -/
def readAll : ℕ → List α → Option (List (QuotedRecord α))
  | 0, s => if s = [] then some [] else none
  | fuel + 1, s =>
    if s = [] then some []
    else do
      let (r, s) ← F.read s
      let rs ← readAll fuel s
      return r :: rs

def decode (s : List α) : Option (List (QuotedRecord α)) := F.readAll s.length s

/-! ## What is read is what was written -/

theorem dropPrefix?_eq_some {l p s : List α} : l.dropPrefix? p = some s ↔ l = p ++ s := by
  rw [List.dropPrefix?_eq_some_iff]
  constructor
  · rintro ⟨p', rfl, hp⟩
    rw [eq_of_beq hp]
  · rintro rfl
    exact ⟨p, rfl, beq_self_eq_true p⟩

theorem dropSuffix?_eq_some {l p s : List α} : l.dropSuffix? s = some p ↔ l = p ++ s := by
  rw [List.dropSuffix?_eq_some_iff]
  constructor
  · rintro ⟨s', rfl, hs⟩
    rw [eq_of_beq hs]
  · rintro rfl
    exact ⟨s, rfl, beq_self_eq_true s⟩

/-- A text up to the first quote. -/
theorem takeWhile_append_quote {q : α} {v : List α} (hv : q ∉ v) (rest : List α) :
    (v ++ q :: rest).takeWhile (· ≠ q) = v ∧ (v ++ q :: rest).dropWhile (· ≠ q) = q :: rest := by
  have hall : ∀ c ∈ v, decide (c ≠ q) = true := by
    intro c hc
    exact decide_eq_true fun h => hv (h ▸ hc)
  constructor
  · rw [List.takeWhile_append_of_pos hall, List.takeWhile_cons_of_neg (by simp), List.append_nil]
  · rw [List.dropWhile_append_of_pos hall, List.dropWhile_cons_of_neg (by simp)]

theorem notMem_takeWhile_ne (q : α) (s : List α) : q ∉ s.takeWhile (· ≠ q) := by
  intro hq
  have hne := List.mem_takeWhile_imp hq
  simp at hne

/-- What a text is cut into at its first quote. -/
theorem eq_takeWhile_append_quote {q c : α} {s rest : List α}
    (h : s.dropWhile (· ≠ q) = c :: rest) : s = s.takeWhile (· ≠ q) ++ q :: rest := by
  have hhead := List.head?_dropWhile_not (fun c => decide (c ≠ q)) s
  rw [h, List.head?_cons] at hhead
  have hc : c = q := by simpa using hhead
  subst hc
  rw [← h]
  exact List.takeWhile_append_dropWhile.symm

theorem readQuoted_eq_some {s v rest : List α} :
    F.readQuoted s = some (v, rest) ↔ F.quote ∉ v ∧ s = F.quote :: (v ++ F.quote :: rest) := by
  constructor
  · intro h
    cases s with
    | nil => cases h
    | cons c s =>
      rw [readQuoted] at h
      split at h
      case isFalse => cases h
      case isTrue hc =>
        split at h
        case h_1 => cases h
        case h_2 c' rest' hdrop =>
          cases h
          exact ⟨notMem_takeWhile_ne F.quote s, by rw [hc, ← eq_takeWhile_append_quote hdrop]⟩
  · rintro ⟨hv, rfl⟩
    obtain ⟨htake, hdrop⟩ := takeWhile_append_quote hv rest
    simp only [readQuoted, if_true, hdrop, htake]

theorem readEntries_eq_some {fuel : ℕ} {s rest : List α} {es : List (List α × List α)} :
    F.readEntries fuel s = some (es, rest) ↔
      es.length ≤ fuel ∧ es ≠ [] ∧ F.PlainEntries es ∧ s = F.renderEntries es ++ rest := by
  induction fuel generalizing s es with
  | zero =>
    constructor
    · intro h
      cases h
    · rintro ⟨hlen, hne, -, -⟩
      exact absurd (List.eq_nil_of_length_eq_zero (Nat.le_zero.mp hlen)) hne
  | succ fuel ih =>
    constructor
    · intro h
      obtain ⟨⟨name, s₁⟩, hname, h₁⟩ := Option.bind_eq_some_iff.mp h
      obtain ⟨s₂, hcolon, h₂⟩ := Option.bind_eq_some_iff.mp h₁
      obtain ⟨⟨value, s₃⟩, hvalue, h₃⟩ := Option.bind_eq_some_iff.mp h₂
      obtain ⟨hplain, rfl⟩ := F.readQuoted_eq_some.mp hname
      obtain rfl := dropPrefix?_eq_some.mp hcolon
      obtain ⟨hplain', rfl⟩ := F.readQuoted_eq_some.mp hvalue
      dsimp only at h₃
      split at h₃
      case h_1 rest' hclosing =>
        obtain ⟨rfl, rfl⟩ := Prod.mk.inj (Option.some.inj h₃)
        obtain rfl := dropPrefix?_eq_some.mp hclosing
        refine ⟨Nat.succ_le_succ (Nat.zero_le _), List.cons_ne_nil _ _, ?_, ?_⟩
        · exact List.forall_mem_singleton.mpr ⟨hplain, hplain'⟩
        · exact (F.entry_append ..).symm
      case h_2 =>
        obtain ⟨s₄, hcomma, h₄⟩ := Option.bind_eq_some_iff.mp h₃
        obtain ⟨⟨es', rest'⟩, hrec, h₅⟩ := Option.bind_eq_some_iff.mp h₄
        obtain ⟨rfl, rfl⟩ := Prod.mk.inj (Option.some.inj h₅)
        obtain rfl := dropPrefix?_eq_some.mp hcomma
        obtain ⟨hlen, hne, hall, rfl⟩ := ih.mp hrec
        refine ⟨Nat.succ_le_succ hlen, List.cons_ne_nil _ _, ?_, ?_⟩
        · exact List.forall_mem_cons.mpr ⟨⟨hplain, hplain'⟩, hall⟩
        · rw [F.renderEntries_cons hne, F.entry_append, List.append_assoc]
          rfl
    · rintro ⟨hlen, hne, hall, rfl⟩
      cases es with
      | nil => exact absurd rfl hne
      | cons e es =>
        obtain ⟨name, value⟩ := e
        obtain ⟨⟨hname, hvalue⟩, hall⟩ := List.forall_mem_cons.mp hall
        -- the entry is read, whatever follows
        have hentry : ∀ t, F.readEntries (fuel + 1) (F.entry name value t) =
            match t.dropPrefix? F.closing with
            | some rest => some ([(name, value)], rest)
            | none => (t.dropPrefix? F.comma).bind fun s =>
              (F.readEntries fuel s).bind fun r => some ((name, value) :: r.1, r.2) := by
          intro t
          have hfirst := F.readQuoted_eq_some.mpr ⟨hname,
            (rfl : F.entry name value t = _)⟩
          have hcolon := dropPrefix?_eq_some.mpr
            (rfl : F.colon ++ F.quote :: (value ++ F.quote :: t) = _)
          have hsecond := F.readQuoted_eq_some.mpr ⟨hvalue,
            (rfl : F.quote :: (value ++ F.quote :: t) = _)⟩
          rw [readEntries, hfirst]
          simp only [Option.bind_eq_bind, Option.bind_some, hcolon, hsecond]
          rfl
        by_cases hes : es = []
        · subst hes
          rw [renderEntries, F.entry_append, hentry, dropPrefix?_eq_some.mpr rfl]
        · have hclosing : (F.comma ++ (F.renderEntries es ++ rest)).dropPrefix? F.closing = none := by
            obtain ⟨t, ht⟩ := F.exists_renderEntries hes
            rw [Option.eq_none_iff_forall_ne_some]
            intro s hs
            apply F.not_closing_prefix (t ++ rest)
            rw [ht] at hs
            exact ⟨s, (dropPrefix?_eq_some.mp hs).symm⟩
          have hrec := ih.mpr ⟨Nat.le_of_succ_le_succ hlen, hes, hall, rfl⟩
          rw [F.renderEntries_cons hes, F.entry_append, hentry, List.append_assoc, hclosing,
            dropPrefix?_eq_some.mpr rfl]
          simp only [Option.bind_some, hrec]

theorem read_eq_some {s rest : List α} {r : QuotedRecord α} :
    F.read s = some (r, rest) ↔ F.Plain r ∧ s = F.render r ++ rest := by
  constructor
  · intro h
    obtain ⟨header, hheader, h⟩ := Option.bind_eq_some_iff.mp h
    obtain ⟨⟨es, rest'⟩, hentries, h⟩ := Option.bind_eq_some_iff.mp h
    dsimp only at h
    split at h
    case isFalse => cases h
    case isTrue hes =>
      obtain ⟨rfl, rfl⟩ := Prod.mk.inj (Option.some.inj h)
      obtain ⟨-, -, hall, hs⟩ := F.readEntries_eq_some.mp hentries
      have hfront := dropSuffix?_eq_some.mp hheader
      refine ⟨⟨?_, hall⟩, ?_⟩
      · intro hq
        apply notMem_takeWhile_ne F.quote s
        rw [hfront]
        exact List.mem_append_left _ hq
      · rw [render, List.append_assoc, List.append_assoc, ← hs, ← List.append_assoc, ← hfront]
        exact List.takeWhile_append_dropWhile.symm
  · rintro ⟨⟨hheader, hall⟩, rfl⟩
    obtain ⟨t, ht⟩ := F.exists_renderEntries r.entries_ne_nil
    have hfront : F.quote ∉ r.header ++ F.opening := by
      rw [List.mem_append]
      exact not_or_intro hheader F.quote_notMem_opening
    have hsplit : F.render r ++ rest = (r.header ++ F.opening) ++ F.quote :: (t ++ rest) := by
      rw [render, ht]
      simp only [List.append_assoc, List.cons_append]
    obtain ⟨htake, hdrop⟩ := takeWhile_append_quote hfront (t ++ rest)
    have hlen : r.entries.length ≤ (F.render r ++ rest).length := by
      have hle := F.length_le_length_renderEntries r.entries
      simp only [render, List.length_append]
      omega
    have hentries := F.readEntries_eq_some.mpr
      ⟨hlen, r.entries_ne_nil, hall, (rfl : F.renderEntries r.entries ++ rest = _)⟩
    rw [ht, List.cons_append] at hentries
    rw [read, hsplit, htake, hdrop, dropSuffix?_eq_some.mpr rfl, ← hsplit]
    simp only [Option.bind_eq_bind, Option.bind_some, hentries]
    exact dif_pos r.entries_ne_nil

theorem readAll_eq_some {fuel : ℕ} {s : List α} {rs : List (QuotedRecord α)} :
    F.readAll fuel s = some rs ↔
      rs.length ≤ fuel ∧ (∀ r ∈ rs, F.Plain r) ∧ s = rs.flatMap F.render := by
  induction fuel generalizing s rs with
  | zero =>
    rw [readAll, Nat.le_zero, List.length_eq_zero_iff]
    constructor
    · intro h
      split at h
      case isTrue hs =>
        obtain rfl := Option.some.inj h
        exact ⟨rfl, List.forall_mem_nil _, hs⟩
      case isFalse => cases h
    · rintro ⟨rfl, -, rfl⟩
      rfl
  | succ fuel ih =>
    constructor
    · intro h
      rw [readAll] at h
      split at h
      case isTrue hs =>
        obtain rfl := Option.some.inj h
        exact ⟨Nat.zero_le _, List.forall_mem_nil _, hs⟩
      case isFalse =>
        obtain ⟨⟨r, s'⟩, hread, h⟩ := Option.bind_eq_some_iff.mp h
        obtain ⟨rs', hrec, h⟩ := Option.bind_eq_some_iff.mp h
        obtain rfl := Option.some.inj h
        obtain ⟨hplain, rfl⟩ := F.read_eq_some.mp hread
        obtain ⟨hlen, hall, rfl⟩ := ih.mp hrec
        exact ⟨Nat.succ_le_succ hlen, List.forall_mem_cons.mpr ⟨hplain, hall⟩, rfl⟩
    · rintro ⟨hlen, hall, rfl⟩
      cases rs with
      | nil => rfl
      | cons r rs =>
        obtain ⟨hplain, hall⟩ := List.forall_mem_cons.mp hall
        have hread := F.read_eq_some.mpr ⟨hplain, (rfl : F.render r ++ rs.flatMap F.render = _)⟩
        have hrec := ih.mpr ⟨Nat.le_of_succ_le_succ hlen, hall, rfl⟩
        have hne : (r :: rs).flatMap F.render ≠ [] := by
          rw [List.flatMap_cons]
          exact List.append_ne_nil_of_left_ne_nil (F.render_ne_nil r) _
        rw [readAll, if_neg hne, List.flatMap_cons, hread]
        simp only [Option.bind_eq_bind, Option.bind_some, hrec]
        rfl

/-- A text is read as the records it consists of, if they are without quotes. -/
theorem decode_eq_some {s : List α} {rs : List (QuotedRecord α)} :
    F.decode s = some rs ↔ (∀ r ∈ rs, F.Plain r) ∧ s = rs.flatMap F.render := by
  rw [decode, readAll_eq_some, and_iff_right_of_imp]
  rintro ⟨-, rfl⟩
  rw [List.length_flatMap]
  refine (List.length_map (fun r => (F.render r).length)).symm.trans_le ?_
  refine List.length_le_sum_of_one_le _ fun n hn => ?_
  obtain ⟨r, -, rfl⟩ := List.mem_map.mp hn
  exact List.length_pos_iff.mpr (F.render_ne_nil r)

/-- Records that were written one behind the other are read again if they are without quotes. -/
theorem decode_flatMap {rs : List (QuotedRecord α)} :
    F.decode (rs.flatMap F.render) = some rs ↔ ∀ r ∈ rs, F.Plain r := by
  rw [decode_eq_some, and_iff_left rfl]

end RecordFormat

end Tdm.Lib
