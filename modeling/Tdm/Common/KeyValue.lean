import Tdm.Common.Deal

/-!
# Looking up a field

A deal is a flat object: keys and values in quotes, a colon between them, commas between
the fields. `Get_Key_Value` does not parse it. It looks for the first place where the key
stands, for the next colon from there on, and takes the first text in quotes behind it that
is not empty. Here the object is cut at its quotes, and the search becomes a search through
the texts between them.
-/

namespace Tdm.Common

open Tdm.Lib

/-- `Get_Key_Value` into `Dst[len]`, which is cleared first: the result and `Dst`. -/
def getKeyValueInto (src key : List UInt8) (len : ℕ) : Option (ℤ × CArray len) := do
  match ← getKeyValue src key with
  | .error code => return (code, .zero len)
  | .ok value => return (0, ← (CArray.zero len).memcpy value)

/-! ## Flat objects -/

/-- What may stand between quotes. -/
def Quotable (s : List UInt8) : Prop := 34 ∉ s ∧ 0 ∉ s

instance (s : List UInt8) : Decidable (Quotable s) :=
  inferInstanceAs (Decidable (34 ∉ s ∧ 0 ∉ s))

def renderField (field : List UInt8 × List UInt8) : List UInt8 :=
  text "\"" ++ field.1 ++ text "\":\"" ++ field.2 ++ text "\""

def renderFields (fields : List (List UInt8 × List UInt8)) : List UInt8 :=
  (text ",").intercalate (fields.map renderField)

/-- A flat object that fits the copy `Get_Key_Value` searches. -/
structure FlatObject where
  fields : List (List UInt8 × List UInt8)
  distinct : (fields.map Prod.fst).Nodup
  key_ne_nil : ∀ f ∈ fields, f.1 ≠ []
  quotable : ∀ f ∈ fields, Quotable f.1 ∧ Quotable f.2
  short : (renderFields fields).length < 512

namespace FlatObject

def render (o : FlatObject) : List UInt8 := renderFields o.fields

def keys (o : FlatObject) : List (List UInt8) := o.fields.map Prod.fst

end FlatObject

/-! ## The texts between the quotes -/

/-- The texts between the quotes of an object, in order. -/
def quotedTexts : List (List UInt8 × List UInt8) → List (List UInt8)
  | [] => []
  | [f] => [f.1, text ":", f.2, []]
  | f :: g :: fields => f.1 :: text ":" :: f.2 :: text "," :: quotedTexts (g :: fields)

/-- The first text that is not empty behind the one with the first colon that follows the
first place of `key`. -/
def behindColon (key : List UInt8) (texts : List (List UInt8)) : Option (List UInt8) :=
  ((seek key texts).bind (seek (text ":"))).bind fun found => found.tail.find? (· ≠ [])

theorem text_quote : text "\"" = [34] := by decide

theorem text_colon : text ":" = [58] := by decide

theorem text_comma : text "," = [44] := by decide

theorem quotedTexts_cons_ne_nil (f : List UInt8 × List UInt8)
    (fields : List (List UInt8 × List UInt8)) : quotedTexts (f :: fields) ≠ [] := by
  cases fields with
  | nil => exact List.cons_ne_nil _ _
  | cons g fields => exact List.cons_ne_nil _ _

theorem renderField_eq (f : List UInt8 × List UInt8) :
    renderField f = 34 :: (f.1 ++ 34 :: 58 :: 34 :: (f.2 ++ [34])) := by
  have htext : text "\":\"" = [34, 58, 34] := by decide
  unfold renderField
  rw [text_quote, htext]
  simp

theorem renderFields_cons_cons (f g : List UInt8 × List UInt8)
    (fields : List (List UInt8 × List UInt8)) :
    renderFields (f :: g :: fields) = renderField f ++ 44 :: renderFields (g :: fields) := by
  unfold renderFields
  rw [text_comma, List.map_cons, List.map_cons, intercalate_cons_cons]

/-- Quotes are the only thing between the texts. -/
theorem renderFields_eq (fields : List (List UInt8 × List UInt8)) :
    renderFields fields = [34].intercalate ([] :: quotedTexts fields) := by
  induction fields with
  | nil => rfl
  | cons f fields ih =>
    cases fields with
    | nil =>
      have hone : renderFields [f] = renderField f := List.intercalate_singleton
      rw [hone, renderField_eq, quotedTexts, text_colon]
      simp [List.intercalate]
    | cons g fields =>
      obtain ⟨t, ts, hts⟩ := List.exists_cons_of_ne_nil (quotedTexts_cons_ne_nil g fields)
      rw [renderFields_cons_cons, ih, renderField_eq, quotedTexts, text_colon, text_comma, hts]
      simp only [intercalate_cons_cons]
      simp

theorem quotable_quotedTexts {fields : List (List UInt8 × List UInt8)}
    (h : ∀ f ∈ fields, Quotable f.1 ∧ Quotable f.2) : ∀ t ∈ quotedTexts fields, Quotable t := by
  induction fields with
  | nil =>
    intro t ht
    cases ht
  | cons f fields ih =>
    obtain ⟨hkey, hvalue⟩ := h f (List.mem_cons_self ..)
    have hrest := ih fun g hg => h g (List.mem_cons_of_mem _ hg)
    cases fields with
    | nil =>
      rw [quotedTexts]
      simp only [List.forall_mem_cons]
      exact ⟨hkey, by decide, hvalue, by decide, by simp⟩
    | cons g fields =>
      rw [quotedTexts]
      simp only [List.forall_mem_cons]
      exact ⟨hkey, by decide, hvalue, by decide, hrest⟩

/-! ## The search -/

section Search
variable {key : List UInt8} {texts : List (List UInt8)}

/-- A text between quotes is found where the texts are cut. -/
theorem findKeyValue_intercalate (hne : key ≠ []) (hkey : 34 ∉ key)
    (htexts : ∀ t ∈ texts, 34 ∉ t) :
    (findKeyValue ([34].intercalate texts) key).toOption = behindColon key texts := by
  unfold findKeyValue behindColon
  rw [strstr_intercalate hne hkey]
  cases hfirst : seek key texts with
  | none => rfl
  | some found =>
    have hfound := notMem_of_mem_seek htexts hfirst
    have hcolon : strstr (text ":") ([34].intercalate found) =
        (seek (text ":") found).map [34].intercalate := by
      apply strstr_intercalate
      · decide
      · decide
    simp only [Option.map_some, Option.bind_some, hcolon]
    cases hsecond : seek (text ":") found with
    | none => rfl
    | some rest =>
      have hrest := notMem_of_mem_seek hfound hsecond
      obtain ⟨p, behind, rfl⟩ := ne_nil_of_seek hsecond
      have hp : 34 ∉ p := hrest p (List.mem_cons_self ..)
      simp only [Option.map_some, Option.bind_some, List.tail_cons, text_quote]
      cases behind with
      | nil =>
        rw [List.intercalate_singleton, strstr_delim_of_notMem hp]
        rfl
      | cons u us =>
        rw [intercalate_cons_cons, strstr_delim hp]
        rw [← strtok_intercalate fun t ht => hrest t (List.mem_cons_of_mem _ ht)]
        simp only [strtok_delim]
        cases strtok 34 ([34].intercalate (u :: us)) with
        | none => rfl
        | some token => rfl

/-- What is found is part of one of the texts. -/
theorem notMem_of_behindColon {d : UInt8} (htexts : ∀ t ∈ texts, d ∉ t) {value : List UInt8}
    (h : behindColon key texts = some value) : d ∉ value := by
  obtain ⟨found, hfound, hvalue⟩ := Option.bind_eq_some_iff.mp h
  obtain ⟨first, hfirst, hfound⟩ := Option.bind_eq_some_iff.mp hfound
  have hd := notMem_of_mem_seek (notMem_of_mem_seek htexts hfirst) hfound
  exact hd value (List.mem_of_mem_tail (List.mem_of_find?_eq_some hvalue))

/-- An error is never reported as a success. -/
theorem ne_zero_of_findKeyValue {src key : List UInt8} {code : ℤ}
    (h : findKeyValue src key = .error code) : code ≠ 0 := by
  unfold findKeyValue at h
  repeat' split at h
  all_goals first | cases h; decide | cases h

end Search

section Object
variable (o : FlatObject) {key : List UInt8} (hne : key ≠ []) (hkey : 34 ∉ key)
include hne hkey

theorem findKeyValue_render :
    (findKeyValue o.render key).toOption = behindColon key (quotedTexts o.fields) := by
  have hquote : ∀ t ∈ [] :: quotedTexts o.fields, 34 ∉ t := by
    rw [List.forall_mem_cons]
    exact ⟨List.not_mem_nil, fun t ht => (quotable_quotedTexts o.quotable t ht).1⟩
  have hskip : seek key ([] :: quotedTexts o.fields) = seek key (quotedTexts o.fields) := by
    rw [seek, strstr, if_neg hne]
  rw [FlatObject.render, renderFields_eq, findKeyValue_intercalate hne hkey hquote]
  unfold behindColon
  rw [hskip]

/-- With a text behind the colon `Get_Key_Value` copies it, and without one it fails. -/
theorem getKeyValueInto_render (len : ℕ) :
    match behindColon key (quotedTexts o.fields) with
    | some value => getKeyValueInto o.render key len =
        ((CArray.zero len).memcpy value).map fun dst => (0, dst)
    | none => ∃ code, code ≠ 0 ∧ getKeyValueInto o.render key len = some (code, .zero len) := by
  rw [← findKeyValue_render o hne hkey]
  unfold getKeyValueInto getKeyValue
  rcases eq_or_ne o.render [] with hnil | hfull
  · rw [if_pos hnil, hnil]
    have hempty : findKeyValue [] key = .error (-2) := by
      rw [findKeyValue, strstr, if_neg hne]
    rw [hempty]
    exact ⟨-1, by decide, rfl⟩
  · rw [if_neg hfull, if_neg (Nat.not_le.mpr (show o.render.length < 512 from o.short))]
    cases hfind : findKeyValue o.render key with
    | error code => exact ⟨code, ne_zero_of_findKeyValue hfind, rfl⟩
    | ok value =>
      show ((CArray.zero len).memcpy value).bind _ = _
      cases (CArray.zero len).memcpy value with
      | none => rfl
      | some dst => rfl

end Object

/-! ## Fields that are found -/

/-- What a look-up of `key` has to do: give the value of a field with this key, if it fits
`Dst` with its terminator, and fail if there is no such field. -/
def LooksUp (o : FlatObject) (key : List UInt8) (len : ℕ) : Prop :=
  (∀ value, (key, value) ∈ o.fields → value.length < len →
    ∃ dst, getKeyValueInto o.render key len = some (0, dst) ∧ dst.cstr = some value) ∧
  (key ∉ o.keys → ∃ code dst, code ≠ 0 ∧ getKeyValueInto o.render key len = some (code, dst))

/-- What stands behind the colon is the text looked for: the value of the field, and nothing
for a key that is not there. -/
def BehindColon (o : FlatObject) (key : List UInt8) (len : ℕ) : Prop :=
  (∀ value, (key, value) ∈ o.fields → value.length < len →
    behindColon key (quotedTexts o.fields) = some value) ∧
  (key ∉ o.keys → behindColon key (quotedTexts o.fields) = none)

/-- A field is found for certain if its key has no colon and stands in no field before it,
and its value is not empty; a key that is not there, if it stands nowhere at all. -/
structure Clear (o : FlatObject) (key : List UInt8) : Prop where
  no_colon : 58 ∉ key
  ne_comma : key ≠ text ","
  field {i : ℕ} {value : List UInt8} : o.fields[i]? = some (key, value) →
    value ≠ [] ∧ ∀ f ∈ o.fields.take i, ¬ key <:+: f.1 ∧ ¬ key <:+: f.2
  absent : key ∉ o.keys → ∀ f ∈ o.fields, ¬ key <:+: f.1 ∧ ¬ key <:+: f.2

theorem not_infix_singleton {key : List UInt8} {c : UInt8} (hne : key ≠ []) (hc : key ≠ [c]) :
    ¬ key <:+: [c] := by
  rw [List.infix_cons_iff]
  rintro (h | h)
  · rcases List.prefix_cons_iff.mp h with rfl | ⟨t, rfl, ht⟩
    · exact hne rfl
    · rw [List.prefix_nil.mp ht] at hc
      exact hc rfl
  · exact hne (List.infix_nil.mp h)

/-- The texts of the fields before a field all come before its own. -/
theorem quotedTexts_append (before : List (List UInt8 × List UInt8))
    (f : List UInt8 × List UInt8) (after : List (List UInt8 × List UInt8)) :
    quotedTexts (before ++ f :: after) =
      before.flatMap (fun g => [g.1, text ":", g.2, text ","]) ++ quotedTexts (f :: after) := by
  induction before with
  | nil => rfl
  | cons g before ih =>
    obtain ⟨h, rest, hrest⟩ : ∃ h rest, before ++ f :: after = h :: rest :=
      List.exists_cons_of_ne_nil (List.append_ne_nil_of_right_ne_nil _ (List.cons_ne_nil _ _))
    rw [List.flatMap_cons, List.append_assoc, ← ih, List.cons_append, hrest]
    rfl

theorem exists_quotedTexts_cons (f : List UInt8 × List UInt8)
    (fields : List (List UInt8 × List UInt8)) :
    ∃ rest, quotedTexts (f :: fields) = f.1 :: text ":" :: f.2 :: rest := by
  cases fields with
  | nil => exact ⟨_, rfl⟩
  | cons g fields => exact ⟨_, rfl⟩

section Clear
variable {key : List UInt8} (hcolon : 58 ∉ key)
include hcolon

/-- Punctuation is never taken for a key without a colon. -/
theorem not_infix_punctuation (hne : key ≠ []) (hcomma : key ≠ text ",") :
    ¬ key <:+: text ":" ∧ ¬ key <:+: text "," := by
  constructor
  · apply not_infix_singleton hne
    intro h
    rw [h] at hcolon
    exact hcolon (List.mem_singleton_self 58)
  · exact not_infix_singleton hne hcomma

/-- The search from a key of its own ends at its value. -/
theorem behindColon_own {value : List UInt8} (hvalue : value ≠ []) (rest : List (List UInt8)) :
    behindColon key (key :: text ":" :: value :: rest) = some value := by
  have hkey : seek key (key :: text ":" :: value :: rest) =
      some (key :: text ":" :: value :: rest) := by
    rw [seek, strstr_self]
  have hskip : seek (text ":") (key :: text ":" :: value :: rest) =
      some (text ":" :: value :: rest) := by
    rw [seek, text_colon, strstr_delim_of_notMem hcolon]
    simp only
    rw [seek, strstr_self]
  unfold behindColon
  rw [hkey, Option.bind_some, hskip, Option.bind_some, List.tail_cons, List.find?_cons,
    decide_eq_true hvalue]

end Clear

theorem behindColon_of_clear {o : FlatObject} {key : List UInt8} (hne : key ≠ [])
    (h : Clear o key) (len : ℕ) : BehindColon o key len := by
  obtain ⟨hcolon, hcomma⟩ := not_infix_punctuation h.no_colon hne h.ne_comma
  constructor
  · intro value hmem _
    obtain ⟨before, after, hfields⟩ := List.append_of_mem hmem
    have hat : o.fields[before.length]? = some (key, value) := by
      rw [hfields, List.getElem?_append_right (Nat.le_refl _), Nat.sub_self]
      rfl
    obtain ⟨hvalue, hbefore⟩ := h.field hat
    rw [hfields, List.take_left] at hbefore
    obtain ⟨rest, hrest⟩ := exists_quotedTexts_cons (key, value) after
    rw [hfields, quotedTexts_append, hrest]
    have hskip : ∀ t ∈ before.flatMap (fun g => [g.1, text ":", g.2, text ","]),
        ¬ key <:+: t := by
      intro t ht
      obtain ⟨g, hg, ht⟩ := List.mem_flatMap.mp ht
      simp only [List.mem_cons, List.not_mem_nil, or_false] at ht
      rcases ht with rfl | rfl | rfl | rfl
      · exact (hbefore g hg).1
      · exact hcolon
      · exact (hbefore g hg).2
      · exact hcomma
    unfold behindColon
    rw [seek_append hskip]
    exact behindColon_own h.no_colon hvalue rest
  · intro habsent
    have hnone := h.absent habsent
    have hall : ∀ t ∈ quotedTexts o.fields, ¬ key <:+: t := by
      generalize o.fields = fields at hnone
      induction fields with
      | nil =>
        intro t ht
        cases ht
      | cons f fields ih =>
        have hf := hnone f (List.mem_cons_self ..)
        have hrest := ih fun g hg => hnone g (List.mem_cons_of_mem _ hg)
        have hnil : ¬ key <:+: [] := fun h => hne (List.infix_nil.mp h)
        cases fields with
        | nil =>
          rw [quotedTexts]
          simp only [List.forall_mem_cons]
          exact ⟨hf.1, hcolon, hf.2, hnil, by simp⟩
        | cons g fields =>
          rw [quotedTexts]
          simp only [List.forall_mem_cons]
          exact ⟨hf.1, hcolon, hf.2, hcomma, hrest⟩
    unfold behindColon
    rw [← List.append_nil (quotedTexts o.fields), seek_append hall]
    rfl

/-- The string in `Dst` after a text without `NUL` was copied there. -/
theorem cstr_memcpy {len : ℕ} {value : List UInt8} {dst : CArray len} (hnul : 0 ∉ value)
    (h : (CArray.zero len).memcpy value = some dst) :
    dst.cstr = if value.length < len then some value else none := by
  obtain ⟨hle, rfl⟩ := CArray.memcpy_eq_some.mp h
  rw [CArray.cstr_zero_overlay, CArray.takeWhile_of_notMem hnul]
  simp only [hnul, or_false]

/-- A deal with two fields. -/
def deviceFields : FlatObject where
  fields := [(text "IMSI", text "4600"), (text "IMEI", text "8612")]
  distinct := by decide
  key_ne_nil := by decide
  quotable := by decide
  short := by decide

/-- A deal without an access point, and with one key inside another. -/
def speedFields : FlatObject where
  fields := [(text "APN", []), (text "speedStr", text "128"), (text "speed", text "2")]
  distinct := by decide
  key_ne_nil := by decide
  quotable := by decide
  short := by decide

end Tdm.Common
