import Tdm.Device.Web
import Tdm.Common.KeyValue
import Tdm.Common.RegistryTheorems
import Mathlib.Data.List.Infix

/-!
# The texts of web requests

`getValue` decides which types of request keep `num` as a text, and `Client_Web_Manage` which types
send this text; type 12, the selection of a network, is only in the second list. The values are
looked for by `Find_Str_By_Key`, which takes the first place where a key stands for the key, also
inside the serial number. A request is cut at its quotes here, as a deal is for `Get_Key_Value`.
-/

namespace Tdm.Device

open Tdm.Lib Tdm.Common

/-! ## Texts between quotes -/

/-- What stands behind the first colon: the first text that is not empty. The colon may be inside
a text. -/
def behindFirstColon (texts : List (List UInt8)) : Option (List UInt8) :=
  (seek [58] texts).bind fun
    | [] => none
    | p :: rest => (p.tail :: rest).find? (· ≠ [])

section Search
variable {key : List UInt8} {texts : List (List UInt8)}

/-- `Find_Str_By_Key` on a text that is cut at its quotes. -/
theorem findStrByKey_intercalate (hne : key ≠ []) (hkey : 34 ∉ key) (hcolon : 58 ∉ key)
    (htexts : ∀ t ∈ texts, 34 ∉ t) :
    findStrByKey ([34].intercalate texts) key =
      match (seek key texts).bind behindFirstColon with
      | none => some none
      | some value => if value.length ≤ 56 then some (some value) else none := by
  obtain ⟨c, cs, rfl⟩ := List.exists_cons_of_ne_nil hne
  have hc : c ≠ 58 := fun h => hcolon (h ▸ List.mem_cons_self ..)
  unfold findStrByKey
  rw [strstr_intercalate (List.cons_ne_nil _ _) hkey]
  cases hseek : seek (c :: cs) texts with
  | none => rfl
  | some found =>
    have hfound := notMem_of_mem_seek htexts hseek
    obtain ⟨p, rest, rfl⟩ := ne_nil_of_seek hseek
    obtain ⟨q, hq⟩ := prefix_of_seek hseek
    have hbehind : [34].intercalate (p :: rest) = c :: [34].intercalate ((cs ++ q) :: rest) := by
      rw [← hq, List.cons_append, intercalate_head_cons]
    have hne : [34].intercalate (p :: rest) ≠ [] := by
      rw [hbehind]
      exact List.cons_ne_nil _ _
    have hhead : ([34].intercalate (p :: rest)).head? ≠ some 58 := by
      rw [hbehind, List.head?_cons]
      exact fun h => hc (Option.some.inj h)
    -- the text begins with the key, so the first `strtok` stops at the first colon
    obtain ⟨token, htoken⟩ := strtok_eq_strstr hne hhead
    simp only [Option.map_some, Option.bind_some]
    rw [htoken, strstr_intercalate (List.cons_ne_nil _ _) (by decide)]
    unfold behindFirstColon
    cases hsecond : seek [58] (p :: rest) with
    | none => rfl
    | some after =>
      have hafter := notMem_of_mem_seek hfound hsecond
      obtain ⟨p', rest', rfl⟩ := ne_nil_of_seek hsecond
      obtain ⟨q', hq'⟩ := prefix_of_seek hsecond
      obtain rfl : 58 :: q' = p' := hq'
      have htail : ([34].intercalate ((58 :: q') :: rest')).tail =
          [34].intercalate (q' :: rest') := by
        rw [intercalate_head_cons, List.tail_cons]
      have hquote : ∀ t ∈ q' :: rest', 34 ∉ t := by
        rw [List.forall_mem_cons] at hafter ⊢
        exact ⟨fun h => hafter.1 (List.mem_cons_of_mem _ h), hafter.2⟩
      simp only [Option.map_some, Option.elim_some, Option.bind_some, List.tail_cons]
      rw [htail, ← strtok_intercalate hquote]
      cases strtok 34 ([34].intercalate (q' :: rest')) with
      | none => rfl
      | some found => rfl

theorem behindFirstColon_of_notMem {p : List UInt8} (hp : 58 ∉ p) :
    behindFirstColon (p :: texts) = behindFirstColon texts := by
  unfold behindFirstColon
  rw [seek, strstr_delim_of_notMem hp]

/-- A colon between two texts. -/
theorem behindFirstColon_colon {value : List UInt8} (hvalue : value ≠ []) :
    behindFirstColon (text ":" :: value :: texts) = some value := by
  unfold behindFirstColon
  rw [seek, text_colon, strstr_self]
  simp [hvalue]

/-- What stands behind a key and a colon inside one text. -/
def insideText (key s : List UInt8) : Option (List UInt8) :=
  ((strstr key s).bind (strstr [58])).map List.tail

end Search

/-! ## Requests -/

/-- `{"sn":"..","type":"..","num":".."}`. -/
def webRequest (sn type num : List UInt8) : List UInt8 :=
  text "\x7b\"sn\":\"" ++ sn ++ text "\",\"type\":\"" ++ type ++ text "\",\"num\":\"" ++ num ++
    text "\"\x7d"

/-- The texts of a request from its type on. -/
def typeTexts (type num : List UInt8) : List (List UInt8) :=
  [text "type", text ":", type, text ",", text "num", text ":", num, text "\x7d"]

def webTexts (sn type num : List UInt8) : List (List UInt8) :=
  [text "\x7b", text "sn", text ":"] ++ sn :: text "," :: typeTexts type num

theorem webRequest_eq (sn type num : List UInt8) :
    webRequest sn type num = [34].intercalate (webTexts sn type num) := by
  have hopen : text "\x7b\"sn\":\"" = text "\x7b" ++ 34 :: (text "sn" ++ 34 :: (text ":" ++ [34])) := by
    decide
  have htype : text "\",\"type\":\"" =
      34 :: (text "," ++ 34 :: (text "type" ++ 34 :: (text ":" ++ [34]))) := by decide
  have hnum : text "\",\"num\":\"" =
      34 :: (text "," ++ 34 :: (text "num" ++ 34 :: (text ":" ++ [34]))) := by decide
  have hclose : text "\"\x7d" = 34 :: text "\x7d" := by decide
  unfold webRequest webTexts typeTexts
  rw [hopen, htype, hnum, hclose]
  simp only [List.cons_append, List.nil_append, intercalate_cons_cons,
    List.intercalate_singleton, List.append_assoc]

/-- What is read for a key that stands in the serial number. A colon behind it there is taken for
the colon of the field. -/
def misread (key sn value : List UInt8) : List UInt8 :=
  match insideText key sn with
  | none => value
  | some [] => text ","
  | some (c :: cs) => c :: cs

section Request
variable {key sn type num : List UInt8}

/-- The search from a place in the serial number on. -/
theorem behindFirstColon_sn {p : List UInt8} (hp : strstr key sn = some p) (htype : type ≠ []) :
    behindFirstColon (p :: text "," :: typeTexts type num) = some (misread key sn type) := by
  by_cases hcolon : 58 ∈ p
  · obtain ⟨before, behind, rfl, hbefore⟩ := List.eq_append_cons_of_mem hcolon
    have hinside : insideText key sn = some behind := by
      rw [insideText, hp, Option.bind_some, strstr_delim hbefore]
      rfl
    unfold behindFirstColon misread
    rw [seek, strstr_delim hbefore, hinside]
    cases behind with
    | nil => rfl
    | cons b bs => rfl
  · have hinside : insideText key sn = none := by
      rw [insideText, hp, Option.bind_some, strstr_delim_of_notMem hcolon]
      rfl
    unfold misread typeTexts
    rw [hinside, behindFirstColon_of_notMem hcolon, behindFirstColon_of_notMem (by decide),
      behindFirstColon_of_notMem (by decide), behindFirstColon_colon htype]

theorem behindFirstColon_webTexts_sn (hsn : sn ≠ []) :
    (seek (text "sn") (webTexts sn type num)).bind behindFirstColon = some sn := by
  have hseek : seek (text "sn") (webTexts sn type num) =
      some (text "sn" :: text ":" :: sn :: text "," :: typeTexts type num) := by
    unfold webTexts
    rw [List.cons_append, seek, strstr_eq_none.mpr (by decide)]
    simp only [List.cons_append, List.nil_append]
    rw [seek, strstr_self]
  rw [hseek, Option.bind_some, behindFirstColon_of_notMem (by decide), behindFirstColon_colon hsn]

theorem behindFirstColon_webTexts_type (htype : type ≠ []) :
    (seek (text "type") (webTexts sn type num)).bind behindFirstColon =
      some (misread (text "type") sn type) := by
  have hskip : ∀ t ∈ [text "\x7b", text "sn", text ":"], ¬ text "type" <:+: t := by decide
  unfold webTexts
  rw [seek_append hskip, seek]
  cases hp : strstr (text "type") sn with
  | some p => exact behindFirstColon_sn hp htype
  | none =>
    have hinside : insideText (text "type") sn = none := by
      rw [insideText, hp]
      rfl
    unfold typeTexts misread
    simp only
    rw [seek, strstr_eq_none.mpr (by decide)]
    simp only
    rw [seek, strstr_self, Option.bind_some, behindFirstColon_of_notMem (by decide),
      behindFirstColon_colon htype, hinside]

theorem behindFirstColon_webTexts_num (htype : type ≠ []) (hnum : num ≠ [])
    (hdigits : ¬ text "num" <:+: type) :
    (seek (text "num") (webTexts sn type num)).bind behindFirstColon =
      some (if text "num" <:+: sn then misread (text "num") sn type else num) := by
  have hskip : ∀ t ∈ [text "\x7b", text "sn", text ":"], ¬ text "num" <:+: t := by decide
  unfold webTexts
  rw [seek_append hskip, seek]
  cases hp : strstr (text "num") sn with
  | some p =>
    rw [if_pos (isSome_strstr.mp (by rw [hp]; rfl))]
    exact behindFirstColon_sn hp htype
  | none =>
    have hbefore : ∀ t ∈ [text ",", text "type", text ":", type, text ","],
        ¬ text "num" <:+: t := by
      simp only [List.forall_mem_cons]
      exact ⟨by decide, by decide, by decide, hdigits, by decide, by simp⟩
    have hsplit : text "," :: typeTexts type num =
        [text ",", text "type", text ":", type, text ","] ++
          [text "num", text ":", num, text "\x7d"] := rfl
    rw [if_neg (strstr_eq_none.mp hp)]
    simp only
    rw [hsplit, seek_append hbefore, seek, strstr_self, Option.bind_some,
      behindFirstColon_of_notMem (by decide), behindFirstColon_colon hnum]

end Request

/-! ## Frames -/

/-- The tags of the types that send a text: a message, a speed limit, an APN, a network, a VPN. -/
def textTag (type : UInt8) : Option UInt8 :=
  match type with
  | 8 => some 0x99
  | 10 => some 0x9A
  | 11 => some 0x9D
  | 12 => some 0x9E
  | 15 => some 0xA3
  | _ => none

/-- The tags of the types that send a number: logs and updates. -/
def numberTag (type : UInt8) : Option UInt8 :=
  if type ∈ [1, 2] then some 0x41 else if type ∈ updateTypes then some 0x8D else none

/-- The frame that a request asks for: with the tag of its type, a text or two numbers. -/
def requestedFrame (type : UInt8) (num : List UInt8) : Option (List UInt8) :=
  match textTag type with
  | some tag => some ([tag, UInt8.ofNat num.length, 0, 0] ++ num)
  | none => (numberTag type).map fun tag => [tag, 2, 0, 0, type, byteOf (atoi num)]

/-- The type of request sends `num`, as a text or as a number. -/
def sendsNum (type : UInt8) : Bool := (textTag type).isSome || (numberTag type).isSome

theorem isSome_requestedFrame (type : UInt8) (num : List UInt8) :
    (requestedFrame type num).isSome = sendsNum type := by
  unfold requestedFrame sendsNum
  cases textTag type with
  | some tag => rfl
  | none => rw [Option.isSome_map, Option.isSome_none, Bool.false_or]

/-- The tag of a frame depends on the type only. -/
def webTag (type : UInt8) : Option UInt8 := (webFrame ⟨type, 0, [], []⟩).bind List.head?

theorem head_webFrame (para1 : WebRequest) :
    (webFrame para1).bind List.head? = webTag para1.type := by
  unfold webTag webFrame
  dsimp only
  split
  · rfl
  · split
    · rfl
    · split <;> rfl

theorem webFrame_of_textTag {para1 : WebRequest} {tag : UInt8}
    (h : textTag para1.type = some tag) : webFrame para1 = some (pickUpWebData tag para1.dst) := by
  obtain ⟨type, num, sn, dst⟩ := para1
  unfold textTag at h
  dsimp only at h ⊢
  split at h <;> first | (obtain rfl := Option.some.inj h; rfl) | cases h

theorem webFrame_of_numberTag {para1 : WebRequest} {tag : UInt8}
    (h : numberTag para1.type = some tag) :
    webFrame para1 = some (pickUpWebData tag [para1.type, para1.num]) := by
  unfold numberTag at h
  unfold webFrame
  split at h
  · rename_i hlog
    obtain rfl := Option.some.inj h
    rw [if_pos hlog]
  · rename_i hlog
    split at h
    · rename_i hupdate
      obtain rfl := Option.some.inj h
      rw [if_neg hlog, if_pos hupdate]
    · cases h

theorem mem_of_textTag {type tag : UInt8} (h : textTag type = some tag) :
    tag ∈ [0x99, 0x9A, 0x9D, 0x9E, 0xA3] := by
  unfold textTag at h
  split at h <;> first | (obtain rfl := Option.some.inj h; decide) | cases h

theorem mem_of_numberTag {type tag : UInt8} (h : numberTag type = some tag) :
    tag ∈ [0x41, 0x8D] := by
  unfold numberTag at h
  split at h
  · obtain rfl := Option.some.inj h
    decide
  · split at h
    · obtain rfl := Option.some.inj h
      decide
    · cases h

/-- Where a tag comes from. The tags of the third kind are sent without data. -/
theorem webTag_cases {type tag : UInt8} (h : webTag type = some tag) :
    textTag type = some tag ∨ numberTag type = some tag ∨ tag ∈ [0x89, 0xA2, 0xA0, 0xA1] := by
  unfold webTag webFrame at h
  dsimp only at h
  split at h
  · rename_i hlog
    exact .inr (.inl ((if_pos hlog).trans h))
  · rename_i hlog
    split at h
    · rename_i hupdate
      exact .inr (.inl ((if_neg hlog).trans ((if_pos hupdate).trans h)))
    · split at h <;>
        first
        | exact .inl h
        | (obtain rfl := Option.some.inj h; exact .inr (.inr (by decide)))
        | cases h

theorem textTag_injective {type type' tag : UInt8} (h : textTag type = some tag)
    (h' : textTag type' = some tag) : type' = type := by
  unfold textTag at h h'
  split at h <;> split at h' <;>
    first | rfl | exact absurd (h.trans h'.symm) (by decide) | nomatch h

/-- A tag of the first table belongs to one type. -/
theorem type_of_textTag {type type' tag : UInt8} (h : textTag type = some tag)
    (hsame : webTag type' = some tag) : type' = type := by
  have hmem := mem_of_textTag h
  have hnumber : ∀ tag ∈ [0x99, 0x9A, 0x9D, 0x9E, 0xA3],
      tag ∉ [(0x41 : UInt8), 0x8D] ∧ tag ∉ [(0x89 : UInt8), 0xA2, 0xA0, 0xA1] := by
    decide +kernel
  rcases webTag_cases hsame with htext | hnum | hempty
  · exact textTag_injective h htext
  · exact absurd (mem_of_numberTag hnum) (hnumber tag hmem).1
  · exact absurd hempty (hnumber tag hmem).2

/-- A tag of the second table belongs to the types of its list. -/
theorem numberTag_of_webTag {type type' tag : UInt8} (h : numberTag type = some tag)
    (hsame : webTag type' = some tag) : numberTag type' = some tag := by
  have hmem := mem_of_numberTag h
  have hother : ∀ tag ∈ [(0x41 : UInt8), 0x8D],
      tag ∉ [(0x99 : UInt8), 0x9A, 0x9D, 0x9E, 0xA3] ∧ tag ∉ [(0x89 : UInt8), 0xA2, 0xA0, 0xA1] := by
    decide +kernel
  rcases webTag_cases hsame with htext | hnum | hempty
  · exact absurd (mem_of_textTag htext) (hother tag hmem).1
  · exact hnum
  · exact absurd hempty (hother tag hmem).2

/-- The frame that is sent is the one asked for exactly if the type is right and the text or the
number is. -/
theorem webFrame_eq_iff {para1 : WebRequest} {type : UInt8} {num : List UInt8}
    (hsends : sendsNum type = true) :
    webFrame para1 = requestedFrame type num ↔ para1.type = type ∧
      if (textTag type).isSome then para1.dst = num else para1.num = byteOf (atoi num) := by
  unfold requestedFrame
  cases htext : textTag type with
  | some tag =>
    simp only [Option.isSome_some, if_true]
    constructor
    · intro h
      -- the tag in front of the frame gives the type away
      have hhead := head_webFrame para1
      rw [h, Option.bind_some] at hhead
      obtain rfl := type_of_textTag htext hhead.symm
      refine ⟨rfl, ?_⟩
      rw [webFrame_of_textTag htext] at h
      exact List.append_inj_right (Option.some.inj h) rfl
    · rintro ⟨rfl, rfl⟩
      exact webFrame_of_textTag htext
  | none =>
    obtain ⟨tag, hnumber⟩ : ∃ tag, numberTag type = some tag := by
      rw [sendsNum, htext] at hsends
      exact Option.isSome_iff_exists.mp hsends
    simp only [hnumber, Option.map_some, Option.isSome_none, Bool.false_eq_true, if_false]
    constructor
    · intro h
      have hhead := head_webFrame para1
      rw [h, Option.bind_some] at hhead
      -- several types share a tag here, but the type is sent along
      rw [webFrame_of_numberTag (numberTag_of_webTag hnumber hhead.symm)] at h
      have hpayload : [para1.type, para1.num] = [type, byteOf (atoi num)] :=
        List.append_inj_right (Option.some.inj h) rfl
      simpa using hpayload
    · rintro ⟨rfl, hnum⟩
      rw [webFrame_of_numberTag hnumber, hnum]
      rfl

/-! ## What is read from a request -/

/-- The 15 bytes of `sn`. -/
def snBytes (sn : List UInt8) : List UInt8 := (sn ++ List.replicate 15 0).take 15

theorem length_insideText_le {key sn value : List UInt8} (h : insideText key sn = some value) :
    value.length ≤ sn.length := by
  obtain ⟨q, hq, rfl⟩ := Option.map_eq_some_iff.mp h
  obtain ⟨p, hp, hq⟩ := Option.bind_eq_some_iff.mp hq
  have hle := ((suffix_of_strstr hq).trans (suffix_of_strstr hp)).length_le
  rw [List.length_tail]
  omega

section Value
variable {sn type num : List UInt8}

theorem length_misread_lt (key : List UInt8) (hsn : sn.length ≤ 15) (htype : type.length ≤ 55) :
    (misread key sn type).length < 56 := by
  unfold misread
  split
  · omega
  · decide
  · rename_i c cs h
    have hle := length_insideText_le h
    omega

/-- The fields that are sent: a serial number, a number for the type and a text. -/
structure WebFields (sn type num : List UInt8) : Prop where
  sn_ne_nil : sn ≠ []
  sn_quotable : Quotable sn
  sn_short : sn.length ≤ 15
  type_ne_nil : type ≠ []
  type_digits : ∀ c ∈ type, isDigit c = true
  type_short : type.length ≤ 55
  num_ne_nil : num ≠ []
  num_quotable : Quotable num
  num_short : num.length ≤ 55

theorem WebFields.notMem_webTexts (h : WebFields sn type num) :
    ∀ t ∈ webTexts sn type num, 34 ∉ t := by
  have htype : 34 ∉ type := fun hmem => absurd (h.type_digits 34 hmem) (by decide)
  simp only [webTexts, typeTexts, List.cons_append, List.nil_append, List.forall_mem_cons]
  exact ⟨by decide, by decide, by decide, h.sn_quotable.1, by decide, by decide, by decide, htype,
    by decide, by decide, by decide, h.num_quotable.1, by decide, by simp⟩

/-- `Find_Str_By_Key` on a request. -/
theorem WebFields.findStrByKey_eq (h : WebFields sn type num) {key value : List UInt8}
    (hne : key ≠ []) (hkey : 34 ∉ key) (hcolon : 58 ∉ key)
    (hvalue : (seek key (webTexts sn type num)).bind behindFirstColon = some value)
    (hshort : value.length < 56) :
    findStrByKey (webRequest sn type num) key = some (some value) := by
  rw [webRequest_eq, findStrByKey_intercalate hne hkey hcolon h.notMem_webTexts, hvalue]
  exact if_pos hshort.le

/-- A value that leaves room for the terminator is read as a string. -/
theorem findText_of_short {src key value : List UInt8} (h : findStrByKey src key = some (some value))
    (hshort : value.length < 56) : findText src key = some (some value) := by
  unfold findText
  rw [h]
  exact if_pos hshort

/-- The text that is read for `num`. -/
def numText (sn type num : List UInt8) : List UInt8 :=
  if text "num" <:+: sn then misread (text "num") sn type else num

/-- What `getValue` takes from a request. -/
theorem WebFields.getValue_eq (h : WebFields sn type num) :
    let type' := byteOf (atoi (misread (text "type") sn type))
    getValue (webRequest sn type num) = some (if type' ∈ [8, 10, 11, 15] then
      ⟨type', 0, snBytes sn, numText sn type num⟩
      else ⟨type', byteOf (atoi (numText sn type num)), snBytes sn, []⟩) := by
  -- the type is digits only, so `num` is not found there
  have hdigits : ¬ text "num" <:+: type := fun hmem =>
    absurd (h.type_digits 110 (hmem.mem (by decide))) (by decide)
  have hsnShort : sn.length < 56 := h.sn_short.trans_lt (by decide)
  have htypeShort := length_misread_lt (text "type") h.sn_short h.type_short
  have hnumShort : (numText sn type num).length < 56 := by
    unfold numText
    split
    · exact length_misread_lt (text "num") h.sn_short h.type_short
    · exact Nat.lt_succ_of_le h.num_short
  have hsn := h.findStrByKey_eq (by decide) (by decide) (by decide)
    (behindFirstColon_webTexts_sn h.sn_ne_nil) hsnShort
  have htype := findText_of_short (h.findStrByKey_eq (by decide) (by decide) (by decide)
    (behindFirstColon_webTexts_type h.type_ne_nil) htypeShort) htypeShort
  have hnum := findText_of_short (h.findStrByKey_eq (by decide) (by decide) (by decide)
    (behindFirstColon_webTexts_num h.type_ne_nil h.num_ne_nil hdigits) hnumShort) hnumShort
  simp only [getValue]
  rw [hsn, htype, Option.bind_eq_bind, Option.bind_some]
  simp only [Option.bind_some]
  rw [hnum]
  simp only [Option.bind_some]
  split <;> rfl

end Value

/-! ## What is sent -/

/-- A request for a device that is online. -/
theorem clientWebManage_online {r : Registry} (hr : r.Sound) {node : DataSpm} (hnode : node ∈ r.nodes)
    (honline : 0 < node.mem.getInt Member.fd1) {src : List UInt8} {para1 : WebRequest}
    (hvalue : getValue src = some para1) (hkey : node.key = para1.sn) (client : ℤ) :
    clientWebManage r src client = some (⟨client, text "ok\n"⟩ ::
      (webFrame para1).toList.map fun frame => ⟨node.mem.getInt Member.fd1, frame⟩) := by
  obtain ⟨i, hi⟩ := List.mem_iff_getElem?.mp hnode
  have hat : r.keys[i]? = some para1.sn := by
    rw [r.getElem?_keys, hi, Option.map_some, hkey]
  have hget : getDataListBySN r para1.sn = some (some i) := by
    rcases getDataListBySN_spec hr para1.sn with ⟨j, hget, hj⟩ | ⟨-, hnew⟩
    · rw [hget, hr.index_unique hat hj]
    · exact absurd (List.mem_of_getElem? hat) hnew
  have hfd : fdOf r (some i) = node.mem.getInt Member.fd1 := by
    rw [fdOf, Option.bind_some, hi]
  rw [clientWebManage, hvalue, Option.bind_eq_bind, Option.bind_some, hget, Option.bind_eq_bind,
    Option.bind_some, hfd]
  exact if_pos honline

/-- The client is told `ok` and the device is sent the frame that the request asks for. -/
def Carried (r : Registry) (sn type num : List UInt8) (client fd : ℤ) : Prop :=
  ∃ frame, requestedFrame (UInt8.ofNat (numeral 0 type)) num = some frame ∧
    clientWebManage r (webRequest sn type num) client = some [⟨client, text "ok\n"⟩, ⟨fd, frame⟩]

/-- No key of the request is found in the serial number, except for a type that is the same. -/
def Unambiguous (sn : List UInt8) (type : UInt8) : Prop :=
  ¬ text "num" <:+: sn ∧
    ∀ value, insideText (text "type") sn = some value → byteOf (atoi value) = type

instance (sn : List UInt8) (type : UInt8) : Decidable (Unambiguous sn type) :=
  inferInstanceAs (Decidable (_ ∧ ∀ value ∈ insideText (text "type") sn, _))

theorem byteOf_atoi_digits {ds : List UInt8} (hne : ds ≠ []) (h : ∀ c ∈ ds, isDigit c = true)
    (hlt : numeral 0 ds < 2 ^ 63) : byteOf (atoi ds) = UInt8.ofNat (numeral 0 ds) := by
  have hmod : (atoi ds % 256).toNat = numeral 0 ds % 256 := by
    unfold atoi toInt32
    rw [strtoll_digits hne h, min_eq_right (by omega)]
    omega
  rw [byteOf, hmod]
  apply UInt8.toNat_inj.mp
  simp

theorem byteOf_misread (sn : List UInt8) {type : List UInt8} {t : UInt8}
    (ht : byteOf (atoi type) = t) :
    byteOf (atoi (misread (text "type") sn type)) = t ↔
      ∀ value, insideText (text "type") sn = some value → byteOf (atoi value) = t := by
  unfold misread
  split
  · rename_i h
    simp only [h]
    exact iff_of_true ht nofun
  · rename_i h
    simp only [h]
    -- neither a comma nor nothing is a number
    have hzero : byteOf (atoi (text ",")) = byteOf (atoi []) := by decide
    rw [hzero]
    exact ⟨fun h value hvalue => Option.some.inj hvalue ▸ h, fun h => h [] rfl⟩
  · rename_i c cs h
    simp only [h]
    exact ⟨fun h value hvalue => Option.some.inj hvalue ▸ h, fun h => h _ rfl⟩

section Sent
variable {r : Registry} {node : DataSpm} {sn type num : List UInt8}

/-- `getValue` keeps the text of the types that send one, except for 12. -/
theorem isSome_textTag (type : UInt8) :
    (textTag type).isSome = true ↔ type ∈ [8, 10, 11, 15] ∨ type = 12 := by
  constructor
  · intro h
    unfold textTag at h
    split at h <;> first | decide | cases h
  · rintro (h | rfl)
    · simp only [List.mem_cons, List.not_mem_nil, or_false] at h
      rcases h with rfl | rfl | rfl | rfl <;> rfl
    · rfl

/-- What `getValue` keeps for a type. -/
theorem kept_iff {type' : UInt8} {para1 : WebRequest} {value : List UInt8} {t : UInt8}
    (hpara : para1 = if type' ∈ [8, 10, 11, 15] then ⟨type', 0, snBytes sn, value⟩
      else ⟨type', byteOf (atoi value), snBytes sn, []⟩)
    (hnum : num ≠ []) :
    (para1.type = t ∧ if (textTag t).isSome then para1.dst = num else para1.num = byteOf (atoi num)) ↔
      type' = t ∧ t ≠ 12 ∧
        if (textTag t).isSome then value = num else byteOf (atoi value) = byteOf (atoi num) := by
  have htype : para1.type = type' := by
    rw [hpara]
    split <;> rfl
  rw [htype]
  apply and_congr_right
  rintro rfl
  by_cases hkeeps : type' ∈ [8, 10, 11, 15]
  · have hne : type' ≠ 12 := by
      rintro rfl
      exact absurd hkeeps (by decide)
    rw [if_pos hkeeps] at hpara
    simp only [(isSome_textTag type').mpr (.inl hkeeps), if_true, hpara]
    exact (and_iff_right hne).symm
  · rw [if_neg hkeeps] at hpara
    by_cases htwelve : type' = 12
    · -- the text is not kept, and nothing is sent
      simp only [(isSome_textTag type').mpr (.inr htwelve), if_true, hpara]
      exact iff_of_false hnum.symm fun h => h.1 htwelve
    · have hnumber : ¬ (textTag type').isSome = true :=
        fun h => ((isSome_textTag type').mp h).elim hkeeps htwelve
      simp only [hnumber, hpara]
      exact (and_iff_right htwelve).symm

/-- The frame is the one asked for exactly if the type is read right, is not 12 and `num` is read
right. -/
theorem carried_iff (hr : r.Sound) (hnode : node ∈ r.nodes)
    (honline : 0 < node.mem.getInt Member.fd1) (h : WebFields sn type num)
    (hkey : node.key = snBytes sn) (hsends : sendsNum (UInt8.ofNat (numeral 0 type)) = true)
    (client : ℤ) :
    Carried r sn type num client (node.mem.getInt Member.fd1) ↔
      byteOf (atoi (misread (text "type") sn type)) = UInt8.ofNat (numeral 0 type) ∧
        UInt8.ofNat (numeral 0 type) ≠ 12 ∧
        if (textTag (UInt8.ofNat (numeral 0 type))).isSome then numText sn type num = num
        else byteOf (atoi (numText sn type num)) = byteOf (atoi num) := by
  obtain ⟨para1, hpara⟩ : ∃ para1 : WebRequest, para1 =
      if byteOf (atoi (misread (text "type") sn type)) ∈ [8, 10, 11, 15] then
        ⟨byteOf (atoi (misread (text "type") sn type)), 0, snBytes sn, numText sn type num⟩
      else ⟨byteOf (atoi (misread (text "type") sn type)), byteOf (atoi (numText sn type num)),
        snBytes sn, []⟩ := ⟨_, rfl⟩
  have hvalue : getValue (webRequest sn type num) = some para1 := by
    rw [h.getValue_eq, hpara]
  have hsn : para1.sn = snBytes sn := by
    rw [hpara]
    split <;> rfl
  have hrun := clientWebManage_online hr hnode honline hvalue (hkey.trans hsn.symm) client
  rw [← kept_iff hpara h.num_ne_nil, ← webFrame_eq_iff hsends, Carried, hrun]
  obtain ⟨frame, hframe⟩ := Option.isSome_iff_exists.mp
    ((isSome_requestedFrame (UInt8.ofNat (numeral 0 type)) num).trans hsends)
  rw [hframe]
  constructor
  · rintro ⟨frame', hframe', hwrites⟩
    obtain rfl := Option.some.inj hframe'
    cases hsent : webFrame para1 with
    | none =>
      rw [hsent] at hwrites
      simp at hwrites
    | some sent =>
      rw [hsent] at hwrites
      simpa using hwrites
  · intro hsent
    rw [hsent]
    exact ⟨frame, rfl, rfl⟩

end Sent

/-- For every registered device that is online and every type that sends `num`: every text reaches
the device, with the tag of its type or as a number, exactly if the type is not the selection of a
network and no key is found in the serial number. -/
theorem web_text_carried_iff {r : Registry} (hr : r.Sound) {node : DataSpm} (hnode : node ∈ r.nodes)
    (honline : 0 < node.mem.getInt Member.fd1) {sn type : List UInt8} (hsn : sn ≠ [])
    (hquotable : Quotable sn) (hshort : sn.length ≤ 15) (hkey : node.key = snBytes sn)
    (htype : type ≠ []) (hdigits : ∀ c ∈ type, isDigit c = true) (hlen : type.length ≤ 55)
    (hlt : numeral 0 type < 2 ^ 63) (hsends : sendsNum (UInt8.ofNat (numeral 0 type)) = true)
    (client : ℤ) :
    (∀ num, num ≠ [] → Quotable num → num.length ≤ 55 →
        Carried r sn type num client (node.mem.getInt Member.fd1)) ↔
      UInt8.ofNat (numeral 0 type) ≠ 12 ∧ Unambiguous sn (UInt8.ofNat (numeral 0 type)) := by
  have hfields {num : List UInt8} (hne : num ≠ []) (hquot : Quotable num) (hle : num.length ≤ 55) :
      WebFields sn type num :=
    ⟨hsn, hquotable, hshort, htype, hdigits, hlen, hne, hquot, hle⟩
  have hread := byteOf_misread sn (byteOf_atoi_digits htype hdigits hlt)
  constructor
  · intro h
    have hone (num : List UInt8) (hne : num ≠ []) (hquot : Quotable num) (hle : num.length ≤ 55) :=
      (carried_iff hr hnode honline (hfields hne hquot hle) hkey hsends client).mp
        (h num hne hquot hle)
    obtain ⟨htypeRead, hnetwork, hzero⟩ := hone (text "0") (by decide) (by decide) (by decide)
    obtain ⟨-, -, hunit⟩ := hone (text "1") (by decide) (by decide) (by decide)
    refine ⟨hnetwork, ?_, hread.mp htypeRead⟩
    -- what is found in the serial number cannot be both texts
    intro hinfix
    rw [numText, if_pos hinfix] at hzero hunit
    split at hzero
    · rename_i htext
      rw [if_pos htext] at hunit
      exact absurd (hzero.symm.trans hunit) (by decide)
    · rename_i htext
      rw [if_neg htext] at hunit
      exact absurd (hzero.symm.trans hunit) (by decide)
  · rintro ⟨hnetwork, hinfix, hvalue⟩ num hne hquot hle
    rw [carried_iff hr hnode honline (hfields hne hquot hle) hkey hsends client, numText,
      if_neg hinfix]
    refine ⟨hread.mpr hvalue, hnetwork, ?_⟩
    split
    · rfl
    · rfl

/-- The node of a device on descriptor 5. -/
def onlineNode : DataSpm :=
  (initDataSpm.copySN ⟨text "172150210000937", fifteen_le_serial⟩).setInt Member.fd1 5

/-- A registry with this device. -/
def onlineRegistry : Registry := connectToMysqlInit.append onlineNode

/-- A message reaches the device. -/
theorem web_text_carried_iff_message :
    Carried onlineRegistry (text "172150210000937") (text "8") (text "46000") 8
      (onlineNode.mem.getInt Member.fd1) :=
  (web_text_carried_iff
    (show onlineRegistry.Sound from sound_connectToMysqlInit.append List.not_mem_nil)
    (show onlineNode ∈ onlineRegistry.nodes from List.mem_append_right _ (by simp))
    (by decide +kernel) (by decide +kernel) (by decide +kernel) (by decide +kernel)
    (by decide +kernel) (by decide +kernel) (by decide +kernel) (by decide +kernel)
    (by decide +kernel) (by decide +kernel) 8).mpr (by decide +kernel)
    (text "46000") (by decide) (by decide) (by decide)

/-- The text of a network selection does not reach the device, and the client is told `ok`. -/
theorem network_selection_empty :
    clientWebManage onlineRegistry
        (webRequest (text "172150210000937") (text "12") (text "46000")) 8 =
      some [⟨8, text "ok\n"⟩, ⟨5, [0x9E, 0, 0, 0]⟩] ∧
    requestedFrame 12 (text "46000") = some ([0x9E, 5, 0, 0] ++ text "46000") ∧
    ¬ Carried onlineRegistry (text "172150210000937") (text "12") (text "46000") 8 5 := by
  have hrun : clientWebManage onlineRegistry
      (webRequest (text "172150210000937") (text "12") (text "46000")) 8 =
        some [⟨8, text "ok\n"⟩, ⟨5, [0x9E, 0, 0, 0]⟩] := by decide +kernel
  refine ⟨hrun, by decide +kernel, ?_⟩
  rintro ⟨frame, hframe, hwrites⟩
  have hsent : some [0x9E, 0, 0, 0] = requestedFrame (UInt8.ofNat (numeral 0 (text "12")))
      (text "46000") := by
    rw [hframe]
    rw [hrun] at hwrites
    simpa using hwrites
  exact absurd hsent (by decide +kernel)

end Tdm.Device
