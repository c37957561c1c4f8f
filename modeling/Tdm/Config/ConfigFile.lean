import Tdm.Config.ReadString
import Tdm.Lib.CArray

/-!
# Configuration files

A configuration is made of blocks, a block of sections and a section of items. The lines of its file are
the headers, the items and blank lines. A name in a line is matched as a whole and ignoring case. Of the
value only spaces are stripped, a tab beside it is returned with it.
-/

namespace Tdm.Config

/-! ## The parts of a configuration -/

/-- A character of a name: no blank, line break or special character. -/
def isPlain (c : UInt8) : Bool := c ∉ [0, 9, 10, 13, 32, 35, 36, 61, 91, 93, 123, 125]

structure Name where
  bytes : List UInt8
  nonempty : bytes ≠ []
  plain : bytes.all isPlain = true

/-- Names are compared ignoring case. -/
def Name.Same (a b : Name) : Prop := a.bytes.map tolower = b.bytes.map tolower

instance (a b : Name) : Decidable (a.Same b) := inferInstanceAs (Decidable (_ = _))

/-- Spaces and tabs. -/
structure Blanks where
  bytes : List UInt8
  blank : bytes.all isBlank = true

/-- Text up to the end of a line. -/
structure Rest where
  bytes : List UInt8
  line : 10 ∉ bytes

/-- A value: not empty, no comment or line break in it, no blank around it. -/
structure Value where
  bytes : List UInt8
  nonempty : bytes ≠ []
  plain : bytes.all (fun c => c ∉ [0, 10, 13, 35]) = true
  first : (bytes.head?.map isBlank) = some false
  last : (bytes.getLast?.map isBlank) = some false

/-- The line of a block or a section; what is behind the closing bracket does not matter. -/
structure Header where
  lead : Blanks
  name : Name
  tail : Rest

structure Item where
  lead : Blanks
  name : Name
  before : Blanks
  after : Blanks
  value : Value
  trail : Blanks
  comment : Option Rest

inductive Line where
  | blank (lead : Blanks)
  | block (header : Header)
  | sect (header : Header)
  | item (item : Item)

/-- The comment behind a value. -/
def Item.note (i : Item) : List UInt8 := i.comment.elim [] fun r => 35 :: r.bytes

/-- A line as it is written. -/
def Line.text : Line → List UInt8
  | .blank lead => lead.bytes
  | .block h => h.lead.bytes ++ ([123, 36] ++ (h.name.bytes ++ 125 :: h.tail.bytes))
  | .sect h => h.lead.bytes ++ ([91] ++ (h.name.bytes ++ 93 :: h.tail.bytes))
  | .item i => i.lead.bytes ++ (i.name.bytes ++ (i.before.bytes ++
      61 :: (i.after.bytes ++ (i.value.bytes ++ (i.trail.bytes ++ i.note)))))

/-- A line of a section: an item or a blank line. -/
inductive Entry where
  | blank (lead : Blanks)
  | item (item : Item)

def Entry.line : Entry → Line
  | .blank lead => .blank lead
  | .item i => .item i

/-- Two entries are not items of one name. -/
def Entry.Differ : Entry → Entry → Prop
  | .item i, .item j => ¬ i.name.Same j.name
  | _, _ => True

structure Sect where
  header : Header
  entries : List Entry
  distinct : entries.Pairwise Entry.Differ

structure Block where
  header : Header
  gap : List Blanks
  sections : List Sect
  distinct : sections.Pairwise fun a b => ¬ a.header.name.Same b.header.name

def Sect.lines (s : Sect) : List Line := .sect s.header :: s.entries.map Entry.line

def Block.lines (b : Block) : List Line :=
  .block b.header :: (b.gap.map Line.blank ++ b.sections.flatMap Sect.lines)

structure ConfigFile where
  gap : List Blanks
  blocks : List Block
  distinct : blocks.Pairwise fun a b => ¬ a.header.name.Same b.header.name
  short : ∀ l ∈ gap.map Line.blank ++ blocks.flatMap Block.lines, l.text.length < 1023

def ConfigFile.lines (c : ConfigFile) : List Line := c.gap.map Line.blank ++ c.blocks.flatMap Block.lines

/-- The bytes of the file, with or without a newline behind the last line. -/
def ConfigFile.bytes (c : ConfigFile) (newline : Bool) : List UInt8 :=
  if newline then c.lines.flatMap fun l => l.text ++ [10]
  else (c.lines.dropLast.flatMap fun l => l.text ++ [10]) ++ (c.lines.getLast?.map Line.text).getD []

/-- Where an item stands in a configuration. -/
structure Place (c : ConfigFile) (sBlock sSection sItem : Name) where
  blocks : List Block
  block : Block
  laterBlocks : List Block
  sections : List Sect
  sect : Sect
  laterSections : List Sect
  entries : List Entry
  item : Item
  laterEntries : List Entry
  inConfig : c.blocks = blocks ++ block :: laterBlocks
  inBlock : block.sections = sections ++ sect :: laterSections
  inSection : sect.entries = entries ++ .item item :: laterEntries
  sameBlock : sBlock.Same block.header.name
  sameSection : sSection.Same sect.header.name
  sameItem : sItem.Same item.name

/-- The lines behind an item. -/
def Place.rest {c : ConfigFile} {b s i : Name} (p : Place c b s i) : List Line :=
  p.laterEntries.map Entry.line ++ (p.laterSections.flatMap Sect.lines ++ p.laterBlocks.flatMap Block.lines)

/-- The item is the last line of the configuration. -/
def Place.Last {c : ConfigFile} {b s i : Name} (p : Place c b s i) : Prop :=
  p.laterBlocks = [] ∧ p.laterSections = [] ∧ p.laterEntries = []

/-! ## Names in a line -/

section Names

/-- The characters that stand behind a name in a line. -/
def delimiters : List UInt8 := [9, 10, 32, 61, 93, 125]

theorem tolower_delimiter {a d : UInt8} (ha : isPlain a = true) (hd : d ∈ delimiters) :
    tolower d ≠ tolower a := by
  have hall := Lib.forall_byte
    (P := fun a => isPlain a = true → (delimiters.all fun d => tolower d ≠ tolower a) = true)
    (by decide +kernel) a ha
  exact of_decide_eq_true (List.all_eq_true.mp hall d hd)

theorem head_plain (n : Name) : ∃ c u, n.bytes = c :: u ∧ isPlain c = true := by
  obtain ⟨c, u, h⟩ := List.exists_cons_of_ne_nil n.nonempty
  have hplain := n.plain
  rw [h, List.all_cons, Bool.and_eq_true] at hplain
  exact ⟨c, u, h, hplain.1⟩

/-- A name is skipped as a whole and ignoring case; what is left of a longer one begins with a plain
character. -/
theorem skipName_delimiter {q n : List UInt8} (hq : q.all isPlain = true) (hn : n.all isPlain = true)
    {d : UInt8} (hd : d ∈ delimiters) (x : List UInt8) :
    q.map tolower = n.map tolower ∧ skipName q (n ++ d :: x) = some (d :: x) ∨
    q.map tolower ≠ n.map tolower ∧ (skipName q (n ++ d :: x) = none ∨
      ∃ c y, isPlain c = true ∧ skipName q (n ++ d :: x) = some (c :: y)) := by
  induction q generalizing n with
  | nil =>
    cases n with
    | nil => exact .inl ⟨rfl, rfl⟩
    | cons c n =>
      rw [List.all_cons, Bool.and_eq_true] at hn
      exact .inr ⟨by simp, .inr ⟨c, n ++ d :: x, hn.1, rfl⟩⟩
  | cons a q ih =>
    rw [List.all_cons, Bool.and_eq_true] at hq
    cases n with
    | nil =>
      refine .inr ⟨by simp, .inl ?_⟩
      rw [List.nil_append, skipName, if_neg (tolower_delimiter hq.1 hd)]
    | cons c n =>
      rw [List.all_cons, Bool.and_eq_true] at hn
      rw [List.cons_append, skipName, List.map_cons, List.map_cons, List.cons.injEq, Ne, List.cons.injEq]
      by_cases hc : tolower c = tolower a
      · rw [if_pos hc]
        simp only [hc, true_and]
        exact ih hq.2 hn.2
      · rw [if_neg hc]
        exact .inr ⟨fun h => hc h.1.symm, .inl rfl⟩

end Names

/-! ## Lines as the loops see them -/

section Lines

theorem cstring_append_left {x : List UInt8} (h : 0 ∉ x) (y : List UInt8) :
    cstring (x ++ y) = x ++ cstring y := Lib.takeWhile_ne h y

theorem notMem_of_all {p : UInt8 → Bool} {x : List UInt8} {c : UInt8} (h : x.all p = true)
    (hp : p c = false) : c ∉ x := by
  intro hmem
  rw [List.all_eq_true.mp h c hmem] at hp
  cases hp

theorem skipBlanks_append (x : Blanks) {y : List UInt8} {c : UInt8} (hhead : y.head? = some c)
    (hc : isBlank c = false) : skipBlanks (x.bytes ++ y) = y := by
  obtain ⟨u, rfl⟩ := List.head?_eq_some_iff.mp hhead
  unfold skipBlanks
  rw [List.dropWhile_append_of_pos (List.all_eq_true.mp x.blank),
    List.dropWhile_cons_of_neg (by rw [hc]; decide)]

/-- A line behind its leading blanks, up to a terminator in it. -/
def Line.body : Line → List UInt8
  | .blank _ => [10]
  | .block h => [123, 36] ++ (h.name.bytes ++ 125 :: cstring (h.tail.bytes ++ [10]))
  | .sect h => [91] ++ (h.name.bytes ++ 93 :: cstring (h.tail.bytes ++ [10]))
  | .item i => i.name.bytes ++ (i.before.bytes ++ 61 :: (i.after.bytes ++ (i.value.bytes ++
      (i.trail.bytes ++ cstring (i.note ++ [10])))))

theorem isBlank_of_isPlain {c : UInt8} (h : isPlain c = true) : isBlank c = false := by
  have hall := Lib.forall_byte (P := fun c => isPlain c = true → isBlank c = false) (by decide +kernel)
  exact hall c h

/-- The first character of a line behind its blanks. -/
theorem head_body (l : Line) : ∃ c, l.body.head? = some c ∧ isBlank c = false := by
  cases l with
  | blank lead => exact ⟨10, rfl, rfl⟩
  | block h => exact ⟨123, rfl, rfl⟩
  | sect h => exact ⟨91, rfl, rfl⟩
  | item i =>
    obtain ⟨c, u, hname, hc⟩ := head_plain i.name
    refine ⟨c, ?_, isBlank_of_isPlain hc⟩
    rw [Line.body, hname]
    rfl

theorem Blanks.zero_notMem (x : Blanks) : 0 ∉ x.bytes := notMem_of_all x.blank rfl

theorem Name.zero_notMem (n : Name) : 0 ∉ n.bytes := notMem_of_all n.plain rfl

theorem cstring_cons {c : UInt8} (hc : c ≠ 0) (x : List UInt8) : cstring (c :: x) = c :: cstring x :=
  List.takeWhile_cons_of_pos (decide_eq_true hc)

theorem cstring_header (h : Header) {opening : List UInt8} (ho : 0 ∉ opening) {closing : UInt8}
    (hc : closing ≠ 0) :
    cstring (h.lead.bytes ++ (opening ++ (h.name.bytes ++ closing :: h.tail.bytes)) ++ [10]) =
      h.lead.bytes ++ (opening ++ (h.name.bytes ++ closing :: cstring (h.tail.bytes ++ [10]))) := by
  rw [List.append_assoc, cstring_append_left h.lead.zero_notMem, List.append_assoc,
    cstring_append_left ho, List.append_assoc, cstring_append_left h.name.zero_notMem, List.cons_append,
    cstring_cons hc]

theorem cstring_text (l : Line) : ∃ lead : Blanks, cstring (l.text ++ [10]) = lead.bytes ++ l.body := by
  cases l with
  | blank lead => exact ⟨lead, cstring_append_left lead.zero_notMem [10]⟩
  | block h => exact ⟨h.lead, cstring_header h (by decide) (by decide)⟩
  | sect h => exact ⟨h.lead, cstring_header h (by decide) (by decide)⟩
  | item i =>
    have hvalue : 0 ∉ i.value.bytes := notMem_of_all i.value.plain rfl
    refine ⟨i.lead, ?_⟩
    rw [Line.text, Line.body]
    simp only [List.append_assoc, List.cons_append]
    rw [cstring_append_left i.lead.zero_notMem, cstring_append_left i.name.zero_notMem,
      cstring_append_left i.before.zero_notMem, cstring_cons (by decide),
      cstring_append_left i.after.zero_notMem, cstring_append_left hvalue,
      cstring_append_left i.trail.zero_notMem]

theorem skipBlanks_line (l : Line) : skipBlanks (cstring (l.text ++ [10])) = l.body := by
  obtain ⟨lead, hlead⟩ := cstring_text l
  obtain ⟨c, hc, hblank⟩ := head_body l
  rw [hlead, skipBlanks_append lead hc hblank]

/-- A header is found by its name. -/
theorem isHeader_iff (q n : Name) (opening : List UInt8) {closing : UInt8} (hclosing : closing ∈ delimiters)
    (x : List UInt8) :
    isHeader opening q.bytes closing (opening ++ (n.bytes ++ closing :: x)) = true ↔ q.Same n := by
  unfold isHeader Name.Same
  rw [List.take_left' rfl, List.drop_left' rfl]
  obtain ⟨hsame, hskip⟩ | ⟨hdiffer, hskip | ⟨c, y, hc, hskip⟩⟩ :=
    skipName_delimiter q.plain n.plain hclosing x
  · simp [hsame, hskip]
  · simp [hdiffer, hskip]
  · have hne : c ≠ closing := by
      rintro rfl
      exact tolower_delimiter hc hclosing rfl
    simp [hdiffer, hskip, hne]

theorem isHeader_of_head {opening x : List UInt8} {q : List UInt8} {closing o c : UInt8}
    (hopening : opening.head? = some o) (hx : x.head? = some c) (hne : c ≠ o) :
    isHeader opening q closing x = false := by
  obtain ⟨u, rfl⟩ := List.head?_eq_some_iff.mp hopening
  obtain ⟨v, rfl⟩ := List.head?_eq_some_iff.mp hx
  simp [isHeader, hne]

end Lines

/-! ## The value -/

/-- What `ReadString` returns of an item. -/
def Item.result (i : Item) : List UInt8 := trim (i.after.bytes ++ (i.value.bytes ++ i.trail.bytes))

theorem Item.notMem_text (i : Item) {c : UInt8} (hc : c ∈ [(0 : UInt8), 10, 13, 35]) :
    c ∉ i.after.bytes ++ (i.value.bytes ++ i.trail.bytes) := by
  have hblank : isBlank c = false := by
    revert hc
    exact Lib.forall_byte (P := fun c => c ∈ [(0 : UInt8), 10, 13, 35] → isBlank c = false)
      (by decide +kernel) c
  have hvalue : c ∉ i.value.bytes := notMem_of_all i.value.plain (decide_eq_false (not_not.mpr hc))
  rw [List.mem_append, List.mem_append, not_or, not_or]
  exact ⟨notMem_of_all i.after.blank hblank, hvalue, notMem_of_all i.trail.blank hblank⟩

/-- The comment and the end of the line are cut off, then spaces are stripped. -/
theorem resultOf_item (i : Item) : resultOf (i.after.bytes ++ (i.value.bytes ++ (i.trail.bytes ++
    cstring (i.note ++ [10])))) = some i.result := by
  have hsplit : i.after.bytes ++ (i.value.bytes ++ (i.trail.bytes ++ cstring (i.note ++ [10]))) =
      i.after.bytes ++ (i.value.bytes ++ i.trail.bytes) ++ cstring (i.note ++ [10]) := by simp
  -- behind the value stands a newline, or a comment that is cut off with it
  have hnote : ((cstring (i.note ++ [10])).takeWhile (· ≠ 35)).takeWhile (· ≠ 10) = [] := by
    unfold Item.note
    cases i.comment with
    | none => rfl
    | some r => rfl
  have hzero := i.notMem_text (c := 0) (by decide)
  have htrim : 0 ∉ i.result := mt mem_of_mem_trim hzero
  obtain ⟨junk, -, hresult⟩ := allTrim_eq hzero []
  have hcut := Lib.takeWhile_ne_self (i.notMem_text (c := 13) (by decide))
  unfold resultOf
  rw [hsplit]
  simp only [Lib.takeWhile_ne (i.notMem_text (c := 35) (by decide)),
    Lib.takeWhile_ne (i.notMem_text (c := 10) (by decide)), hnote, List.append_nil, hcut, hresult]
  exact congrArg some (cstring_append htrim _)

theorem dropWhile_append_keep {p : UInt8 → Bool} {x : List UInt8} {c : UInt8} (hx : x.head? = some c)
    (hc : p c = false) (g : List UInt8) : (g ++ x).dropWhile p = g.dropWhile p ++ x := by
  obtain ⟨u, rfl⟩ := List.head?_eq_some_iff.mp hx
  induction g with
  | nil => exact List.dropWhile_cons_of_neg (by rw [hc]; decide)
  | cons a g ih =>
    rw [List.cons_append, List.dropWhile_cons, List.dropWhile_cons, ih]
    split
    · rfl
    · rfl

theorem rdropWhile_append_keep {p : UInt8 → Bool} {x : List UInt8} {c : UInt8}
    (hx : x.getLast? = some c) (hc : p c = false) (t : List UInt8) :
    (x ++ t).rdropWhile p = x ++ t.rdropWhile p := by
  rw [← List.head?_reverse] at hx
  unfold List.rdropWhile
  rw [List.reverse_append, dropWhile_append_keep hx hc, List.reverse_append, List.reverse_reverse]

/-- Blanks without a tab are spaces. -/
theorem Blanks.spaces_iff (x : Blanks) : (∀ c ∈ x.bytes, decide (c = 32) = true) ↔ 9 ∉ x.bytes := by
  constructor
  · intro hall hmem
    exact absurd (hall 9 hmem) (by decide)
  · intro htab c hc
    have hblank := List.all_eq_true.mp x.blank c hc
    unfold isBlank at hblank
    rw [Bool.or_eq_true] at hblank
    refine hblank.resolve_right fun hnine => ?_
    rw [of_decide_eq_true hnine] at hc
    exact htab hc

/-- Spaces around the value are stripped, up to the first tab on either side. -/
theorem Item.result_eq (i : Item) : i.result =
    i.after.bytes.dropWhile (· = 32) ++ (i.value.bytes ++ i.trail.bytes.rdropWhile (· = 32)) := by
  have hspace {c : UInt8} (hc : isBlank c = false) : decide (c = 32) = false := by
    rw [decide_eq_false_iff_not]
    rintro rfl
    cases hc
  obtain ⟨c, hfirst, hc⟩ := Option.map_eq_some_iff.mp i.value.first
  obtain ⟨d, hlast, hd⟩ := Option.map_eq_some_iff.mp i.value.last
  have hhead : (i.value.bytes ++ i.trail.bytes).head? = some c := by
    rw [List.head?_append, hfirst]
    rfl
  have hgetLast : (i.after.bytes.dropWhile (· = 32) ++ i.value.bytes).getLast? = some d := by
    rw [List.getLast?_append, hlast]
    rfl
  unfold Item.result trim
  rw [dropWhile_append_keep hhead (hspace hc), ← List.append_assoc,
    rdropWhile_append_keep hgetLast (hspace hd), List.append_assoc]

/-- The value is returned as it is written if and only if no tab stands beside it. -/
theorem Item.result_eq_iff (i : Item) :
    i.result = i.value.bytes ↔ 9 ∉ i.after.bytes ∧ 9 ∉ i.trail.bytes := by
  rw [i.result_eq, ← i.after.spaces_iff, ← i.trail.spaces_iff, ← List.dropWhile_eq_nil_iff,
    ← List.rdropWhile_eq_nil_iff]
  constructor
  · intro h
    have hlen := congrArg List.length h
    rw [List.length_append, List.length_append] at hlen
    exact ⟨List.length_eq_zero_iff.mp (by omega), List.length_eq_zero_iff.mp (by omega)⟩
  · rintro ⟨hafter, htrail⟩
    rw [hafter, htrail, List.nil_append, List.append_nil]

end Tdm.Config
