import Tdm.Config.ConfigFile

/-!
# Finding an item in a configuration file

The three loops of `ReadString` search the lines of the file (`seekBlock_lines`). In a configuration the
search ends at the item of the names it is given (`findBlock_place`), and nowhere if there is none. The
lines it has are those that end with a newline, so an item on a last line without one is not found.
-/

namespace Tdm.Config

/-! ## The search -/

def findItem (i : Name) : List Line → Option (Item × List Line)
  | [] => none
  | .blank _ :: ls => findItem i ls
  | .block _ :: _ => none
  | .sect _ :: _ => none
  | .item it :: ls => if i.Same it.name then some (it, ls) else findItem i ls

def findSection (s i : Name) : List Line → Option (Item × List Line)
  | [] => none
  | .blank _ :: ls => findSection s i ls
  | .block _ :: _ => none
  | .sect h :: ls => if s.Same h.name then findItem i ls else findSection s i ls
  | .item _ :: ls => findSection s i ls

def findBlock (b s i : Name) : List Line → Option (Item × List Line)
  | [] => none
  | .blank _ :: ls => findBlock b s i ls
  | .block h :: ls => if b.Same h.name then findSection s i ls else findBlock b s i ls
  | .sect _ :: ls => findBlock b s i ls
  | .item _ :: ls => findBlock b s i ls

/-! ## The loops search the lines -/

section Loops

/-- A line as `fgets` delivers it. -/
def Line.read (l : Line) : List UInt8 := cstring (l.text ++ [10])

/-- The return value and `sResult` of a search. -/
def answer (found : Option (Item × List Line)) : Option (ℤ × Option (List UInt8)) :=
  found.elim (some (0, none)) fun r => some (1, some r.1.result)

/-- An item does not begin with a special character. -/
theorem head_item (i : Item) {o : UInt8} (ho : isPlain o = false) :
    ∃ c u, (Line.item i).body = c :: u ∧ c ≠ o := by
  obtain ⟨c, u, hname, hc⟩ := head_plain i.name
  refine ⟨c, _, by rw [Line.body, hname, List.cons_append], ?_⟩
  rintro rfl
  rw [hc] at ho
  cases ho

theorem opensBlock_body (l : Line) : opensBlock l.body = true ↔ ∃ h, l = .block h := by
  cases l with
  | blank lead => simp [Line.body, opensBlock]
  | block h => simp [Line.body, opensBlock]
  | sect h => simp [Line.body, opensBlock]
  | item i =>
    obtain ⟨c, u, hbody, hne⟩ := head_item i (o := 123) rfl
    simp [hbody, opensBlock, hne]

theorem opensSection_body (l : Line) : opensSection l.body = true ↔ ∃ h, l = .sect h := by
  cases l with
  | blank lead => simp [Line.body, opensSection]
  | block h => simp [Line.body, opensSection]
  | sect h => simp [Line.body, opensSection]
  | item i =>
    obtain ⟨c, u, hbody, hne⟩ := head_item i (o := 91) rfl
    simp [hbody, opensSection, hne]

theorem itemText_blank (q : Name) : itemText q.bytes [10] = none := by
  obtain ⟨a, u, hname, ha⟩ := head_plain q
  unfold itemText
  rw [hname, skipName, if_neg (tolower_delimiter ha (by decide))]
  rfl

/-- The blanks before the `=` are skipped. -/
theorem itemText_item (q : Name) (i : Item) (x : List UInt8) :
    itemText q.bytes (i.name.bytes ++ (i.before.bytes ++ 61 :: x)) =
      if q.Same i.name then some x else none := by
  -- the first character behind the name
  obtain ⟨d, y, hd, hy⟩ : ∃ d y, d ∈ delimiters ∧ i.before.bytes ++ 61 :: x = d :: y := by
    have hblank := i.before.blank
    cases hbefore : i.before.bytes with
    | nil => exact ⟨61, x, by decide, rfl⟩
    | cons d u =>
      rw [hbefore, List.all_cons, Bool.and_eq_true] at hblank
      refine ⟨d, u ++ 61 :: x, ?_, rfl⟩
      have hd := hblank.1
      unfold isBlank at hd
      rw [Bool.or_eq_true, decide_eq_true_eq, decide_eq_true_eq] at hd
      obtain rfl | rfl := hd
      · decide
      · decide
  have hskip : skipBlanks (d :: y) = 61 :: x := by
    rw [← hy, skipBlanks_append i.before (y := 61 :: x) rfl rfl]
  unfold itemText
  rw [hy]
  obtain ⟨hsame, hname⟩ | ⟨hdiffer, hname | ⟨c, z, hc, hname⟩⟩ :=
    skipName_delimiter q.plain i.name.plain hd y
  · rw [hname, if_pos (show q.Same i.name from hsame)]
    simp [hskip]
  · rw [hname, if_neg (show ¬ q.Same i.name from hdiffer)]
    rfl
  · have hblank : skipBlanks (c :: z) = c :: z :=
      List.dropWhile_cons_of_neg (by rw [isBlank_of_isPlain hc]; decide)
    have hne : c ≠ 61 := by
      rintro rfl
      cases hc
    rw [hname, if_neg (show ¬ q.Same i.name from hdiffer)]
    simp [hblank, hne]

theorem seekItem_lines (q : Name) (ls : List Line) :
    seekItem q.bytes (ls.map Line.read) = answer (findItem q ls) := by
  induction ls with
  | nil => rfl
  | cons l ls ih =>
    rw [List.map_cons, seekItem]
    simp only [Line.read, skipBlanks_line]
    cases l with
    | blank lead =>
      have hblock := mt (opensBlock_body (.blank lead)).mp (by simp)
      have hsection := mt (opensSection_body (.blank lead)).mp (by simp)
      rw [if_neg (by simp [hblock, hsection]), Line.body, itemText_blank, findItem]
      exact ih
    | block h => rw [if_pos (by rw [(opensBlock_body _).mpr ⟨h, rfl⟩, Bool.or_true])]; rfl
    | sect h => rw [if_pos (by rw [(opensSection_body _).mpr ⟨h, rfl⟩, Bool.true_or])]; rfl
    | item i =>
      have hblock := mt (opensBlock_body (.item i)).mp (by simp)
      have hsection := mt (opensSection_body (.item i)).mp (by simp)
      rw [if_neg (by simp [hblock, hsection]), Line.body, itemText_item, findItem]
      by_cases hsame : q.Same i.name
      · rw [if_pos hsame, if_pos hsame, Option.elim_some, resultOf_item]
        rfl
      · rw [if_neg hsame, if_neg hsame]
        exact ih

theorem seekSection_lines (s q : Name) (ls : List Line) :
    seekSection s.bytes q.bytes (ls.map Line.read) = answer (findSection s q ls) := by
  induction ls with
  | nil => rfl
  | cons l ls ih =>
    rw [List.map_cons, seekSection]
    simp only [Line.read, skipBlanks_line]
    cases l with
    | blank lead =>
      rw [if_neg (mt (opensBlock_body _).mp (by simp)), isHeader_of_head (o := 91) rfl rfl (by decide)]
      exact ih
    | block h => rw [if_pos ((opensBlock_body _).mpr ⟨h, rfl⟩)]; rfl
    | sect h =>
      rw [if_neg (mt (opensBlock_body _).mp (by simp)), findSection]
      by_cases hsame : s.Same h.name
      · rw [if_pos hsame, Line.body, if_pos ((isHeader_iff s h.name [91] (by decide) _).mpr hsame)]
        exact seekItem_lines q ls
      · rw [if_neg hsame, Line.body, if_neg (mt (isHeader_iff s h.name [91] (by decide) _).mp hsame)]
        exact ih
    | item i =>
      obtain ⟨c, u, hbody, hne⟩ := head_item i (o := 91) rfl
      have hhead : (Line.item i).body.head? = some c := by rw [hbody, List.head?_cons]
      rw [if_neg (mt (opensBlock_body _).mp (by simp)), isHeader_of_head (o := 91) rfl hhead hne]
      exact ih

theorem seekBlock_lines (b s q : Name) (ls : List Line) :
    seekBlock b.bytes s.bytes q.bytes (ls.map Line.read) = answer (findBlock b s q ls) := by
  induction ls with
  | nil => rfl
  | cons l ls ih =>
    rw [List.map_cons, seekBlock]
    simp only [Line.read, skipBlanks_line]
    cases l with
    | blank lead =>
      rw [isHeader_of_head (o := 123) rfl rfl (by decide)]
      exact ih
    | block h =>
      rw [findBlock]
      by_cases hsame : b.Same h.name
      · rw [if_pos hsame, Line.body, if_pos ((isHeader_iff b h.name [123, 36] (by decide) _).mpr hsame)]
        exact seekSection_lines s q ls
      · rw [if_neg hsame, Line.body, if_neg (mt (isHeader_iff b h.name [123, 36] (by decide) _).mp hsame)]
        exact ih
    | sect h =>
      rw [isHeader_of_head (o := 123) rfl rfl (by decide)]
      exact ih
    | item i =>
      obtain ⟨c, u, hbody, hne⟩ := head_item i (o := 123) rfl
      have hhead : (Line.item i).body.head? = some c := by rw [hbody, List.head?_cons]
      rw [isHeader_of_head (o := 123) rfl hhead hne]
      exact ih

end Loops

/-! ## Where the search ends -/

/-- The line of a block or a section. -/
def Line.opens : Line → Bool
  | .blank _ | .item _ => false
  | .block _ | .sect _ => true

/-- The line of a block. -/
def Line.opensBlock : Line → Bool
  | .blank _ | .item _ | .sect _ => false
  | .block _ => true

theorem opensBlock_of_opens {l : Line} (h : l.opens = false) : l.opensBlock = false := by
  cases l with
  | blank lead => rfl
  | block header => cases h
  | sect header => rfl
  | item it => rfl

theorem opens_blanks (gap : List Blanks) : ∀ l ∈ gap.map Line.blank, l.opens = false := by
  intro l hl
  obtain ⟨lead, -, rfl⟩ := List.mem_map.mp hl
  rfl

theorem opens_entries (es : List Entry) : ∀ l ∈ es.map Entry.line, l.opens = false := by
  intro l hl
  obtain ⟨e, -, rfl⟩ := List.mem_map.mp hl
  cases e with
  | blank lead => rfl
  | item it => rfl

theorem opensBlock_sections (ss : List Sect) : ∀ l ∈ ss.flatMap Sect.lines, l.opensBlock = false := by
  intro l hl
  obtain ⟨t, -, hl⟩ := List.mem_flatMap.mp hl
  rcases List.mem_cons.mp hl with rfl | hl
  · rfl
  · exact opensBlock_of_opens (opens_entries t.entries l hl)

section Search
variable (b s i : Name)

/-- The search without the last line: an item that stands there is not found. -/
def withoutLast (found : Option (Item × List Line)) : Option (Item × List Line) :=
  found.bind fun r => if r.2 = [] then none else some (r.1, r.2.dropLast)

theorem findItem_dropLast (ls : List Line) :
    findItem i ls.dropLast = withoutLast (findItem i ls) := by
  induction ls with
  | nil => rfl
  | cons l ls ih =>
    cases ls with
    | nil =>
      cases l with
      | blank lead => rfl
      | block h => rfl
      | sect h => rfl
      | item it =>
        rw [findItem]
        split
        · rfl
        · rfl
    | cons l' ls =>
      rw [List.dropLast_cons_cons]
      cases l with
      | blank lead => exact ih
      | block h => rfl
      | sect h => rfl
      | item it =>
        rw [findItem, findItem]
        split
        · rfl
        · exact ih

theorem findSection_dropLast (ls : List Line) :
    findSection s i ls.dropLast = withoutLast (findSection s i ls) := by
  induction ls with
  | nil => rfl
  | cons l ls ih =>
    cases ls with
    | nil =>
      cases l with
      | blank lead => rfl
      | block h => rfl
      | sect h =>
        rw [findSection]
        split
        · rfl
        · rfl
      | item it => rfl
    | cons l' ls =>
      rw [List.dropLast_cons_cons]
      cases l with
      | blank lead => exact ih
      | block h => rfl
      | sect h =>
        rw [findSection, findSection]
        split
        · exact findItem_dropLast i (l' :: ls)
        · exact ih
      | item it => exact ih

theorem findBlock_dropLast (ls : List Line) :
    findBlock b s i ls.dropLast = withoutLast (findBlock b s i ls) := by
  induction ls with
  | nil => rfl
  | cons l ls ih =>
    cases ls with
    | nil =>
      cases l with
      | blank lead => rfl
      | block h =>
        rw [findBlock]
        split
        · rfl
        · rfl
      | sect h => rfl
      | item it => rfl
    | cons l' ls =>
      rw [List.dropLast_cons_cons]
      cases l with
      | blank lead => exact ih
      | block h =>
        rw [findBlock, findBlock]
        split
        · exact findSection_dropLast s i (l' :: ls)
        · exact ih
      | sect h => exact ih
      | item it => exact ih

/-- Entries of other names are passed over. -/
theorem findItem_entries {es : List Entry} (h : ∀ it, Entry.item it ∈ es → ¬ i.Same it.name)
    (ls : List Line) : findItem i (es.map Entry.line ++ ls) = findItem i ls := by
  induction es with
  | nil => rfl
  | cons e es ih =>
    have htail := ih fun it hit => h it (List.mem_cons_of_mem _ hit)
    cases e with
    | blank lead => exact htail
    | item it =>
      rw [List.map_cons, List.cons_append, Entry.line, findItem, if_neg (h it (List.mem_cons_self ..))]
      exact htail

/-- No item of a section is one of the next section or block. -/
theorem findItem_behind (ss : List Sect) (bs : List Block) :
    findItem i (ss.flatMap Sect.lines ++ bs.flatMap Block.lines) = none := by
  cases ss with
  | cons t ss => rfl
  | nil =>
    cases bs with
    | nil => rfl
    | cons a bs => rfl

theorem findSection_behind (bs : List Block) : findSection s i (bs.flatMap Block.lines) = none := by
  cases bs with
  | nil => rfl
  | cons a bs => rfl

/-- Inside a section the next one is not found. -/
theorem findSection_skip {xs : List Line} (h : ∀ l ∈ xs, l.opens = false) (ls : List Line) :
    findSection s i (xs ++ ls) = findSection s i ls := by
  induction xs with
  | nil => rfl
  | cons l xs ih =>
    have htail := ih fun l' hl' => h l' (List.mem_cons_of_mem _ hl')
    have hl := h l (List.mem_cons_self ..)
    cases l with
    | blank lead => exact htail
    | block header => cases hl
    | sect header => cases hl
    | item it => exact htail

theorem findSection_sections {ss : List Sect} (h : ∀ t ∈ ss, ¬ s.Same t.header.name) (ls : List Line) :
    findSection s i (ss.flatMap Sect.lines ++ ls) = findSection s i ls := by
  induction ss with
  | nil => rfl
  | cons t ss ih =>
    rw [List.flatMap_cons, List.append_assoc, Sect.lines, List.cons_append, findSection,
      if_neg (h t (List.mem_cons_self ..)), findSection_skip s i (opens_entries t.entries)]
    exact ih fun t' ht' => h t' (List.mem_cons_of_mem _ ht')

/-- Inside a block the next one is not found. -/
theorem findBlock_skip {xs : List Line} (h : ∀ l ∈ xs, l.opensBlock = false) (ls : List Line) :
    findBlock b s i (xs ++ ls) = findBlock b s i ls := by
  induction xs with
  | nil => rfl
  | cons l xs ih =>
    have htail := ih fun l' hl' => h l' (List.mem_cons_of_mem _ hl')
    have hl := h l (List.mem_cons_self ..)
    cases l with
    | blank lead => exact htail
    | block header => cases hl
    | sect header => exact htail
    | item it => exact htail

theorem findBlock_blocks {bs : List Block} (h : ∀ a ∈ bs, ¬ b.Same a.header.name) (ls : List Line) :
    findBlock b s i (bs.flatMap Block.lines ++ ls) = findBlock b s i ls := by
  induction bs with
  | nil => rfl
  | cons a bs ih =>
    rw [List.flatMap_cons, List.append_assoc, Block.lines, List.cons_append, findBlock,
      if_neg (h a (List.mem_cons_self ..)), List.append_assoc,
      findBlock_skip b s i (fun l hl => opensBlock_of_opens (opens_blanks a.gap l hl)),
      findBlock_skip b s i (opensBlock_sections a.sections)]
    exact ih fun a' ha' => h a' (List.mem_cons_of_mem _ ha')

end Search

/-! ## Finding an item -/

section Find
variable {c : ConfigFile} {b s i : Name}

/-- The names before the one that is looked for are different from it. -/
theorem not_same_of_pairwise {α : Type*} (name : α → Name) {l r : List α} {x : α} {q : Name}
    (h : (l ++ x :: r).Pairwise fun a b => ¬ (name a).Same (name b)) (hq : q.Same (name x)) :
    ∀ a ∈ l, ¬ q.Same (name a) := by
  intro a ha hsame
  have hdiffer := (List.pairwise_append.mp h).2.2 a ha x (List.mem_cons_self ..)
  exact hdiffer (hsame.symm.trans hq)

theorem Place.not_same_item (p : Place c b s i) :
    ∀ it, Entry.item it ∈ p.entries → ¬ i.Same it.name := by
  intro it hit hsame
  have hdistinct := p.sect.distinct
  rw [p.inSection] at hdistinct
  have hdiffer := (List.pairwise_append.mp hdistinct).2.2 _ hit _ (List.mem_cons_self ..)
  exact hdiffer (Eq.trans (Eq.symm hsame) p.sameItem)

theorem findBlock_place (p : Place c b s i) : findBlock b s i c.lines = some (p.item, p.rest) := by
  have hblocks := not_same_of_pairwise (fun a : Block => a.header.name) (p.inConfig ▸ c.distinct)
    p.sameBlock
  have hsections := not_same_of_pairwise (fun t : Sect => t.header.name) (p.inBlock ▸ p.block.distinct)
    p.sameSection
  have hgap := fun l hl => opensBlock_of_opens (opens_blanks c.gap l hl)
  unfold ConfigFile.lines
  rw [findBlock_skip b s i hgap, p.inConfig, List.flatMap_append, findBlock_blocks b s i hblocks, List.flatMap_cons,
    Block.lines, List.cons_append, findBlock, if_pos p.sameBlock, List.append_assoc,
    findSection_skip s i (opens_blanks p.block.gap), p.inBlock, List.flatMap_append, List.append_assoc, findSection_sections s i hsections,
    List.flatMap_cons, List.append_assoc, Sect.lines, List.cons_append, findSection,
    if_pos p.sameSection, p.inSection, List.map_append, List.append_assoc,
    findItem_entries i p.not_same_item, List.map_cons, List.cons_append, Entry.line, findItem,
    if_pos p.sameItem]
  rfl

/-- Where the search finds nothing there is nothing. -/
theorem findBlock_eq_none (h : IsEmpty (Place c b s i)) : findBlock b s i c.lines = none := by
  unfold ConfigFile.lines
  rw [findBlock_skip b s i fun l hl => opensBlock_of_opens (opens_blanks c.gap l hl)]
  by_cases hb : ∃ a ∈ c.blocks, b.Same a.header.name
  · obtain ⟨a, hmem, hsame⟩ := hb
    obtain ⟨l, r, hconfig⟩ := List.append_of_mem hmem
    have hblocks := not_same_of_pairwise (fun a : Block => a.header.name) (hconfig ▸ c.distinct) hsame
    rw [hconfig, List.flatMap_append, findBlock_blocks b s i hblocks, List.flatMap_cons, Block.lines,
      List.cons_append, findBlock, if_pos hsame, List.append_assoc,
      findSection_skip s i (opens_blanks a.gap)]
    by_cases hs : ∃ t ∈ a.sections, s.Same t.header.name
    · obtain ⟨t, hmem', hsame'⟩ := hs
      obtain ⟨l', r', hblock⟩ := List.append_of_mem hmem'
      have hsections := not_same_of_pairwise (fun t : Sect => t.header.name) (hblock ▸ a.distinct) hsame'
      have hitem : ∀ it, Entry.item it ∈ t.entries → ¬ i.Same it.name := by
        intro it hit hname
        obtain ⟨es, es', hsection⟩ := List.append_of_mem hit
        exact h.elim ⟨l, a, r, l', t, r', es, it, es', hconfig, hblock, hsection, hsame, hsame', hname⟩
      rw [hblock, List.flatMap_append, List.append_assoc, findSection_sections s i hsections,
        List.flatMap_cons, List.append_assoc, Sect.lines, List.cons_append, findSection, if_pos hsame',
        findItem_entries i hitem, findItem_behind]
    · rw [findSection_sections s i (fun t ht hname => hs ⟨t, ht, hname⟩), findSection_behind]
  · have hnone := findBlock_blocks b s i (fun a ha hname => hb ⟨a, ha, hname⟩) []
    rwa [List.append_nil] at hnone

theorem Place.rest_eq_nil_iff (p : Place c b s i) : p.rest = [] ↔ p.Last := by
  have hsect (ss : List Sect) : ss.flatMap Sect.lines = [] ↔ ss = [] := by
    cases ss with
    | nil => simp
    | cons t ss => simp [Sect.lines]
  have hblock (bs : List Block) : bs.flatMap Block.lines = [] ↔ bs = [] := by
    cases bs with
    | nil => simp
    | cons a bs => simp [Block.lines]
  unfold Place.rest Place.Last
  rw [List.append_eq_nil_iff, List.append_eq_nil_iff, List.map_eq_nil_iff, hsect, hblock]
  exact ⟨fun h => ⟨h.2.2, h.2.1, h.1⟩, fun h => ⟨h.2.2, h.2.1, h.1⟩⟩

end Find

/-! ## The file -/

theorem Line.newline_notMem (l : Line) : 10 ∉ l.text := by
  have hblanks (x : Blanks) : 10 ∉ x.bytes := notMem_of_all x.blank rfl
  have hname (n : Name) : 10 ∉ n.bytes := notMem_of_all n.plain rfl
  cases l with
  | blank lead => exact hblanks lead
  | block h => simp [Line.text, hblanks, hname, h.tail.line]
  | sect h => simp [Line.text, hblanks, hname, h.tail.line]
  | item i =>
    have hnote : 10 ∉ i.note := by
      unfold Item.note
      cases i.comment with
      | none => simp
      | some r => simp [r.line]
    have hvalue : 10 ∉ i.value.bytes := notMem_of_all i.value.plain rfl
    simp [Line.text, hblanks, hname, hvalue, hnote]

/-- The lines that are looked at: without a newline behind the last line all but that one. -/
def ConfigFile.seen (c : ConfigFile) (newline : Bool) : List Line :=
  if newline then c.lines else c.lines.dropLast

theorem flatMap_text (ls : List Line) :
    (ls.flatMap fun l => l.text ++ [10]) = (ls.map Line.text).flatMap (· ++ [10]) := by
  rw [List.flatMap_map]

theorem fgetsLines_bytes (c : ConfigFile) (newline : Bool) :
    fgetsLines ((c.bytes newline).length + 1) (c.bytes newline) = (c.seen newline).map Line.read := by
  have hline (l : Line) (hl : l ∈ c.lines) : 10 ∉ l.text ∧ l.text.length < 1023 :=
    ⟨l.newline_notMem, c.short l hl⟩
  have hlines {ls : List Line} (hls : ∀ l ∈ ls, l ∈ c.lines) :
      ∀ t ∈ ls.map Line.text, 10 ∉ t ∧ t.length < 1023 := by
    intro t ht
    obtain ⟨l, hl, rfl⟩ := List.mem_map.mp ht
    exact hline l (hls l hl)
  have hread (ls : List Line) : ((ls.map Line.text).map fun t => cstring (t ++ [10])) = ls.map Line.read := by
    rw [List.map_map]
    rfl
  cases newline with
  | true =>
    have hall := fgetsLines_eq [] (hlines fun l hl => hl) ⟨by simp, by simp⟩
      (Nat.lt_succ_of_le (length_le_flatMap (c.lines.map Line.text)))
    rw [List.append_nil] at hall
    rw [ConfigFile.bytes, if_pos rfl, flatMap_text, hall, hread]
    rfl
  | false =>
    have hrest : 10 ∉ (c.lines.getLast?.map Line.text).getD [] ∧
        ((c.lines.getLast?.map Line.text).getD []).length < 1023 := by
      cases hlast : c.lines.getLast? with
      | none => exact ⟨by simp, by simp⟩
      | some l => exact hline l (List.mem_of_getLast? hlast)
    have hfuel := length_le_flatMap (c.lines.dropLast.map Line.text)
    rw [ConfigFile.bytes, if_neg (by decide), flatMap_text,
      fgetsLines_eq _ (hlines fun l hl => List.dropLast_subset _ hl) hrest
        (by rw [List.length_append]; omega), hread]
    rfl

/-- The search in the lines that are looked at. -/
theorem readString_eq (c : ConfigFile) (newline : Bool) (b s i : Name) :
    readString (some (c.bytes newline)) b.bytes s.bytes i.bytes =
      answer (if newline then findBlock b s i c.lines else withoutLast (findBlock b s i c.lines)) := by
  unfold readString
  rw [Option.elim_some, fgetsLines_bytes, seekBlock_lines]
  unfold ConfigFile.seen
  cases newline with
  | true => rfl
  | false => exact congrArg answer (findBlock_dropLast b s i c.lines)

/-- `ReadString` returns the value of every item there is, unless the item is on the last line and no
newline follows, or a tab stands beside the value; where there is no such item it returns 0. -/
theorem read_string_exact_iff (c : ConfigFile) (newline : Bool) (b s i : Name) :
    (∀ p : Place c b s i,
      (readString (some (c.bytes newline)) b.bytes s.bytes i.bytes = some (1, some p.item.value.bytes) ↔
        (newline = true ∨ ¬ p.Last) ∧ 9 ∉ p.item.after.bytes ∧ 9 ∉ p.item.trail.bytes)) ∧
    (IsEmpty (Place c b s i) →
      readString (some (c.bytes newline)) b.bytes s.bytes i.bytes = some (0, none)) := by
  refine ⟨fun p => ?_, fun h => ?_⟩
  · rw [readString_eq, findBlock_place p, ← p.rest_eq_nil_iff, ← p.item.result_eq_iff]
    cases newline with
    | true => simp [answer]
    | false =>
      by_cases hrest : p.rest = []
      · simp [answer, withoutLast, hrest]
      · simp [answer, withoutLast, hrest]
  · rw [readString_eq, findBlock_eq_none h]
    cases newline with
    | true => rfl
    | false => rfl

section Sample

/-- A name given by its text. -/
def nameOf (t : String) (hne : Lib.text t ≠ []) (hplain : (Lib.text t).all isPlain = true) : Name :=
  ⟨Lib.text t, hne, hplain⟩

def noBlanks : Blanks := ⟨[], rfl⟩

def oneSpace : Blanks := ⟨[32], rfl⟩

def sampleBlock : Name := nameOf "database" (by decide) (by decide)

def sampleSection : Name := nameOf "login" (by decide) (by decide)

def sampleName : Name := nameOf "loginname" (by decide) (by decide)

/-- `loginname = cdma`. -/
def sampleItem : Item where
  lead := noBlanks
  name := sampleName
  before := oneSpace
  after := oneSpace
  value := ⟨Lib.text "cdma", by decide, by decide, by decide, by decide⟩
  trail := noBlanks
  comment := none

def headerOf (name : Name) : Header := ⟨noBlanks, name, ⟨[], List.not_mem_nil⟩⟩

def sampleSect : Sect := ⟨headerOf sampleSection, [.item sampleItem], List.pairwise_singleton ..⟩

/-- A file with one item. -/
def sampleFile : ConfigFile where
  gap := []
  blocks := [⟨headerOf sampleBlock, [], [sampleSect], List.pairwise_singleton ..⟩]
  distinct := List.pairwise_singleton ..
  short := by
    have hall : ((⟨headerOf sampleBlock, [], [sampleSect], List.pairwise_singleton ..⟩ : Block).lines.all
      fun l => l.text.length < 1023) = true := by decide
    intro l hl
    exact of_decide_eq_true (List.all_eq_true.mp hall l (by simpa using hl))

def samplePlace : Place sampleFile sampleBlock sampleSection sampleName where
  blocks := []
  block := ⟨headerOf sampleBlock, [], [sampleSect], List.pairwise_singleton ..⟩
  laterBlocks := []
  sections := []
  sect := sampleSect
  laterSections := []
  entries := []
  item := sampleItem
  laterEntries := []
  inConfig := rfl
  inBlock := rfl
  inSection := rfl
  sameBlock := rfl
  sameSection := rfl
  sameItem := rfl

theorem read_string_exact_iff_sample :
    readString (some (Lib.text "\x7b$database\x7d\n[login]\nloginname = cdma\n")) (Lib.text "database")
      (Lib.text "login") (Lib.text "loginname") = some (1, some (Lib.text "cdma")) := by
  have hbytes : sampleFile.bytes true = Lib.text "\x7b$database\x7d\n[login]\nloginname = cdma\n" := by
    decide +kernel
  rw [← hbytes]
  exact ((read_string_exact_iff sampleFile true sampleBlock sampleSection sampleName).1 samplePlace).mpr
    ⟨.inl rfl, by decide, by decide⟩

/-- Without the last newline the item is not found. -/
theorem last_line_not_found :
    sampleFile.bytes false = Lib.text "\x7b$database\x7d\n[login]\nloginname = cdma" ∧
    samplePlace.item.value.bytes = Lib.text "cdma" ∧
    readString (some (sampleFile.bytes false)) sampleBlock.bytes sampleSection.bytes sampleName.bytes =
      some (0, none) := by
  decide +kernel

end Sample

end Tdm.Config
