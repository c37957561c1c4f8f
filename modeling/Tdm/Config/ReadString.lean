import Tdm.Config.AllTrim

/-!
# Reading one value of a configuration file

`ReadString` runs through the file three times deep: it looks for the line of the block, from there on
for the line of the section, and from there on for the item. Each loop asks `feof` right after `fgets`,
so a line that ends with the file and not with a newline is read and never looked at.

The stream is the list of the lines that `fgets` delivers before `feof` holds; the three loops go on in
it where the one before has stopped. A line is a C string: a pointer into it is the rest from there on.
-/

namespace Tdm.Config

/-! ## Lines -/

/-- `fgets(sLine, n + 1, fp)`: the bytes read, those left in the file, and `feof(fp)` behind it. -/
def fgets : ℕ → List UInt8 → List UInt8 × List UInt8 × Bool
  | 0, file => ([], file, false)
  | _ + 1, [] => ([], [], true)
  | n + 1, c :: file =>
    if c = 10 then ([10], file, false)
    else (c :: (fgets n file).1, (fgets n file).2)

/-- The lines that are read before `feof` holds; each of them takes a byte of the file. -/
def fgetsLines : ℕ → List UInt8 → List (List UInt8)
  | 0, _ => []
  | fuel + 1, file =>
    if (fgets 1023 file).2.2 then [] else cstring (fgets 1023 file).1 :: fgetsLines fuel (fgets 1023 file).2.1

/-! ## The function -/

/-- `tolower` in the C locale. -/
def tolower (c : UInt8) : UInt8 := if 65 ≤ c ∧ c ≤ 90 then c + 32 else c

/-- `strncasecmp(s, name, strlen(name)) == 0`, with `s + strlen(name)`. -/
def skipName : List UInt8 → List UInt8 → Option (List UInt8)
  | [], s => some s
  | _ :: _, [] => none
  | a :: name, c :: s => if tolower c = tolower a then skipName name s else none

/-- A blank of the source: a space or a tab. -/
def isBlank (c : UInt8) : Bool := c = 32 || c = 9

/-- `while (*sTemp == ' ' || *sTemp == '\t') sTemp++`. -/
def skipBlanks (sTemp : List UInt8) : List UInt8 := sTemp.dropWhile isBlank

/-- The line begins a block. -/
def opensBlock (sTemp : List UInt8) : Bool := sTemp.take 2 = [123, 36]

/-- The line begins a section. -/
def opensSection (sTemp : List UInt8) : Bool := sTemp.head? = some 91

/-- What is copied to `sResult`: the text behind the `=`, up to a comment or the end of the line. -/
def resultOf (sTemp : List UInt8) : Option (List UInt8) :=
  let sTemp := sTemp.takeWhile (· ≠ 35)
  let sTemp := sTemp.takeWhile (· ≠ 10)
  let sTemp := sTemp.takeWhile (· ≠ 13)
  (allTrim (sTemp ++ [0])).map cstring

/-- The text behind the `=` of the item. -/
def itemText (sItem sTemp : List UInt8) : Option (List UInt8) := do
  let sTemp ← skipName sItem sTemp
  let sTemp := skipBlanks sTemp
  if sTemp.head? = some 61 then some sTemp.tail else none

/-- The loop over the lines of a section. -/
def seekItem (sItem : List UInt8) : List (List UInt8) → Option (ℤ × Option (List UInt8))
  | [] => some (0, none)
  | sLine :: lines =>
    let sTemp := skipBlanks sLine
    if opensSection sTemp || opensBlock sTemp then some (0, none)
    else (itemText sItem sTemp).elim (seekItem sItem lines) fun sTemp =>
      (resultOf sTemp).map fun sResult => (1, some sResult)

/-- The line is `open name close`. -/
def isHeader (opening name : List UInt8) (closing : UInt8) (sTemp : List UInt8) : Bool :=
  sTemp.take opening.length = opening &&
    ((skipName name (sTemp.drop opening.length)).bind List.head?) = some closing

/-- The loop over the lines of a block. -/
def seekSection (sSection sItem : List UInt8) : List (List UInt8) → Option (ℤ × Option (List UInt8))
  | [] => some (0, none)
  | sLine :: lines =>
    let sTemp := skipBlanks sLine
    if opensBlock sTemp then some (0, none)
    else if isHeader [91] sSection 93 sTemp then seekItem sItem lines
    else seekSection sSection sItem lines

/-- The loop over the lines of the file. -/
def seekBlock (sBlock sSection sItem : List UInt8) :
    List (List UInt8) → Option (ℤ × Option (List UInt8))
  | [] => some (0, none)
  | sLine :: lines =>
    if isHeader [123, 36] sBlock 125 (skipBlanks sLine) then seekSection sSection sItem lines
    else seekBlock sBlock sSection sItem lines

/-- `ReadString`: the return value and what is written to `sResult`, for the bytes of the file, `none`
where it cannot be opened. -/
def readString (file : Option (List UInt8)) (sBlock sSection sItem : List UInt8) :
    Option (ℤ × Option (List UInt8)) :=
  file.elim (some (-1, none)) fun file =>
    seekBlock sBlock sSection sItem (fgetsLines (file.length + 1) file)

/-! ## Reading lines -/

theorem fgets_line {n : ℕ} {line : List UInt8} (h : 10 ∉ line) (hlen : line.length < n)
    (file : List UInt8) : fgets n (line ++ 10 :: file) = (line ++ [10], file, false) := by
  induction line generalizing n with
  | nil =>
    obtain ⟨n, rfl⟩ := Nat.exists_eq_succ_of_ne_zero (by omega : n ≠ 0)
    rfl
  | cons c line ih =>
    obtain ⟨n, rfl⟩ := Nat.exists_eq_succ_of_ne_zero (by omega : n ≠ 0)
    rw [List.mem_cons, not_or] at h
    rw [List.length_cons] at hlen
    rw [List.cons_append, fgets, if_neg (Ne.symm h.1), ih h.2 (by omega)]
    rfl

/-- A line without a newline is read, and `feof` holds. -/
theorem fgets_rest {n : ℕ} {line : List UInt8} (h : 10 ∉ line) (hlen : line.length < n) :
    (fgets n line).2.2 = true := by
  induction line generalizing n with
  | nil =>
    obtain ⟨n, rfl⟩ := Nat.exists_eq_succ_of_ne_zero (by omega : n ≠ 0)
    rfl
  | cons c line ih =>
    obtain ⟨n, rfl⟩ := Nat.exists_eq_succ_of_ne_zero (by omega : n ≠ 0)
    rw [List.mem_cons, not_or] at h
    rw [List.length_cons] at hlen
    rw [fgets, if_neg (Ne.symm h.1)]
    exact ih h.2 (by omega)

/-- The lines that end with a newline are delivered, what is behind the last newline is not. -/
theorem fgetsLines_eq {lines : List (List UInt8)} (rest : List UInt8)
    (hlines : ∀ l ∈ lines, 10 ∉ l ∧ l.length < 1023) (hrest : 10 ∉ rest ∧ rest.length < 1023) {fuel : ℕ}
    (hfuel : lines.length < fuel) :
    fgetsLines fuel (lines.flatMap (· ++ [10]) ++ rest) = lines.map fun l => cstring (l ++ [10]) := by
  induction lines generalizing fuel with
  | nil =>
    obtain ⟨fuel, rfl⟩ := Nat.exists_eq_succ_of_ne_zero (by omega : fuel ≠ 0)
    rw [fgetsLines, List.flatMap_nil, List.nil_append, if_pos (fgets_rest hrest.1 hrest.2)]
    rfl
  | cons l lines ih =>
    obtain ⟨fuel, rfl⟩ := Nat.exists_eq_succ_of_ne_zero (by omega : fuel ≠ 0)
    have hl := hlines l (List.mem_cons_self ..)
    have hsplit : (l :: lines).flatMap (· ++ [10]) ++ rest =
        l ++ 10 :: (lines.flatMap (· ++ [10]) ++ rest) := by simp
    rw [List.length_cons] at hfuel
    rw [hsplit, fgetsLines, fgets_line hl.1 hl.2, List.map_cons,
      ih (fun l' h' => hlines l' (List.mem_cons_of_mem _ h')) (by omega)]
    rfl

theorem length_le_flatMap (lines : List (List UInt8)) :
    lines.length ≤ (lines.flatMap (· ++ [10])).length := by
  induction lines with
  | nil => rfl
  | cons l lines ih =>
    rw [List.flatMap_cons, List.length_append, List.length_append, List.length_cons, List.length_singleton]
    omega

end Tdm.Config
