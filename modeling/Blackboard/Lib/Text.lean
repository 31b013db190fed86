import Mathlib

/-!
# Texts as a Rust program sees them

The `str` and `char` functions a service validates its input with: `trim`, the control
and white space classes, the ASCII classes, the integer parsers, and the one shape of
regular expression such services use for identifiers, an alphanumeric character followed
by a bounded number of alphanumeric characters or listed punctuation marks.
-/

namespace Text

/-- `char::is_whitespace`: the Unicode property White_Space. -/
def isWhitespace (c : Char) : Bool :=
  decide (9 ≤ c.toNat ∧ c.toNat ≤ 13 ∨ c.toNat = 0x20 ∨ c.toNat = 0x85 ∨ c.toNat = 0xa0
    ∨ c.toNat = 0x1680 ∨ 0x2000 ≤ c.toNat ∧ c.toNat ≤ 0x200a ∨ c.toNat = 0x2028
    ∨ c.toNat = 0x2029 ∨ c.toNat = 0x202f ∨ c.toNat = 0x205f ∨ c.toNat = 0x3000)

/-- `char::is_control`: the Unicode category Cc. -/
def isControl (c : Char) : Bool :=
  decide (c.toNat < 32 ∨ 127 ≤ c.toNat ∧ c.toNat < 160)

/-- `u8::is_ascii_digit`. -/
def isAsciiDigit (c : Char) : Bool := decide (48 ≤ c.toNat ∧ c.toNat ≤ 57)

/-- `u8::is_ascii_alphanumeric`. -/
def isAsciiAlphanumeric (c : Char) : Bool :=
  decide (48 ≤ c.toNat ∧ c.toNat ≤ 57 ∨ 65 ≤ c.toNat ∧ c.toNat ≤ 90
    ∨ 97 ≤ c.toNat ∧ c.toNat ≤ 122)

/-- `str::trim`. -/
def trim (s : String) : String :=
  String.ofList ((s.toList.dropWhile isWhitespace).rdropWhile isWhitespace)

/-- `s.trim().is_empty()`. -/
def isBlank (s : String) : Bool := (trim s).toList.isEmpty

/-- `s.chars().any(char::is_control)`. -/
def anyControl (s : String) : Bool := s.toList.any isControl

/-- `str::strip_prefix`. -/
def stripPrefix (pre s : String) : Option String :=
  if pre.toList.isPrefixOf s.toList then some (String.ofList (s.toList.drop pre.toList.length))
  else none

/-- `str::split_once`: the parts before and after the first mark. -/
def splitOnce (mark : Char) (s : String) : Option (String × String) :=
  match s.toList.span fun c => decide (c ≠ mark) with
  | (_, []) => none
  | (before, _ :: after) => some (String.ofList before, String.ofList after)

/-- `s.split(mark)`, collected. -/
def split (mark : Char) (s : String) : List String :=
  (s.toList.splitOn mark).map String.ofList

/-- A lower case hexadecimal digit. -/
def hexDigit (n : Nat) : Char := if n < 10 then Char.ofNat (48 + n) else Char.ofNat (87 + n)

/-- `str::contains`. -/
def contains (part s : String) : Bool := decide (part.toList <:+: s.toList)

/-! ## Blank texts -/

theorem isBlank_iff {s : String} : isBlank s = true ↔ ∀ c ∈ s.toList, isWhitespace c = true := by
  rw [isBlank, trim, String.toList_ofList, List.isEmpty_iff, List.rdropWhile_eq_nil_iff]
  constructor
  · intro h c hc
    rw [← List.takeWhile_append_dropWhile (p := isWhitespace) (l := s.toList)] at hc
    rcases List.mem_append.mp hc with hc | hc
    · exact List.mem_takeWhile_imp hc
    · exact h c hc
  · intro h c hc
    exact h c (List.dropWhile_subset _ hc)

/-- A trimmed text is blank only if it is empty. -/
theorem isBlank_trim (s : String) : isBlank (trim s) = isBlank s := by
  rw [Bool.eq_iff_iff]
  constructor
  · intro h
    by_contra hs
    -- the first character of a non-empty trimmed text is not white space
    have hne : (s.toList.dropWhile isWhitespace).rdropWhile isWhitespace ≠ [] := by
      simpa [isBlank, trim] using hs
    have hall := isBlank_iff.mp h
    rw [trim, String.toList_ofList] at hall
    have hlast := List.rdropWhile_last_not isWhitespace _ hne
    exact hlast (hall _ (List.getLast_mem hne))
  · intro h
    have hnil : (s.toList.dropWhile isWhitespace).rdropWhile isWhitespace = [] := by
      simpa [isBlank, trim] using h
    rw [trim, hnil]
    rfl

/-- A trimmed text stays as it is. -/
theorem trim_trim (s : String) : trim (trim s) = trim s := by
  have hhead : ((s.toList.dropWhile isWhitespace).rdropWhile isWhitespace).dropWhile isWhitespace
      = (s.toList.dropWhile isWhitespace).rdropWhile isWhitespace := by
    rw [List.dropWhile_eq_self_iff]
    intro hlen
    -- what is left at the end starts where the text without its first blanks starts
    have hpre := List.rdropWhile_prefix isWhitespace (s.toList.dropWhile isWhitespace)
    have hlen' := Nat.lt_of_lt_of_le hlen hpre.length_le
    rw [hpre.getElem hlen]
    exact List.dropWhile_get_zero_not isWhitespace s.toList hlen'
  unfold trim
  rw [String.toList_ofList, hhead, List.rdropWhile_idempotent]

theorem not_isBlank_of_mem {s : String} {c : Char} (hc : c ∈ s.toList)
    (hw : isWhitespace c = false) : isBlank s = false := by
  rw [Bool.eq_false_iff]
  intro h
  rw [isBlank_iff.mp h c hc] at hw
  exact absurd hw (by simp)

theorem not_isWhitespace_of_isAsciiAlphanumeric {c : Char} (h : isAsciiAlphanumeric c = true) :
    isWhitespace c = false := by
  simp only [isAsciiAlphanumeric, decide_eq_true_eq] at h
  simp only [isWhitespace, decide_eq_false_iff_not]
  omega

/-! ## Identifiers -/

/-- The language of `^[A-Za-z0-9][A-Za-z0-9<marks>]{0,bound}$`. -/
def isToken (marks : List Char) (bound : Nat) (s : String) : Bool :=
  match s.toList with
  | [] => false
  | c :: cs =>
      isAsciiAlphanumeric c && decide (cs.length ≤ bound)
        && cs.all fun d => isAsciiAlphanumeric d || marks.contains d

theorem not_isBlank_of_isToken {marks : List Char} {bound : Nat} {s : String}
    (h : isToken marks bound s = true) : isBlank s = false := by
  unfold isToken at h
  split at h
  · exact absurd h (by simp)
  · rename_i c cs hs
    simp only [Bool.and_eq_true] at h
    exact not_isBlank_of_mem (c := c) (by rw [hs]; exact List.mem_cons_self)
      (not_isWhitespace_of_isAsciiAlphanumeric h.1.1)

theorem not_isControl_of_isAsciiAlphanumeric {c : Char} (h : isAsciiAlphanumeric c = true) :
    isControl c = false := by
  simp only [isAsciiAlphanumeric, decide_eq_true_eq] at h
  simp only [isControl, decide_eq_false_iff_not]
  omega

/-- An identifier has no control characters, if its marks are none. -/
theorem anyControl_of_isToken {marks : List Char} {bound : Nat} {s : String}
    (hm : ∀ d ∈ marks, isControl d = false) (h : isToken marks bound s = true) :
    anyControl s = false := by
  unfold anyControl
  rw [List.any_eq_false]
  intro d hd
  unfold isToken at h
  split at h
  · exact absurd h (by simp)
  · rename_i c cs hs
    simp only [Bool.and_eq_true, List.all_eq_true, Bool.or_eq_true, List.contains_iff_mem] at h
    rw [Bool.not_eq_true]
    rw [hs] at hd
    rcases List.mem_cons.mp hd with rfl | hd
    · exact not_isControl_of_isAsciiAlphanumeric h.1.1
    · rcases h.2 d hd with ha | hp
      · exact not_isControl_of_isAsciiAlphanumeric ha
      · exact hm d hp

/-- A text without white space is its own trimming. -/
theorem trim_eq_self {s : String} (h : ∀ c ∈ s.toList, isWhitespace c = false) : trim s = s := by
  have hdrop : s.toList.dropWhile isWhitespace = s.toList := by
    rw [List.dropWhile_eq_self_iff]
    intro hl
    simp [h _ (List.getElem_mem hl)]
  have hrdrop : s.toList.rdropWhile isWhitespace = s.toList := by
    rw [List.rdropWhile_eq_self_iff]
    intro hl
    simp [h _ (List.getLast_mem hl)]
  rw [trim, hdrop, hrdrop, String.ofList_toList]

theorem trim_of_isToken {marks : List Char} {bound : Nat} {s : String}
    (hm : ∀ d ∈ marks, isWhitespace d = false) (h : isToken marks bound s = true) :
    trim s = s := by
  refine trim_eq_self fun d hd => ?_
  unfold isToken at h
  split at h
  · exact absurd h (by simp)
  · rename_i c cs hs
    simp only [Bool.and_eq_true, List.all_eq_true, Bool.or_eq_true, List.contains_iff_mem] at h
    rw [hs] at hd
    rcases List.mem_cons.mp hd with rfl | hd
    · exact not_isWhitespace_of_isAsciiAlphanumeric h.1.1
    · rcases h.2 d hd with ha | hp
      · exact not_isWhitespace_of_isAsciiAlphanumeric ha
      · exact hm d hp

/-! ## Integers -/

/-- The value of a non-empty run of decimal digits. -/
def decimal (ds : List Char) : Option Nat :=
  if ds.isEmpty || !ds.all isAsciiDigit then none
  else some (ds.foldl (fun n d => 10 * n + (d.toNat - 48)) 0)

/-- `str::parse::<i64>`. -/
def parseI64 (s : String) : Option Int :=
  let value := match s.toList with
    | '+' :: ds => (decimal ds).map Int.ofNat
    | '-' :: ds => (decimal ds).map fun n => -(n : Int)
    | ds => (decimal ds).map Int.ofNat
  value.filter fun n => decide (-(2 ^ 63) ≤ n ∧ n < 2 ^ 63)

/-- `str::parse::<usize>` on a 64 bit machine. -/
def parseUsize (s : String) : Option Nat :=
  let value := match s.toList with
    | '+' :: ds => decimal ds
    | ds => decimal ds
  value.filter fun n => decide (n < 2 ^ 64)

end Text
