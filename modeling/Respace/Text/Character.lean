/-! Characters by what they are: blanks, line ends, digits and letters. Sets of characters are given by ranges
    of code points, which ascend, so that a search may stop at the first range that starts past the code
    point it looks for.

    A character is blank when its bidirectional class is that of a separator or its general category is
    that of a space: the ASCII white space with the four information separators, U+0085, the no-break
    spaces, the typographic spaces and the two line separators. Decimal digits of every script, after
    Unicode 14.0, come in runs of ten, zero first, and have a value; the other digits (superscripts,
    circled digits, ...) count as digits only when a text is asked whether it consists of digits. -/

namespace Respace.Text

/-- Whether `n` lies in one of the given ranges, both ends included. The ranges ascend. -/
def inRanges : List (Nat × Nat) → Nat → Bool
  | [], _ => false
  | (lo, hi) :: rs, n => lo ≤ n && (n ≤ hi || inRanges rs n)

theorem exists_range_of_inRanges {rs : List (Nat × Nat)} {n : Nat} (h : inRanges rs n = true) :
    ∃ r ∈ rs, r.1 ≤ n ∧ n ≤ r.2 := by
  induction rs with
  | nil => cases h
  | cons r rs ih =>
    obtain ⟨lo, hi⟩ := r
    simp only [inRanges, Bool.and_eq_true, Bool.or_eq_true, decide_eq_true_eq] at h
    obtain ⟨hlo, hhi | hr⟩ := h
    · exact ⟨_, List.mem_cons_self .., hlo, hhi⟩
    · obtain ⟨r, hr, hn⟩ := ih hr
      exact ⟨r, List.mem_cons_of_mem _ hr, hn⟩

/-! ### Blanks -/

/-- Code points of blank characters. -/
def blankRanges : List (Nat × Nat) :=
  [(0x9, 0xd), (0x1c, 0x20), (0x85, 0x85), (0xa0, 0xa0), (0x1680, 0x1680), (0x2000, 0x200a),
   (0x2028, 0x2029), (0x202f, 0x202f), (0x205f, 0x205f), (0x3000, 0x3000)]

/-- Blank characters. -/
def isBlank (c : Char) : Bool := inRanges blankRanges c.toNat

/-- The two characters that end a line. -/
def isLineEnd (c : Char) : Bool := c == '\n' || c == '\r'

/-! ### Digits -/

/-- Runs of decimal digits, each ascending from a zero and a multiple of ten long. -/
def decimalRanges : List (Nat × Nat) :=
  [(0x30, 0x39), (0x660, 0x669), (0x6f0, 0x6f9), (0x7c0, 0x7c9), (0x966, 0x96f), (0x9e6, 0x9ef),
   (0xa66, 0xa6f), (0xae6, 0xaef), (0xb66, 0xb6f), (0xbe6, 0xbef), (0xc66, 0xc6f), (0xce6, 0xcef),
   (0xd66, 0xd6f), (0xde6, 0xdef), (0xe50, 0xe59), (0xed0, 0xed9), (0xf20, 0xf29), (0x1040, 0x1049),
   (0x1090, 0x1099), (0x17e0, 0x17e9), (0x1810, 0x1819), (0x1946, 0x194f), (0x19d0, 0x19d9),
   (0x1a80, 0x1a89), (0x1a90, 0x1a99), (0x1b50, 0x1b59), (0x1bb0, 0x1bb9), (0x1c40, 0x1c49),
   (0x1c50, 0x1c59), (0xa620, 0xa629), (0xa8d0, 0xa8d9), (0xa900, 0xa909), (0xa9d0, 0xa9d9),
   (0xa9f0, 0xa9f9), (0xaa50, 0xaa59), (0xabf0, 0xabf9), (0xff10, 0xff19), (0x104a0, 0x104a9),
   (0x10d30, 0x10d39), (0x11066, 0x1106f), (0x110f0, 0x110f9), (0x11136, 0x1113f),
   (0x111d0, 0x111d9), (0x112f0, 0x112f9), (0x11450, 0x11459), (0x114d0, 0x114d9),
   (0x11650, 0x11659), (0x116c0, 0x116c9), (0x11730, 0x11739), (0x118e0, 0x118e9),
   (0x11950, 0x11959), (0x11c50, 0x11c59), (0x11d50, 0x11d59), (0x11da0, 0x11da9),
   (0x16a60, 0x16a69), (0x16ac0, 0x16ac9), (0x16b50, 0x16b59), (0x1d7ce, 0x1d7ff),
   (0x1e140, 0x1e149), (0x1e2f0, 0x1e2f9), (0x1e950, 0x1e959), (0x1fbf0, 0x1fbf9)]

/-- Digits outside positional notation. -/
def otherDigitRanges : List (Nat × Nat) :=
  [(0xb2, 0xb3), (0xb9, 0xb9), (0x1369, 0x1371), (0x19da, 0x19da), (0x2070, 0x2070),
   (0x2074, 0x2079), (0x2080, 0x2089), (0x2460, 0x2468), (0x2474, 0x247c), (0x2488, 0x2490),
   (0x24ea, 0x24ea), (0x24f5, 0x24fd), (0x24ff, 0x24ff), (0x2776, 0x277e), (0x2780, 0x2788),
   (0x278a, 0x2792), (0x10a40, 0x10a43), (0x10e60, 0x10e68), (0x11052, 0x1105a), (0x1f100, 0x1f10a)]

/-- The value of a decimal digit: its distance from the start of its run, modulo ten. -/
def decimalValue? (c : Char) : Option Nat :=
  (decimalRanges.find? fun r => r.1 ≤ c.toNat && c.toNat ≤ r.2).map fun r => (c.toNat - r.1) % 10

/-- Decimal digits. -/
def isDecimal (c : Char) : Bool := inRanges decimalRanges c.toNat

/-- Digits, positional or not. -/
def isDigit (c : Char) : Bool := isDecimal c || inRanges otherDigitRanges c.toNat

/-- Texts of one or more digits. -/
def isDigits (s : List Char) : Bool := !s.isEmpty && s.all isDigit

/-- The number that digit values spell, highest first. -/
def ofDigits (ds : List Nat) : Nat := ds.foldl (fun n d => 10 * n + d) 0

/-- The number that the decimal digits of a text spell. -/
def decimalNumber (s : List Char) : Nat := ofDigits (s.filterMap decimalValue?)

/-! ### Letter case

    Case counts as far as it decides whether a text spells a given ASCII word. A character whose lower or
    upper form has no ASCII letter in it cannot help to spell one, so it may stay as it is; the few
    characters outside ASCII whose form does hold an ASCII letter are listed. -/

def lower (c : Char) : List Char :=
  if c == '\u0130' then ['i', '\u0307']
  else if c == '\u212a' then ['k']
  else [c.toLower]

/-- Characters outside ASCII whose upper-case form holds ASCII letters, with that form. -/
def upperForms : List (Char × List Char) :=
  [('\u00df', ['S', 'S']), ('\u0131', ['I']), ('\u0149', ['\u02bc', 'N']), ('\u017f', ['S']),
   ('\u01f0', ['J', '\u030c']), ('\u1e96', ['H', '\u0331']), ('\u1e97', ['T', '\u0308']),
   ('\u1e98', ['W', '\u030a']), ('\u1e99', ['Y', '\u030a']), ('\u1e9a', ['A', '\u02be']),
   ('\ufb00', ['F', 'F']), ('\ufb01', ['F', 'I']), ('\ufb02', ['F', 'L']),
   ('\ufb03', ['F', 'F', 'I']), ('\ufb04', ['F', 'F', 'L']), ('\ufb05', ['S', 'T']),
   ('\ufb06', ['S', 'T'])]

def upper (c : Char) : List Char := (upperForms.lookup c).getD [c.toUpper]

end Respace.Text
