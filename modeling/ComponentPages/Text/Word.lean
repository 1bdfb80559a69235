import ComponentPages.Text.Blank
import ComponentPages.Text.Letter

/-!
# Words

Where a word of markup or of a style sheet ends. A word (`isWord`) is made of letters, decimal
digits, marks and connectors. The classes here are those of Unicode 16: a letter or digit that
Unicode 17 adds (`latest`) belongs to a name in an action, but ends a word.
-/
namespace ComponentPages.Text

/-- Letters and decimal digits that Unicode 17 adds. -/
def latest : List (Nat × Nat) := [
  (0x88F, 0x88F), (0xC5C, 0xC5C), (0xCDC, 0xCDC), (0xA7CE, 0xA7CF), (0xA7D2, 0xA7D2),
  (0xA7D4, 0xA7D4), (0xA7F1, 0xA7F1), (0x10940, 0x10959), (0x10EC5, 0x10EC7), (0x10EFA, 0x10EFB),
  (0x11B60, 0x11B67), (0x11DB0, 0x11DDB), (0x11DE0, 0x11DE9), (0x16EA0, 0x16EB8),
  (0x16EBB, 0x16ED3), (0x16FF2, 0x16FF6), (0x187F8, 0x187FF), (0x18D09, 0x18D1E),
  (0x18D80, 0x18DF2), (0x1E6C0, 0x1E6DE), (0x1E6E0, 0x1E6F5), (0x1E6FE, 0x1E6FF),
  (0x2B73A, 0x2B73F), (0x2CEA2, 0x2CEAD), (0x323B0, 0x33479)]

/-- Marks, connectors and joiners from 128 on that are not alphabetic. -/
def wordMarks : List (Nat × Nat) := [
  (0x300, 0x344), (0x346, 0x362), (0x483, 0x489), (0x591, 0x5AF), (0x658, 0x658), (0x6DF, 0x6E0),
  (0x6EA, 0x6EC), (0x740, 0x74A), (0x7EB, 0x7F3), (0x7FD, 0x7FD), (0x818, 0x819), (0x82D, 0x82D),
  (0x859, 0x85B), (0x898, 0x89F), (0x8CA, 0x8D3), (0x8E0, 0x8E1), (0x8EA, 0x8EF), (0x93C, 0x93C),
  (0x94D, 0x94D), (0x951, 0x954), (0x9BC, 0x9BC), (0x9CD, 0x9CD), (0x9FE, 0x9FE), (0xA3C, 0xA3C),
  (0xA4D, 0xA4D), (0xABC, 0xABC), (0xACD, 0xACD), (0xAFD, 0xAFF), (0xB3C, 0xB3C), (0xB4D, 0xB4D),
  (0xB55, 0xB55), (0xBCD, 0xBCD), (0xC3C, 0xC3C), (0xC4D, 0xC4D), (0xCBC, 0xCBC), (0xCCD, 0xCCD),
  (0xD3B, 0xD3C), (0xD4D, 0xD4D), (0xDCA, 0xDCA), (0xE47, 0xE4C), (0xE4E, 0xE4E), (0xEBA, 0xEBA),
  (0xEC8, 0xECC), (0xECE, 0xECE), (0xF18, 0xF19), (0xF35, 0xF35), (0xF37, 0xF37), (0xF39, 0xF39),
  (0xF3E, 0xF3F), (0xF84, 0xF84), (0xF86, 0xF87), (0xFC6, 0xFC6), (0x1037, 0x1037),
  (0x1039, 0x103A), (0x135D, 0x135F), (0x1714, 0x1715), (0x1734, 0x1734), (0x17B4, 0x17B5),
  (0x17C9, 0x17D3), (0x17DD, 0x17DD), (0x180B, 0x180D), (0x180F, 0x180F), (0x1939, 0x193B),
  (0x1A60, 0x1A60), (0x1A75, 0x1A7C), (0x1A7F, 0x1A7F), (0x1AB0, 0x1ABE), (0x1AC1, 0x1ACB),
  (0x1B34, 0x1B34), (0x1B44, 0x1B44), (0x1B6B, 0x1B73), (0x1BAA, 0x1BAB), (0x1BE6, 0x1BE6),
  (0x1BF2, 0x1BF3), (0x1C37, 0x1C37), (0x1CD0, 0x1CD2), (0x1CD4, 0x1CE8), (0x1CED, 0x1CED),
  (0x1CF4, 0x1CF4), (0x1CF7, 0x1CF9), (0x1DC0, 0x1DD2), (0x1DF5, 0x1DFF), (0x200C, 0x200D),
  (0x203F, 0x2040), (0x2054, 0x2054), (0x20D0, 0x20F0), (0x2CEF, 0x2CF1), (0x2D7F, 0x2D7F),
  (0x302A, 0x302F), (0x3099, 0x309A), (0xA66F, 0xA672), (0xA67C, 0xA67D), (0xA6F0, 0xA6F1),
  (0xA806, 0xA806), (0xA82C, 0xA82C), (0xA8C4, 0xA8C4), (0xA8E0, 0xA8F1), (0xA92B, 0xA92D),
  (0xA953, 0xA953), (0xA9B3, 0xA9B3), (0xA9C0, 0xA9C0), (0xAABF, 0xAABF), (0xAAC1, 0xAAC1),
  (0xAAF6, 0xAAF6), (0xABEC, 0xABED), (0xFE00, 0xFE0F), (0xFE20, 0xFE2F), (0xFE33, 0xFE34),
  (0xFE4D, 0xFE4F), (0xFF3F, 0xFF3F), (0x101FD, 0x101FD), (0x102E0, 0x102E0), (0x10A38, 0x10A3A),
  (0x10A3F, 0x10A3F), (0x10AE5, 0x10AE6), (0x10D6A, 0x10D6D), (0x10EFD, 0x10EFF),
  (0x10F46, 0x10F50), (0x10F82, 0x10F85), (0x11046, 0x11046), (0x11070, 0x11070),
  (0x1107F, 0x1107F), (0x110B9, 0x110BA), (0x11133, 0x11134), (0x11173, 0x11173),
  (0x111C0, 0x111C0), (0x111C9, 0x111CC), (0x11235, 0x11236), (0x112E9, 0x112EA),
  (0x1133B, 0x1133C), (0x1134D, 0x1134D), (0x11366, 0x1136C), (0x11370, 0x11374),
  (0x113CE, 0x113D0), (0x113D2, 0x113D2), (0x113E1, 0x113E2), (0x11442, 0x11442),
  (0x11446, 0x11446), (0x1145E, 0x1145E), (0x114C2, 0x114C3), (0x115BF, 0x115C0),
  (0x1163F, 0x1163F), (0x116B6, 0x116B7), (0x1172B, 0x1172B), (0x11839, 0x1183A),
  (0x1193D, 0x1193E), (0x11943, 0x11943), (0x119E0, 0x119E0), (0x11A33, 0x11A34),
  (0x11A47, 0x11A47), (0x11A98, 0x11A99), (0x11C3F, 0x11C3F), (0x11D42, 0x11D42),
  (0x11D44, 0x11D45), (0x11D97, 0x11D97), (0x11F41, 0x11F42), (0x11F5A, 0x11F5A),
  (0x13440, 0x13440), (0x13447, 0x13455), (0x1612F, 0x1612F), (0x16AF0, 0x16AF4),
  (0x16B30, 0x16B36), (0x16FE4, 0x16FE4), (0x1BC9D, 0x1BC9D), (0x1CF00, 0x1CF2D),
  (0x1CF30, 0x1CF46), (0x1D165, 0x1D169), (0x1D16D, 0x1D172), (0x1D17B, 0x1D182),
  (0x1D185, 0x1D18B), (0x1D1AA, 0x1D1AD), (0x1D242, 0x1D244), (0x1DA00, 0x1DA36),
  (0x1DA3B, 0x1DA6C), (0x1DA75, 0x1DA75), (0x1DA84, 0x1DA84), (0x1DA9B, 0x1DA9F),
  (0x1DAA1, 0x1DAAF), (0x1E130, 0x1E136), (0x1E2AE, 0x1E2AE), (0x1E2EC, 0x1E2EF),
  (0x1E4EC, 0x1E4EF), (0x1E5EE, 0x1E5EF), (0x1E8D0, 0x1E8D6), (0x1E944, 0x1E946),
  (0x1E948, 0x1E94A), (0xE0100, 0xE01EF)]

/-- A decimal digit of any script. -/
def isDecimalDigit (c : Char) : Bool :=
  if c.toNat < 128 then c.isDigit
  else inRanges decimalDigits c.toNat && !inRanges latest c.toNat

/-- The digits `0` to `9` are decimal digits. -/
theorem isDecimalDigit_of_isDigit {c : Char} (digit : c.isDigit = true) :
    isDecimalDigit c = true := by
  have high : c.toNat ≤ 57 := (Char.isDigit_iff_toNat.1 digit).2
  rw [isDecimalDigit, if_pos (by omega), digit]

/-- A letter of any script. -/
def isLetter (c : Char) : Bool :=
  if c.toNat < 128 then c.isAlpha
  else inRanges alphabetic c.toNat && !inRanges latest c.toNat

/-- A mark, a connector or a joiner, of which `_` is the one below 128. -/
def isWordMark (c : Char) : Bool :=
  if c.toNat < 128 then c == '_' else inRanges wordMarks c.toNat

/-- A character that belongs to a word: a letter, a decimal digit, a mark or a connector. -/
def isWord (c : Char) : Bool := isLetter c || isDecimalDigit c || isWordMark c

/-- The letters and digits of the core library belong to words. -/
theorem isWord_of_isAlphanum {c : Char} (named : c.isAlphanum = true) : isWord c = true := by
  have low : c.toNat < 128 := Nat.lt_of_le_of_lt (bounds_of_isAlphanum named).2 (by decide)
  simp only [isWord, isLetter, isDecimalDigit, low, ↓reduceIte, Bool.or_eq_true]
  rcases Bool.or_eq_true_iff.1 named with letter | digit
  · exact .inl (.inl letter)
  · exact .inl (.inr digit)

/-- Blanks are neither letters nor digits of the core library. -/
theorem isAlphanum_of_isBlank {c : Char} (blank : isBlank c = true) : c.isAlphanum = false := by
  obtain ⟨range, listed, least, greatest⟩ := inRanges_iff.1 blank
  have apart : ∀ range ∈ blanks, range.2 < 48 ∨ 122 < range.1 := by decide
  have := apart range listed
  refine Bool.eq_false_iff.2 fun named => ?_
  have := bounds_of_isAlphanum named
  omega

/-- Blanks belong to no word. -/
theorem isWord_of_isBlank {c : Char} (blank : isBlank c = true) : isWord c = false := by
  have named := isAlphanum_of_isBlank blank
  rw [Char.isAlphanum, Bool.or_eq_false_iff] at named
  have letters : inRanges alphabetic c.toNat = false :=
    inRanges_eq_false blank (by decide +kernel)
  have digits : inRanges decimalDigits c.toNat = false :=
    inRanges_eq_false blank (by decide +kernel)
  have marks : inRanges wordMarks c.toNat = false :=
    inRanges_eq_false blank (by decide +kernel)
  have underscore : (c == '_') = false := by
    refine Bool.eq_false_iff.2 fun same => ?_
    exact absurd (eq_of_beq same ▸ blank) (by decide)
  simp [isWord, isLetter, isDecimalDigit, isWordMark, named, letters, digits, marks, underscore]


/-- Whether no word goes on at the front of a text. -/
def endsWord : List Char → Bool
  | [] => true
  | c :: _ => !isWord c

end ComponentPages.Text
