import ComponentPages.Template.Segment
import Mathlib

/-!
# Actions in bytes

The end of an action can be looked for in the bytes of a text without reading its characters
(`actionSize`). A backslash between double quotes then skips one byte and not one character, which
makes no difference: the bytes of a character of several bytes are none of those that quote, escape
or close. So the end is found at the same place, which is one between two characters
(`actionSize_utf8`).
-/
namespace ComponentPages.Template

/-- The bytes of a text. -/
def utf8 (text : List Char) : List UInt8 := text.flatMap String.utf8EncodeChar

/-- How many bytes an action has in front of the braces that end it, counted byte by byte. The first
argument is the quote of the text of the action that the place is in, if it is in one; a byte that
follows a backslash between double quotes is skipped. -/
def actionSize : Option UInt8 → List UInt8 → Option Nat
  | _, [] => none
  | some quote, byte :: rest =>
    if quote = '"'.toUInt8 ∧ byte = '\\'.toUInt8 then
      match rest with
      | [] => none
      | _ :: rest => (actionSize (some quote) rest).map (· + 2)
    else (actionSize (if byte = quote then none else some quote) rest).map (· + 1)
  | none, byte :: rest =>
    if byte = '\x7d'.toUInt8 ∧ rest.head? = some '\x7d'.toUInt8 then some 0
    else
      (actionSize (if byte = '"'.toUInt8 ∨ byte = rawQuote.toUInt8 then some byte else none)
        rest).map (· + 1)

section Encoding

variable {c : Char}

/-- A character below 128 is one byte. -/
theorem utf8EncodeChar_narrow (narrow : c.toNat < 128) : String.utf8EncodeChar c = [c.toUInt8] := by
  have small : c.val.toNat ≤ 127 := Nat.le_of_lt_succ narrow
  rw [String.utf8EncodeChar, if_pos small]
  rfl

/-- The bytes of other characters are none of those below 128. -/
theorem utf8EncodeChar_wide (wide : ¬ c.toNat < 128) :
    ∀ byte ∈ String.utf8EncodeChar c, 128 ≤ byte.toNat := by
  have large : ¬ c.val.toNat ≤ 127 := fun small => wide (Nat.lt_succ_of_le small)
  intro byte member
  rw [String.utf8EncodeChar, if_neg large] at member
  split_ifs at member
  all_goals
    simp only [List.mem_cons, List.not_mem_nil, or_false] at member
    rcases member with rfl | rfl | rfl | rfl
  all_goals
    simp only [UInt8.toNat_ofNat']
    omega

/-- The bytes of texts put together are those of each. -/
theorem utf8_append (text more : List Char) : utf8 (text ++ more) = utf8 text ++ utf8 more :=
  List.flatMap_append

/-- The bytes of a text are those of its characters. -/
theorem utf8_cons (c : Char) (text : List Char) :
    utf8 (c :: text) = String.utf8EncodeChar c ++ utf8 text := List.flatMap_cons

/-- A character has a first byte, and what bytes follow it are none of those below 128. -/
theorem exists_utf8EncodeChar (c : Char) : ∃ byte others,
    String.utf8EncodeChar c = byte :: others ∧ ∀ other ∈ others, 128 ≤ other.toNat := by
  by_cases narrow : c.toNat < 128
  · exact ⟨c.toUInt8, [], utf8EncodeChar_narrow narrow, nofun⟩
  · cases whole : String.utf8EncodeChar c with
    | nil => exact absurd whole String.utf8EncodeChar_ne_nil
    | cons byte others =>
      refine ⟨byte, others, rfl, fun other member => ?_⟩
      exact utf8EncodeChar_wide narrow other (whole ▸ List.mem_cons_of_mem byte member)

/-- The bytes of one character. -/
theorem utf8_singleton (c : Char) : utf8 [c] = String.utf8EncodeChar c := List.flatMap_singleton _ _

/-- The byte of a character below 128 is one of no other character. -/
theorem not_mem_utf8 {mark : Char} (small : mark.toNat < 128) (other : c ≠ mark) :
    mark.toUInt8 ∉ utf8 [c] := by
  have value {c : Char} (narrow : c.toNat < 128) : c.toUInt8.toNat = c.toNat := by
    rw [Char.toUInt8, UInt32.toNat_toUInt8]
    exact Nat.mod_eq_of_lt (Nat.lt_trans narrow (by decide))
  intro member
  rw [utf8_singleton] at member
  by_cases narrow : c.toNat < 128
  · rw [utf8EncodeChar_narrow narrow, List.mem_singleton] at member
    have same : mark.toNat = c.toNat := by rw [← value small, member, value narrow]
    exact other (Char.toNat_inj.1 same).symm
  · have large := utf8EncodeChar_wide narrow _ member
    rw [value small] at large
    omega

/-- The bytes of a text start with a mark of one byte only if the text does. -/
theorem head?_utf8 {mark : Char} (small : mark.toNat < 128) {text : List Char}
    (first : (utf8 text).head? = some mark.toUInt8) : text.head? = some mark := by
  cases text with
  | nil => cases first
  | cons c text =>
    obtain ⟨byte, others, whole, -⟩ := exists_utf8EncodeChar c
    rw [utf8_cons, whole] at first
    obtain rfl : byte = mark.toUInt8 := Option.some.inj first
    by_contra differs
    have other : c ≠ mark := fun same => differs (congrArg some same)
    refine not_mem_utf8 small other ?_
    rw [utf8_singleton, whole]
    exact List.mem_cons_self

/-- The bytes of a quote are its one byte. -/
theorem utf8_quote {quote : Char} (quotes : quote = '"' ∨ quote = rawQuote) :
    utf8 [quote] = [quote.toUInt8] := by
  rcases quotes with rfl | rfl <;> decide

end Encoding

section Search

variable {c : Char} {rest : List UInt8}

/-- In a quote, a byte that does not escape the next one counts by itself. -/
theorem actionSize_quoted {quote byte : UInt8}
    (unescaped : quote = '"'.toUInt8 → byte ≠ '\\'.toUInt8) (rest : List UInt8) :
    actionSize (some quote) (byte :: rest) =
      (actionSize (if byte = quote then none else some quote) rest).map (· + 1) := by
  cases rest <;> exact if_neg fun both => unescaped both.1 both.2

/-- Bytes that neither close the given quote nor escape in it are passed. -/
theorem actionSize_quoted_append {quote : UInt8} {front : List UInt8}
    (plain : ∀ byte ∈ front, byte ≠ quote ∧ (quote = '"'.toUInt8 → byte ≠ '\\'.toUInt8)) :
    actionSize (some quote) (front ++ rest) =
      (actionSize (some quote) rest).map (· + front.length) := by
  induction front with
  | nil => exact Option.map_id'.symm
  | cons byte front ih =>
    obtain ⟨⟨open', unescaped⟩, later⟩ := List.forall_mem_cons.1 plain
    rw [List.cons_append, actionSize_quoted unescaped, if_neg open', ih later, Option.map_map]
    rfl

/-- Outside of quotes, bytes that neither quote nor are closing braces are passed. -/
theorem actionSize_append {front : List UInt8}
    (plain : ∀ byte ∈ front,
      byte ≠ '"'.toUInt8 ∧ byte ≠ rawQuote.toUInt8 ∧ byte ≠ '\x7d'.toUInt8) :
    actionSize none (front ++ rest) = (actionSize none rest).map (· + front.length) := by
  induction front with
  | nil => exact Option.map_id'.symm
  | cons byte front ih =>
    obtain ⟨⟨noQuote, noRawQuote, noBrace⟩, later⟩ := List.forall_mem_cons.1 plain
    rw [List.cons_append, actionSize, if_neg fun both => noBrace both.1,
      if_neg (not_or.2 ⟨noQuote, noRawQuote⟩), ih later, Option.map_map]
    rfl

/-- An action with a text in front that is passed byte by byte has the bytes of both. -/
theorem actionSize_of_passed {state next : Option UInt8} (taken : List Char) {text : List Char}
    {found : Option (List Char × List Char)}
    (passed : actionSize state (utf8 taken ++ utf8 text) =
      (actionSize next (utf8 text)).map (· + (utf8 taken).length))
    (later : actionSize next (utf8 text) = found.map fun parts => (utf8 parts.1).length) :
    actionSize state (utf8 (taken ++ text)) =
      (found.map fun parts => (taken ++ parts.1, parts.2)).map
        fun parts => (utf8 parts.1).length := by
  rw [utf8_append, passed, later, Option.map_map, Option.map_map]
  congr 1
  funext parts
  simp only [Function.comp_apply, utf8_append, List.length_append]
  omega

/-- In a quote, a character that neither closes it nor escapes is passed byte by byte. -/
theorem actionSize_quoted_char {quote : Char} (quotes : quote = '"' ∨ quote = rawQuote)
    (open' : c ≠ quote) (unescaped : quote = '"' → c ≠ '\\') :
    actionSize (some quote.toUInt8) (utf8 [c] ++ rest) =
      (actionSize (some quote.toUInt8) rest).map (· + (utf8 [c]).length) := by
  refine actionSize_quoted_append fun byte member => ?_
  constructor
  · rintro rfl
    refine not_mem_utf8 ?_ open' member
    rcases quotes with rfl | rfl <;> decide
  · rintro double rfl
    have noEscape : c ≠ '\\' := by
      rcases quotes with rfl | rfl
      · exact unescaped rfl
      · exact absurd double (by decide)
    exact not_mem_utf8 (by decide) noEscape member

/-- An escape in a quoted text is passed byte by byte: of a letter of several bytes the first is
skipped, and the others neither quote nor escape. -/
theorem actionSize_escaped (letter : Char) :
    actionSize (some '"'.toUInt8) (utf8 ['\\', letter] ++ rest) =
      (actionSize (some '"'.toUInt8) rest).map (· + (utf8 ['\\', letter]).length) := by
  obtain ⟨byte, others, whole, wide⟩ := exists_utf8EncodeChar letter
  have plain : ∀ other ∈ others,
      other ≠ '"'.toUInt8 ∧ ('"'.toUInt8 = '"'.toUInt8 → other ≠ '\\'.toUInt8) := by
    intro other member
    have large := wide other member
    refine ⟨?_, fun _ => ?_⟩ <;> (rintro rfl; exact absurd large (by decide))
  have bytes : utf8 ['\\', letter] = '\\'.toUInt8 :: byte :: others := by
    rw [utf8_cons, utf8_singleton, whole, utf8EncodeChar_narrow (by decide)]
    rfl
  have skipped : actionSize (some '"'.toUInt8) ('\\'.toUInt8 :: byte :: (others ++ rest)) =
      (actionSize (some '"'.toUInt8) (others ++ rest)).map (· + 2) := if_pos ⟨rfl, rfl⟩
  rw [bytes, List.cons_append, List.cons_append, skipped, actionSize_quoted_append plain,
    Option.map_map]
  rfl

/-- From any place of an action on, its end is found in its bytes where it is found in its
characters. -/
theorem actionSize_map_utf8 {state : Option Char}
    (quotes : ∀ quote ∈ state, quote = '"' ∨ quote = rawQuote) (text : List Char) :
    actionSize (state.map Char.toUInt8) (utf8 text) =
      (cutAction state text).map fun found => (utf8 found.1).length := by
  have outside : ∀ quote ∈ (none : Option Char), quote = '"' ∨ quote = rawQuote := by
    intro quote here
    cases here
  fun_induction cutAction state text with
  | case1 state => cases state <;> rfl
  | case2 letter rest ih =>
    exact actionSize_of_passed ['\\', letter] (actionSize_escaped letter) (ih quotes)
  | case3 quote c rest unescaped ih =>
    have known := quotes quote rfl
    by_cases closes : c = quote
    · subst closes
      rw [beq_self_eq_true, if_pos rfl] at ih ⊢
      refine actionSize_of_passed [c] ?_ (ih outside)
      have unescaping : c.toUInt8 = '"'.toUInt8 → c.toUInt8 ≠ '\\'.toUInt8 := by
        rcases known with rfl | rfl <;> decide
      rw [utf8_quote known]
      exact (actionSize_quoted unescaping _).trans (by rw [if_pos rfl]; rfl)
    · rw [beq_eq_false_iff_ne.2 closes, if_neg Bool.false_ne_true] at ih ⊢
      by_cases escape : quote = '"' ∧ c = '\\'
      · -- A backslash that escapes nothing is the last character.
        obtain ⟨rfl, rfl⟩ := escape
        cases rest with
        | nil => rfl
        | cons letter rest => exact (unescaped letter rest rfl rfl rfl).elim
      · refine actionSize_of_passed [c] ?_ (ih quotes)
        exact actionSize_quoted_char known closes fun double noEscape => escape ⟨double, noEscape⟩
  | case4 rest =>
    have brace : String.utf8EncodeChar '\x7d' = ['\x7d'.toUInt8] :=
      utf8EncodeChar_narrow (by decide)
    rw [utf8_cons, utf8_cons, brace]
    rfl
  | case5 c rest unended ih =>
    by_cases known : c = '"' ∨ c = rawQuote
    · have opens : (c == '"' || c == rawQuote) = true := by simpa using known
      rw [opens, if_pos rfl] at ih ⊢
      have here : ∀ quote ∈ some c, quote = '"' ∨ quote = rawQuote := by
        rintro quote ⟨⟩
        exact known
      refine actionSize_of_passed [c] ?_ (ih here)
      rw [utf8_quote known]
      rcases known with rfl | rfl <;> rfl
    · have unquoted : (c == '"' || c == rawQuote) = false := by simpa using known
      obtain ⟨noQuote, noRawQuote⟩ := not_or.1 known
      rw [unquoted, if_neg Bool.false_ne_true] at ih ⊢
      refine actionSize_of_passed [c] ?_ (ih outside)
      by_cases brace : c = '\x7d'
      · -- A single brace is passed since no other one follows it.
        subst brace
        have single : (utf8 rest).head? ≠ some '\x7d'.toUInt8 := by
          intro first
          obtain ⟨others, rfl⟩ := List.head?_eq_some_iff.1 (head?_utf8 (by decide) first)
          exact unended others rfl rfl
        exact if_neg fun both => single both.2
      · refine actionSize_append fun byte member => ?_
        refine ⟨?_, ?_, ?_⟩
        · rintro rfl
          exact not_mem_utf8 (by decide) noQuote member
        · rintro rfl
          exact not_mem_utf8 (by decide) noRawQuote member
        · rintro rfl
          exact not_mem_utf8 (by decide) brace member

/-- The end of an action is found in its bytes where it is found in its characters. -/
theorem actionSize_utf8 (text : List Char) :
    actionSize none (utf8 text) =
      (cutAction none text).map fun found => (utf8 found.1).length := by
  have outside : ∀ quote ∈ (none : Option Char), quote = '"' ∨ quote = rawQuote := by
    intro quote here
    cases here
  exact actionSize_map_utf8 outside text

end Search

end ComponentPages.Template
