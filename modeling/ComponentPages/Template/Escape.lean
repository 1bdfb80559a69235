/-!
# Escaping

Text on a page is escaped: the five characters that markup gives a meaning are written as
character references. Nothing else changes, so escaped text holds none of `<`, `>` and the two
quotes (`escape_safe`).
-/
namespace ComponentPages.Template

/-- A character as it is written on a page. -/
def escapeChar (c : Char) : List Char :=
  if c == '&' then "&amp;".toList
  else if c == '<' then "&lt;".toList
  else if c == '>' then "&gt;".toList
  else if c == '"' then "&#34;".toList
  else if c == '\'' then "&#39;".toList
  else [c]

/-- A text as it is written on a page. -/
def escape (text : String) : String := String.ofList (text.toList.flatMap escapeChar)

/-- The characters that escaped text never holds. -/
def isMarkup (c : Char) : Bool := c == '<' || c == '>' || c == '"' || c == '\''

/-- What is written for a character holds no character of markup. -/
theorem escapeChar_safe (source : Char) :
    (escapeChar source).all (fun c => !isMarkup c) = true := by
  unfold escapeChar
  split
  · rfl
  · split
    · rfl
    · split
      · rfl
      · split
        · rfl
        · split
          · rfl
          · simp_all [isMarkup]

/-- Escaped text holds no character of markup. -/
theorem escape_safe (text : String) : ∀ c ∈ (escape text).toList, isMarkup c = false := by
  intro c member
  simp only [escape, String.toList_ofList, List.mem_flatMap] at member
  obtain ⟨source, _, member⟩ := member
  simpa using List.all_eq_true.1 (escapeChar_safe source) c member

end ComponentPages.Template
