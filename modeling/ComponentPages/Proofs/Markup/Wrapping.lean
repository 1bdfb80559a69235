import ComponentPages.Proofs.Markup.ScopeClass
import ComponentPages.Proofs.Template.Affixes
import Mathlib

/-!
# Wrapped markup as a template

Markup that is wrapped stands between two tags that no action of the markup reaches, so wrapping
it is wrapping what it writes.
-/
namespace ComponentPages.Markup

open Text Template

/-- The text in front of wrapped markup. -/
def wrapFront (scope tag : String) (unwrapped : Bool) : String :=
  "<" ++ tag ++ " class=\"" ++ scope ++ "\"" ++
    (if unwrapped then " style=\"display: contents\"" else "") ++ ">"

/-- The text behind wrapped markup. -/
def wrapBack (tag : String) : String := "</" ++ tag ++ ">"

/-- Wrapped markup stands between the two. -/
theorem wrap_eq (body scope tag : String) (unwrapped : Bool) :
    wrap body scope tag unwrapped = wrapFront scope tag unwrapped ++ body ++ wrapBack tag := by
  simp only [wrap, wrapFront, wrapBack, String.append_assoc]

/-- No action reaches the text in front of wrapped markup. -/
theorem leading_wrapFront (name : String) {tag : String}
    (letters : ∀ c ∈ tag.toList, c.isAlphanum = true ∨ c = '-') (unwrapped : Bool) :
    Leading (wrapFront (scopeClassOf name) tag unwrapped).toList := by
  have inTag : '{' ∉ tag.toList := not_mem_of_letters letters (by decide)
  have inClass : '{' ∉ (scopeClassOf name).toList :=
    (plainClass_scopeClassOf name).not_mem (by decide)
  have inStyle : '{' ∉ (if unwrapped then " style=\"display: contents\"" else "").toList := by
    cases unwrapped <;> decide
  constructor
  · simp only [wrapFront, String.toList_append, List.mem_append, not_or]
    exact ⟨⟨⟨⟨⟨⟨by decide, inTag⟩, by decide⟩, inClass⟩, by decide⟩, inStyle⟩, by decide⟩
  · exact ⟨_, '>', by rw [wrapFront, String.toList_append]; rfl, by decide⟩

/-- No action reaches the text behind wrapped markup. -/
theorem trailing_wrapBack {tag : String}
    (letters : ∀ c ∈ tag.toList, c.isAlphanum = true ∨ c = '-') :
    Trailing (wrapBack tag).toList := by
  have plain {brace : Char} (other : (brace.isAlphanum || brace == '-') = false)
      (none : brace ∉ ['<', '/', '>']) : brace ∉ (wrapBack tag).toList := by
    have inTag := not_mem_of_letters letters other
    simp only [List.mem_cons, not_or] at none
    simp [wrapBack, inTag, none]
  refine ⟨plain (by decide) (by decide), plain (by decide) (by decide), ?_⟩
  exact ⟨'<', '/' :: (tag.toList ++ ['>']), by simp [wrapBack], by decide⟩

/-- Wrapped markup is a template if the markup is one, with the same failure otherwise, and it
writes what the markup writes, wrapped, with the same failure otherwise. -/
theorem parse_wrap {tag : String} (letters : ∀ c ∈ tag.toList, c.isAlphanum = true ∨ c = '-')
    (name component body : String) (unwrapped : Bool) :
    let scope := scopeClassOf component
    wrap body scope tag unwrapped = wrapFront scope tag unwrapped ++ body ++ wrapBack tag ∧
    (∀ failure, parse name (wrap body scope tag unwrapped) = .error failure ↔
      parse name body = .error failure) ∧
    ∀ template, parse name body = .ok template → ∃ wrapped : Template,
      parse name (wrap body scope tag unwrapped) = .ok wrapped ∧
      ∀ {σ : Type} (data : Value) (host : Host σ), wrapped.execute data host =
        (fun html => wrapFront scope tag unwrapped ++ html ++ wrapBack tag) <$>
          template.execute data host := by
  have between := parse_between (leading_wrapFront component letters unwrapped)
    (trailing_wrapBack letters) name body
  rw [String.ofList_toList, String.ofList_toList] at between
  refine ⟨wrap_eq _ _ _ _, ?_⟩
  rw [wrap_eq]
  exact between

/-- An action that trims the text on both sides leaves the tags around it as they are. -/
theorem parse_wrap_trimming :
    let body := "\x7b\x7b- .a -\x7d\x7d"
    let scope := scopeClassOf "card"
    (∀ c ∈ "x-1".toList, c.isAlphanum = true ∨ c = '-') ∧
    ∃ template wrapped : Template, parse "card" body = .ok template ∧
      parse "card" (wrap body scope "x-1" true) = .ok wrapped ∧
      ∀ {σ : Type} (data : Value) (host : Host σ), wrapped.execute data host =
        (fun html => wrapFront scope "x-1" true ++ html ++ wrapBack "x-1") <$>
          template.execute data host := by
  have letters : ∀ c ∈ "x-1".toList, c.isAlphanum = true ∨ c = '-' :=
    List.all_iff_forall_prop.1 (by decide)
  have parsed : parse "card" "\x7b\x7b- .a -\x7d\x7d" =
      .ok ⟨"card", [.output (.of (.of (.dot ["a"]) []) [])]⟩ := by cbv
  obtain ⟨-, -, wraps⟩ := parse_wrap letters "card" "card" "\x7b\x7b- .a -\x7d\x7d" true
  obtain ⟨wrapped, same, writes⟩ := wraps _ parsed
  exact ⟨letters, _, wrapped, parsed, same, writes⟩

end ComponentPages.Markup
