import ComponentPages.Proofs.Markup.OpeningTag

/-!
# The injection of a class is a local edit

Of markup that starts with a tag, the injection of a class changes this tag alone, keeps the
expressions in it, and puts the class there; other markup it gives up on (`injectClass_local`).
The markup must not hold the reserved text of placeholders. That is not enough: the value of a
class attribute is read as a placeholder in any case, so that a text in front of an expression
can take the start of its placeholder (`injectClass_loses_expression`).
-/
namespace ComponentPages.Markup

open Text

/-- Whatever scope the class is that of, markup without reserved text in whose opening tag no text
right in front of an expression reads like an unfinished placeholder gets the class just if it
starts with a tag. Then the markup around the tag stays as it is, and the tag has the class and
the same expressions as before. -/
theorem injectClass_local (name body : String) (free : ¬ placeholderHead <:+: body.toList)
    (legible : ∀ opening ∈ openingTag? body.toList,
      Legible (readExpression.pieces opening.tag)) :
    (injectClass body (scopeClassOf name) = none ↔ openingTag? body.toList = none) ∧
    ∀ opening ∈ openingTag? body.toList,
      body.toList = opening.blanks ++ opening.tag ++ opening.rest ∧
      ∃ edited, injectClass body (scopeClassOf name) =
          some (String.ofList (opening.blanks ++ edited ++ opening.rest)) ∧
        expressions edited = expressions opening.tag ∧
        (scopeClassOf name).toList <:+: edited := by
  have plainClass := plainClass_scopeClassOf name
  refine ⟨injectClass_eq_none_iff, fun opening found => ⟨eq_append_of_openingTag? found, ?_⟩⟩
  obtain ⟨before, tag, edited, injects⟩ :=
    exists_injects plainClass free found (legible opening found)
  refine ⟨written edited, injects.made, ?_, injects.classed.scope_infix⟩
  rw [expressions_eq, expressions_eq, injects.reread, injects.pieces]
  exact (injects.classed.edits plainClass.tame).keeps.expressions

/-- The class is put in front of an expression in the tag of a badge. -/
theorem injectClass_local_badge :
    let body := "\n<b title='1 > 0' class=\x7b\x7b.kind\x7d\x7d>\x7b\x7b.text\x7d\x7d</b>"
    let opening : OpeningTag := ⟨"\n".toList,
      "<b title='1 > 0' class=\x7b\x7b.kind\x7d\x7d>".toList, "\x7b\x7b.text\x7d\x7d</b>".toList⟩
    openingTag? body.toList = some opening ∧ ¬ placeholderHead <:+: body.toList ∧
    (∀ opening ∈ openingTag? body.toList, Legible (readExpression.pieces opening.tag)) ∧
    (injectClass body (scopeClassOf "a") = none ↔ openingTag? body.toList = none) ∧
    ∃ edited, injectClass body (scopeClassOf "a") =
        some (String.ofList (opening.blanks ++ edited ++ opening.rest)) ∧
      expressions edited = expressions opening.tag ∧ (scopeClassOf "a").toList <:+: edited := by
  intro body opening
  have found : openingTag? body.toList = some opening := by decide +kernel
  have free : ¬ placeholderHead <:+: body.toList := by decide +kernel
  have legible : ∀ opening ∈ openingTag? body.toList,
      Legible (readExpression.pieces opening.tag) := by
    intro other member
    obtain rfl := Option.some.inj (found.symm.trans member)
    exact (unreserved_of_not_mem (by decide +kernel)).legible
  obtain ⟨gives, edits⟩ := injectClass_local "a" body free legible
  exact ⟨found, free, legible, gives, (edits opening found).2⟩

/-- Markup without reserved text can lose an expression: the value of its class attribute starts
like a placeholder in small letters, and takes the first two characters of the placeholder of the
expression behind it. -/
theorem injectClass_loses_expression :
    let body := "<b class=__scoped_expr_0\x7b\x7ba\x7d\x7d>x</b>"
    let opening : OpeningTag :=
      ⟨[], "<b class=__scoped_expr_0\x7b\x7ba\x7d\x7d>".toList, "x</b>".toList⟩
    ¬ placeholderHead <:+: body.toList ∧ openingTag? body.toList = some opening ∧
    injectClass body (scopeClassOf "a") =
      some "<b class=\"s-ca9781 __scoped_expr_0__\"SCOPED_EXPR_0__>x</b>" ∧
    ¬ ∃ edited, injectClass body (scopeClassOf "a") =
        some (String.ofList (opening.blanks ++ edited ++ opening.rest)) ∧
      expressions edited = expressions opening.tag := by
  intro body opening
  have made : injectClass body (scopeClassOf "a") =
      some "<b class=\"s-ca9781 __scoped_expr_0__\"SCOPED_EXPR_0__>x</b>" := by decide +kernel
  refine ⟨by decide +kernel, by decide +kernel, made, ?_⟩
  rintro ⟨edited, same, kept⟩
  have whole : "<b class=\"s-ca9781 __scoped_expr_0__\"SCOPED_EXPR_0__>x</b>".toList =
      [] ++ edited ++ "x</b>".toList :=
    (congrArg String.toList (Option.some.inj (made.symm.trans same))).trans String.toList_ofList
  obtain rfl : "<b class=\"s-ca9781 __scoped_expr_0__\"SCOPED_EXPR_0__>".toList = edited :=
    List.append_cancel_right (whole : _ ++ "x</b>".toList = edited ++ "x</b>".toList)
  exact absurd kept (by decide +kernel)

end ComponentPages.Markup
