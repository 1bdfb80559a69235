/-!
# Names of components

A component is referred to by its name, or by its name with the ending of a document. Taking
the name of a reference removes one such ending. So a name is a reference to itself exactly
when it has no such ending (`componentName_eq_self`).
-/
namespace ComponentPages

/-- The ending of a reference that is no part of the name. -/
def documentEnding : List Char := ".html".toList

/-- The name that a reference stands for. -/
def componentName (reference : String) : String :=
  let text := reference.toList
  if documentEnding.isSuffixOf text then
    String.ofList (text.take (text.length - documentEnding.length))
  else reference

/-- A reference with the ending stands for what is before it. -/
theorem componentName_append (name : String) : componentName (name ++ ".html") = name := by
  have suffix : documentEnding.isSuffixOf (name ++ ".html").toList = true := by
    rw [List.isSuffixOf_iff_suffix, String.toList_append]
    exact List.suffix_append _ _
  have size : (name ++ ".html").toList.length - documentEnding.length = name.toList.length := by
    have ending : documentEnding.length = 5 := by decide
    have written : ".html".toList.length = 5 := by decide
    rw [String.toList_append, List.length_append, ending, written, Nat.add_sub_cancel]
  rw [componentName, if_pos suffix, size, String.toList_append, List.take_left,
    String.ofList_toList]

/-- A name stands for itself exactly when it does not have the ending. -/
theorem componentName_eq_self {name : String} :
    componentName name = name ↔ ¬ documentEnding <:+ name.toList := by
  constructor
  · rintro same ⟨before, ends⟩
    have made : name = String.ofList before ++ ".html" := by
      rw [← String.toList_inj, String.toList_append, String.toList_ofList]
      exact ends.symm
    rw [made, componentName_append] at same
    have lengths := congrArg String.length same
    rw [String.length_append] at lengths
    have positive : ".html".length = 5 := by decide
    omega
  · intro free
    rw [componentName, if_neg fun ends => free (List.isSuffixOf_iff_suffix.1 ends)]

end ComponentPages
