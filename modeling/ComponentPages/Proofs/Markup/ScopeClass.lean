import ComponentPages.Component
import ComponentPages.Proofs.Markup.Injection

/-!
# The class of a scope

The class of a scope is made of letters, digits and hyphens (`plainClass_scopeClassOf`), so it is
one word that is no part of an expression, of a placeholder or of what begins and ends something
in a tag.
-/
namespace ComponentPages.Markup

open Text

/-- A text of letters, digits and hyphens does not have other characters. -/
theorem not_mem_of_letters {text : List Char} (letters : ∀ c ∈ text, c.isAlphanum = true ∨ c = '-')
    {c : Char} (other : (c.isAlphanum || c == '-') = false) : c ∉ text := by
  intro member
  simp only [Bool.or_eq_false_iff, beq_eq_false_iff_ne] at other
  rcases letters c member with letter | hyphen
  · exact nomatch other.1.symm.trans letter
  · exact other.2 hyphen

/-- A class that is one word of letters, digits and hyphens. -/
structure PlainClass (scope : List Char) : Prop where
  filled : scope ≠ []
  letters : ∀ c ∈ scope, c.isAlphanum = true ∨ c = '-'

namespace PlainClass

variable {scope : List Char}

/-- A plain class does not have other characters. -/
theorem not_mem (plainClass : PlainClass scope) {c : Char}
    (other : (c.isAlphanum || c == '-') = false) : c ∉ scope :=
  not_mem_of_letters plainClass.letters other

/-- A plain class is tame. -/
theorem tame (plainClass : PlainClass scope) : Tame scope :=
  ⟨plainClass.not_mem (by decide), plainClass.not_mem (by decide), plainClass.not_mem (by decide)⟩

/-- A plain class is neutral. -/
theorem neutral (plainClass : PlainClass scope) : Neutral scope := by
  have others : ∀ c ∈ ['"', '\'', '<', '>', '/', '_'], (c.isAlphanum || c == '-') = false :=
    List.all_iff_forall_prop.1 (by decide)
  exact fun c member listed => plainClass.not_mem (others c listed) member

/-- A plain class has no blanks. -/
theorem isBlank_eq_false (plainClass : PlainClass scope) {c : Char} (member : c ∈ scope) :
    isBlank c = false := by
  refine Bool.eq_false_iff.2 fun blank => ?_
  rcases plainClass.letters c member with letter | rfl
  · exact nomatch letter.symm.trans (isAlphanum_of_isBlank blank)
  · exact absurd blank (by decide)

end PlainClass

/-- Hexadecimal digits are letters and digits. -/
theorem isAlphanum_of_mem_hexadecimal {c : Char} {word : UInt32}
    (member : c ∈ Digest.hexadecimal word) : c.isAlphanum = true := by
  have digit : ∀ value < 16, (Nat.digitChar value).isAlphanum = true := by decide
  obtain ⟨byte, -, inByte⟩ := List.mem_flatMap.1 member
  have small : byte.toNat < 256 := byte.toNat_lt
  simp only [List.mem_cons, List.not_mem_nil, or_false] at inByte
  rcases inByte with rfl | rfl
  · exact digit (byte.toNat / 16) (by omega)
  · exact digit (byte.toNat % 16) (by omega)

/-- The class of a scope is plain. -/
theorem plainClass_scopeClassOf (name : String) : PlainClass (scopeClassOf name).toList := by
  have whole : (scopeClassOf name).toList =
      "s-".toList ++ (Digest.ofText name).toList.take 6 := by
    unfold scopeClassOf
    simp only [String.toList_append, String.toList_ofList]
  refine ⟨by rw [whole]; simp, fun c member => ?_⟩
  rw [whole] at member
  rcases List.mem_append.1 member with start | rest
  · have all : ∀ c ∈ "s-".toList, c.isAlphanum = true ∨ c = '-' :=
      List.all_iff_forall_prop.1 (by decide)
    exact all c start
  · have inDigest := List.mem_of_mem_take rest
    rw [Digest.ofText, String.toList_ofList] at inDigest
    obtain ⟨word, -, inWord⟩ := List.mem_flatMap.1 inDigest
    exact .inl (isAlphanum_of_mem_hexadecimal inWord)

end ComponentPages.Markup
