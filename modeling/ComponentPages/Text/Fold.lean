/-!
# Letters without regard to case

Two ways to compare letters. Two names are alike (`alike`) when they differ in the case of the
letters `A` to `Z` alone. A fixed word of a document (`foldsTo`) is found in any case, where
the case of a letter is that of the simple case folding: besides the letter itself and its
capital, `s` is also found as the long s, and `k` as the sign of the kelvin.
-/
namespace ComponentPages.Text

/-- The long s, a lower-case letter whose capital is `S`. -/
def longS : Char := '\u017f'

/-- The sign of the kelvin, a capital letter whose lower-case letter is `k`. -/
def kelvinSign : Char := '\u212a'

/-- Whether two texts differ at most in the case of the letters `A` to `Z`. -/
def alike (left right : List Char) : Bool :=
  left.map Char.toLower == right.map Char.toLower

/-- Whether `c` is the lower-case letter (or the other character) `letter` in some case. -/
def foldsTo (letter c : Char) : Bool :=
  c.toLower == letter || (letter == 's' && c == longS) || (letter == 'k' && c == kelvinSign)

/-- The lower-case form of a capital comes thirty-two places after it. -/
theorem toNat_toLower (c : Char) :
    c.toLower.toNat = if 65 ≤ c.toNat ∧ c.toNat ≤ 90 then c.toNat + 32 else c.toNat := by
  unfold Char.toLower
  split
  · rename_i capital
    have low : 65 ≤ c.toNat := capital.1
    have high : c.toNat ≤ 90 := capital.2
    rw [if_pos ⟨low, high⟩]
    show (c.val + 32).toNat = _
    rw [UInt32.toNat_add]
    show (c.toNat + 32) % 4294967296 = _
    omega
  · rename_i other
    exact (if_neg fun capital => other ⟨capital.1, capital.2⟩).symm

/-- A character that folds to a letter has it as its lower-case form, or is one of the two
characters that fold to a letter besides. -/
theorem toLower_of_foldsTo {letter c : Char} (folds : foldsTo letter c = true) :
    c.toLower = letter ∨ c = longS ∨ c = kelvinSign := by
  simp only [foldsTo, Bool.or_eq_true, Bool.and_eq_true, beq_iff_eq] at folds
  rcases folds with (lower | ⟨-, long⟩) | ⟨-, sign⟩
  · exact .inl lower
  · exact .inr (.inl long)
  · exact .inr (.inr sign)

/-- The text after a word found at its front in any case; the word is given in lower case. -/
def afterFolded : List Char → List Char → Option (List Char)
  | [], text => some text
  | _ :: _, [] => none
  | letter :: word, c :: text => if foldsTo letter c then afterFolded word text else none

/-- A word is read in the same way whatever follows it. -/
theorem afterFolded_append {word text rest : List Char}
    (found : afterFolded word text = some rest) (more : List Char) :
    afterFolded word (text ++ more) = some (rest ++ more) := by
  induction word generalizing text with
  | nil =>
    obtain rfl := Option.some.inj found
    rfl
  | cons letter word ih =>
    cases text with
    | nil => exact nomatch found
    | cons first text =>
      simp only [afterFolded] at found
      split at found
      · rename_i folds
        simp only [List.cons_append, afterFolded, folds, ↓reduceIte]
        exact ih found
      · exact nomatch found

/-- A word that a text is long enough for is not found there because of what follows. -/
theorem afterFolded_append_eq_none {word text : List Char} (long : word.length ≤ text.length)
    (missing : afterFolded word text = none) (more : List Char) :
    afterFolded word (text ++ more) = none := by
  induction word generalizing text with
  | nil => exact nomatch missing
  | cons letter word ih =>
    cases text with
    | nil => exact absurd long (Nat.not_succ_le_zero _)
    | cons first text =>
      simp only [List.cons_append, afterFolded] at missing ⊢
      split at missing
      · rename_i folds
        simp only [folds, ↓reduceIte]
        exact ih (Nat.le_of_succ_le_succ long) missing
      · rename_i other
        simp only [other, Bool.false_eq_true, ↓reduceIte]

/-- What is read as a word is made of characters that its letters stand for. -/
theorem eq_append_of_afterFolded {word text rest : List Char}
    (found : afterFolded word text = some rest) :
    ∃ front, text = front ++ rest ∧ ∀ c ∈ front, ∃ letter ∈ word, foldsTo letter c = true := by
  induction word generalizing text with
  | nil =>
    obtain rfl := Option.some.inj found
    exact ⟨[], rfl, nofun⟩
  | cons letter word ih =>
    cases text with
    | nil => exact nomatch found
    | cons first text =>
      simp only [afterFolded] at found
      split at found
      · rename_i folds
        obtain ⟨front, rfl, letters⟩ := ih found
        refine ⟨first :: front, rfl, List.forall_mem_cons.2 ⟨⟨letter, by simp, folds⟩, ?_⟩⟩
        intro c member
        obtain ⟨other, listed, here⟩ := letters c member
        exact ⟨other, List.mem_cons_of_mem _ listed, here⟩
      · exact nomatch found

/-- A word takes as many characters as it has letters. -/
theorem length_of_afterFolded {word text rest : List Char}
    (found : afterFolded word text = some rest) : text.length = word.length + rest.length := by
  induction word generalizing text with
  | nil =>
    obtain rfl := Option.some.inj found
    exact (Nat.zero_add _).symm
  | cons letter word ih =>
    cases text with
    | nil => exact nomatch found
    | cons first text =>
      simp only [afterFolded] at found
      split at found
      · rw [List.length_cons, ih found, List.length_cons, Nat.add_right_comm]
      · exact nomatch found

/-- A word that a text is alike is found at the front of the text. -/
theorem afterFolded_of_alike {word text : List Char} (lower : word.map Char.toLower = word)
    (same : alike word text = true) (rest : List Char) :
    afterFolded word (text ++ rest) = some rest := by
  have letters := eq_of_beq same
  rw [lower] at letters
  clear same lower
  subst letters
  induction text with
  | nil => rfl
  | cons c text ih =>
    have folds : foldsTo c.toLower c = true := by simp [foldsTo]
    simp only [List.map_cons, List.cons_append, afterFolded, folds, ↓reduceIte, ih]

end ComponentPages.Text
