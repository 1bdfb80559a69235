/-!
# Entries by name

Values held under names, in increasing order of the names, where names are ordered by code
points. Looking a name up after an insertion shows that the last insertion wins
(`find?_insert`), and every operation keeps the order (`sorted_insert`, `sorted_ofList`).
-/
namespace ComponentPages

/-- Values under names. -/
abbrev Entries (α : Type) := List (String × α)

namespace Entries

variable {α : Type}

/-- The value held under a name. -/
def find? (name : String) : Entries α → Option α
  | [] => none
  | (other, value) :: rest => if name = other then some value else find? name rest

/-- Holds a value under a name, in place of any value held there. -/
def insert (name : String) (value : α) : Entries α → Entries α
  | [] => [(name, value)]
  | (other, held) :: rest =>
    if name < other then (name, value) :: (other, held) :: rest
    else if name = other then (name, value) :: rest
    else (other, held) :: insert name value rest

/-- The entries of a list of pairs; of two pairs with one name the later counts. -/
def ofList (pairs : List (String × α)) : Entries α :=
  pairs.foldl (fun entries pair => insert pair.1 pair.2 entries) []

/-- The names, in order. -/
def names (entries : Entries α) : List String := entries.map Prod.fst

/-- The names increase, so each occurs once. -/
def Sorted (entries : Entries α) : Prop := entries.Pairwise fun left right => left.1 < right.1

/-- After an insertion the name holds the inserted value and every other name what it held. -/
theorem find?_insert (name other : String) (value : α) (entries : Entries α) :
    find? name (insert other value entries) =
      if name = other then some value else find? name entries := by
  induction entries with
  | nil => simp [insert, find?]
  | cons entry rest ih =>
    obtain ⟨held, kept⟩ := entry
    simp only [insert]
    split
    · simp [find?]
    · split
      · rename_i same
        subst same
        by_cases here : name = other <;> simp [find?, here]
      · rename_i different
        by_cases here : name = held
        · have : name ≠ other := fun same => different (same ▸ here)
          simp [find?, here]
          intro same
          exact absurd (same ▸ rfl) different
        · simp [find?, here, ih]

/-- A name of the result of an insertion is the inserted one or was there before. -/
theorem mem_insert {name : String} {value : α} {entries : Entries α} {entry : String × α}
    (member : entry ∈ insert name value entries) : entry = (name, value) ∨ entry ∈ entries := by
  induction entries with
  | nil => simpa [insert] using member
  | cons first rest ih =>
    obtain ⟨held, kept⟩ := first
    simp only [insert] at member
    split at member
    · simpa using member
    · split at member
      · rcases List.mem_cons.1 member with here | later
        · exact .inl here
        · exact .inr (List.mem_cons_of_mem _ later)
      · rcases List.mem_cons.1 member with here | later
        · exact .inr (here ▸ List.mem_cons_self)
        · rcases ih later with here | before
          · exact .inl here
          · exact .inr (List.mem_cons_of_mem _ before)

/-- What is found under a name is held under it. -/
theorem mem_of_find? {name : String} {value : α} {entries : Entries α}
    (found : find? name entries = some value) : (name, value) ∈ entries := by
  induction entries with
  | nil => simp [find?] at found
  | cons first rest ih =>
    obtain ⟨held, kept⟩ := first
    simp only [find?] at found
    split at found
    · rename_i same
      obtain rfl := Option.some.inj found
      exact same ▸ List.mem_cons_self
    · exact List.mem_cons_of_mem _ (ih found)

/-- A name is one of the names in order exactly when something is held under it. -/
theorem mem_names {name : String} {entries : Entries α} :
    name ∈ names entries ↔ (find? name entries).isSome = true := by
  induction entries with
  | nil => simp [names, find?]
  | cons first rest ih =>
    obtain ⟨held, kept⟩ := first
    by_cases here : name = held
    · simp [names, find?, here]
    · simpa [names, find?, here] using ih

/-- An insertion keeps the names in order. -/
theorem sorted_insert (name : String) (value : α) {entries : Entries α}
    (sorted : Sorted entries) : Sorted (insert name value entries) := by
  induction entries with
  | nil => simp [insert, Sorted]
  | cons first rest ih =>
    obtain ⟨held, kept⟩ := first
    obtain ⟨least, tail⟩ := List.pairwise_cons.1 sorted
    simp only [insert]
    split
    · rename_i before
      refine List.pairwise_cons.2 ⟨fun entry member => ?_, sorted⟩
      rcases List.mem_cons.1 member with here | later
      · exact here ▸ before
      · exact String.lt_trans before (least entry later)
    · rename_i notBefore
      split
      · rename_i same
        subst same
        exact List.pairwise_cons.2 ⟨least, tail⟩
      · rename_i different
        refine List.pairwise_cons.2 ⟨fun entry member => ?_, ih tail⟩
        rcases mem_insert member with here | later
        · subst here
          exact String.not_le.1 fun reverse =>
            different (String.le_antisymm reverse (String.not_lt.1 notBefore))
        · exact least entry later

/-- An entry of the entries made of a list is a pair of the list. -/
theorem mem_ofList {entry : String × α} {pairs : List (String × α)}
    (member : entry ∈ ofList pairs) : entry ∈ pairs := by
  have general : ∀ (pairs : List (String × α)) (entries : Entries α),
      entry ∈ pairs.foldl (fun entries pair => insert pair.1 pair.2 entries) entries →
        entry ∈ entries ∨ entry ∈ pairs := by
    intro pairs
    induction pairs with
    | nil => exact fun _ member => .inl member
    | cons pair rest ih =>
      intro entries member
      rcases ih _ member with before | later
      · rcases mem_insert before with here | before
        · exact .inr (here ▸ List.mem_cons_self)
        · exact .inl before
      · exact .inr (List.mem_cons_of_mem _ later)
  exact (general pairs [] member).resolve_left List.not_mem_nil

/-- Under a name, entries made of a list hold the value of the last pair with the name. -/
theorem find?_ofList (name : String) (pairs : List (String × α)) :
    find? name (ofList pairs) = (pairs.reverse.find? fun pair => pair.1 = name).map Prod.snd := by
  have general : ∀ (pairs : List (String × α)) (entries : Entries α),
      find? name (pairs.foldl (fun entries pair => insert pair.1 pair.2 entries) entries) =
        ((pairs.reverse.find? fun pair => pair.1 = name).map Prod.snd).or (find? name entries) := by
    intro pairs
    induction pairs with
    | nil => exact fun entries => rfl
    | cons pair rest ih =>
      intro entries
      rw [List.foldl_cons, ih, find?_insert, List.reverse_cons, List.find?_append]
      by_cases same : name = pair.1
      · cases rest.reverse.find? fun pair => pair.1 = name <;> simp [same]
      · cases rest.reverse.find? fun pair => pair.1 = name <;> simp [same, Ne.symm same]
  exact (general pairs []).trans (Option.or_none)

/-- Entries made of a list are in order. -/
theorem sorted_ofList (pairs : List (String × α)) : Sorted (ofList pairs) := by
  have general : ∀ (pairs : List (String × α)) (entries : Entries α), Sorted entries →
      Sorted (pairs.foldl (fun entries pair => insert pair.1 pair.2 entries) entries) := by
    intro pairs
    induction pairs with
    | nil => exact fun _ sorted => sorted
    | cons pair rest ih => exact fun entries sorted => ih _ (sorted_insert _ _ sorted)
  exact general pairs [] List.Pairwise.nil

end Entries

end ComponentPages
