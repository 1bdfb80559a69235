import ComponentPages.Session
import ComponentPages.Value.Read

/-!
# Trusted markup inside values

What holds of all trusted markup that a value contains, at any depth (`Value.Holds`). Nothing
but an invocation makes trusted markup: what the built-in functions, the default helpers and
the look-ups answer contains only markup of their arguments (`holds_builtin`,
`Registry.callHelper_plain`, `holds_follow`), and the data of a document contains none
(`ofJson_plain`).
-/
namespace ComponentPages

open Template

/-- All trusted markup in a value, at any depth, satisfies a predicate. -/
inductive Value.Holds (good : String → Prop) : Value → Prop where
  | null : Holds good .null
  | bool (flag : Bool) : Holds good (.bool flag)
  | int (number : Int64) : Holds good (.int number)
  | float (number : Float) : Holds good (.float number)
  | str (text : String) : Holds good (.str text)
  | list {items : List Value} (each : ∀ item ∈ items, Holds good item) : Holds good (.list items)
  | map {entries : List (String × Value)} (each : ∀ entry ∈ entries, Holds good entry.2) :
      Holds good (.map entries)
  | html {markup : String} (trusted : good markup) : Holds good (.html markup)

/-- A value without trusted markup. -/
abbrev Value.Plain : Value → Prop := Value.Holds fun _ => False

namespace Value

variable {good : String → Prop}

/-- What holds of the markup in a value may be weakened. -/
theorem Holds.mono {better : String → Prop} (weaker : ∀ markup, good markup → better markup)
    {value : Value} (holds : value.Holds good) : value.Holds better := by
  induction holds with
  | null => exact .null
  | bool flag => exact .bool flag
  | int number => exact .int number
  | float number => exact .float number
  | str text => exact .str text
  | list _ ih => exact .list ih
  | map _ ih => exact .map ih
  | html trusted => exact .html (weaker _ trusted)

/-- Anything holds of the markup in a plain value. -/
theorem Plain.holds {value : Value} (plain : value.Plain) : value.Holds good :=
  plain.mono fun _ => False.elim

mutual

/-- What holds of all markup holds of the markup in a value. -/
theorem holds_of_forall (all : ∀ markup, good markup) : ∀ value : Value, value.Holds good
  | .null => .null
  | .bool flag => .bool flag
  | .int number => .int number
  | .float number => .float number
  | .str text => .str text
  | .list items => .list (holds_items_of_forall all items)
  | .map entries => .map (holds_entries_of_forall all entries)
  | .html markup => .html (all markup)

/-- What holds of all markup holds of the markup in values. -/
theorem holds_items_of_forall (all : ∀ markup, good markup) :
    ∀ items : List Value, ∀ item ∈ items, item.Holds good
  | [] => by simp
  | first :: rest => by
    intro item member
    rcases List.mem_cons.1 member with here | member
    · exact here ▸ holds_of_forall all first
    · exact holds_items_of_forall all rest item member

/-- What holds of all markup holds of the markup in entries. -/
theorem holds_entries_of_forall (all : ∀ markup, good markup) :
    ∀ entries : List (String × Value), ∀ entry ∈ entries, entry.2.Holds good
  | [] => by simp
  | (_, first) :: rest => by
    intro entry member
    rcases List.mem_cons.1 member with here | member
    · exact here ▸ holds_of_forall all first
    · exact holds_entries_of_forall all rest entry member

end

/-- What is found under a key is part of the value. -/
theorem holds_get? {value next : Value} {key : String} (holds : value.Holds good)
    (found : value.get? key = some next) : next.Holds good := by
  cases holds with
  | list each =>
    obtain ⟨position, -, there⟩ := Option.bind_eq_some_iff.1 found
    have inside := List.mem_of_getElem? there
    exact each next inside
  | @map entries each =>
    have inside : (key, next) ∈ entries := Entries.mem_of_find? found
    exact each (key, next) inside
  | null => simp [get?] at found
  | bool flag => simp [get?] at found
  | int number => simp [get?] at found
  | float number => simp [get?] at found
  | str text => simp [get?] at found
  | html trusted => simp [get?] at found

/-- What is found under a key, or null, is part of the value. -/
theorem holds_getD {value : Value} (holds : value.Holds good) (key : String) :
    ((value.get? key).getD .null).Holds good := by
  cases found : value.get? key with
  | none => exact .null
  | some next => exact holds_get? holds found

/-- What is at the end of a path is part of the value. -/
theorem holds_follow {value : Value} (holds : value.Holds good) (path : List String) :
    (value.follow path).Holds good := by
  induction path generalizing value with
  | nil => exact holds
  | cons key path ih =>
    simp only [follow]
    cases found : value.get? key with
    | none => exact .null
    | some next =>
      have part : next.Holds good := holds_get? holds found
      exact ih part

/-- A map made of pairs contains the markup of their values. -/
theorem holds_ofEntries {pairs : List (String × Value)}
    (each : ∀ pair ∈ pairs, pair.2.Holds good) : (ofEntries pairs).Holds good :=
  .map fun entry member => each entry (Entries.mem_ofList member)

/-- The items that a range goes over are part of the value. -/
theorem holds_items {σ : Type} {setting : Setting σ} {value : Value} {items : List Value}
    (holds : value.Holds good) (found : setting.items value = .ok items) :
    ∀ item ∈ items, item.Holds good := by
  cases holds with
  | list each =>
    obtain rfl := Except.ok.inj found
    exact each
  | map each =>
    obtain rfl := Except.ok.inj found
    intro item member
    obtain ⟨entry, inside, rfl⟩ := List.mem_map.1 member
    exact each entry inside
  | int count =>
    simp only [Setting.items] at found
    split at found
    · cases found
    · obtain rfl := Except.ok.inj found
      intro item member
      obtain ⟨index, -, rfl⟩ := List.mem_map.1 member
      exact .int _
  | null =>
    obtain rfl := Except.ok.inj found
    exact fun item member => absurd member List.not_mem_nil
  | bool flag => cases found
  | float number => cases found
  | str text => cases found
  | html trusted => cases found

mutual

/-- The data of a document is plain. -/
theorem ofJson_plain : ∀ json : Json, (ofJson json).Plain
  | .null => .null
  | .bool flag => .bool flag
  | .number numeral => by
    simp only [ofJson, ofNumeral]
    cases fits : numeral.integer?.bind ofInt? with
    | none => exact .float _
    | some value =>
      obtain ⟨number, -, made⟩ := Option.bind_eq_some_iff.1 fits
      obtain ⟨word, -, rfl⟩ := Option.map_eq_some_iff.1 made
      exact .int word
  | .string text => .str _
  | .array items => .list (ofItems_plain items)
  | .object fields => holds_ofEntries (ofFields_plain fields)

/-- The items of an array are plain. -/
theorem ofItems_plain : ∀ items : List Json, ∀ item ∈ ofItems items, item.Plain
  | [] => by simp [ofItems]
  | first :: rest => by
    intro item member
    rcases List.mem_cons.1 member with here | member
    · exact here ▸ ofJson_plain first
    · exact ofItems_plain rest item member

/-- The fields of an object are plain. -/
theorem ofFields_plain : ∀ fields : List (Option String × Json),
    ∀ field ∈ ofFields fields, field.2.Plain
  | [] => by simp [ofFields]
  | (name, first) :: rest => by
    intro field member
    rcases List.mem_cons.1 member with here | member
    · exact here ▸ ofJson_plain first
    · exact ofFields_plain rest field member

end

/-- The data of an invocation contains the markup of its arguments. -/
theorem holds_dataOf {arguments : List Value} (each : ∀ value ∈ arguments, value.Holds good) :
    (Session.dataOf arguments).Holds good := by
  unfold Session.dataOf
  split
  · exact each _ List.mem_cons_self
  · refine holds_ofEntries fun pair member => ?_
    obtain ⟨numbered, inside, rfl⟩ := List.mem_map.1 member
    have argument := List.fst_mem_of_mem_zipIdx inside
    exact each numbered.1 argument

/-- The pairs of alternating names and values contain the markup of the values. -/
theorem holds_dictPairs {arguments : List Value} {pairs : List (String × Value)}
    (each : ∀ value ∈ arguments, value.Holds good) (made : dictPairs arguments = .ok pairs) :
    ∀ pair ∈ pairs, pair.2.Holds good := by
  fun_induction dictPairs arguments generalizing pairs with
  | case1 key value rest name _ ih =>
    obtain ⟨others, later, rfl⟩ := exists_of_map_ok made
    have eachRest : ∀ item ∈ rest, item.Holds good := fun item inside =>
      each item (List.mem_cons_of_mem _ (List.mem_cons_of_mem _ inside))
    intro pair member
    rcases List.mem_cons.1 member with here | member
    · have inside : value ∈ key :: value :: rest := by simp
      exact here ▸ each value inside
    · exact ih eachRest later pair member
  | case2 => simp at made
  | case3 =>
    obtain rfl := Except.ok.inj made
    simp

/-- A map of alternating names and values contains the markup of the values. -/
theorem holds_dict {arguments : List Value} {value : Value}
    (each : ∀ value ∈ arguments, value.Holds good) (made : dict arguments = .ok value) :
    value.Holds good := by
  unfold dict at made
  split at made
  · simp at made
  · cases pairs : dictPairs arguments with
    | error fault => simp [pairs] at made
    | ok found =>
      simp only [pairs, Except.ok.injEq] at made
      subst made
      have values := holds_dictPairs each pairs
      exact holds_ofEntries values

/-- The first accepted value, or the last one, or null, contains markup of the values. -/
theorem holds_firstOrLast {arguments : List Value} (test : Value → Bool)
    (each : ∀ value ∈ arguments, value.Holds good) : (firstOrLast test arguments).Holds good := by
  unfold firstOrLast
  cases found : arguments.find? test with
  | some value =>
    have inside : value ∈ arguments := List.mem_of_find?_eq_some found
    exact each value inside
  | none =>
    cases last : arguments.getLast? with
    | some value =>
      have inside : value ∈ arguments := List.mem_of_getLast? last
      exact each value inside
    | none => exact .null

/-- A function of one argument and more answers what it applies to them. -/
theorem eq_of_withOne {α : Type} {name : String} {arguments : List Value} {answer : α}
    {apply : Value → List Value → α} (answers : withOne name arguments apply = .ok answer) :
    ∃ first others, arguments = first :: others ∧ answer = apply first others := by
  cases arguments with
  | nil => simp [withOne] at answers
  | cons first others => exact ⟨first, others, rfl, (Except.ok.inj answers).symm⟩

/-- A function of two arguments and more answers what it applies to them. -/
theorem eq_of_withTwo {α : Type} {name : String} {arguments : List Value} {answer : α}
    {apply : Value → Value → List Value → α}
    (answers : withTwo name arguments apply = .ok answer) :
    ∃ first second others, answer = apply first second others := by
  unfold withTwo at answers
  split at answers
  · exact ⟨_, _, _, (Except.ok.inj answers).symm⟩
  · simp at answers

/-- An order is told by a truth value. -/
theorem ordered_plain {name : String} {arguments : List Value} {accept : Ordering → Bool}
    {value : Value} (answers : ordered name arguments accept = .ok value) : value.Plain := by
  obtain ⟨order, -, made⟩ := exists_of_bind_ok answers
  split at made
  · obtain rfl := Except.ok.inj made
    exact .bool _
  · simp at made

/-- A size is told by an integer. -/
theorem size_plain {name : String} {arguments : List Value} {value : Value}
    (answers : size name arguments = .ok value) : value.Plain := by
  obtain ⟨length, -, made⟩ := exists_of_bind_ok answers
  split at made
  · obtain rfl := Except.ok.inj made
    exact .int _
  · simp at made

/-- What a built-in function answers contains only markup of its arguments. -/
theorem holds_builtin {name : String} {arguments : List Value} {value : Value}
    (each : ∀ value ∈ arguments, value.Holds good)
    (answers : builtin name arguments = some (.ok value)) : value.Holds good := by
  unfold builtin at answers
  split at answers
  case h_1 | h_2 =>
    obtain ⟨_, _, _, rfl⟩ := eq_of_withTwo (Option.some.inj answers)
    exact .bool _
  case h_3 | h_4 | h_5 | h_6 => exact (ordered_plain (Option.some.inj answers)).holds
  case h_7 =>
    obtain ⟨_, _, -, rfl⟩ := eq_of_withOne (Option.some.inj answers)
    exact .bool _
  case h_8 | h_9 =>
    obtain rfl := Except.ok.inj (Option.some.inj answers)
    exact holds_firstOrLast _ each
  case h_10 => exact (size_plain (Option.some.inj answers)).holds
  case h_11 =>
    obtain ⟨first, keys, rfl, rfl⟩ := eq_of_withOne (Option.some.inj answers)
    have start : first.Holds good := each first List.mem_cons_self
    clear each answers
    -- Every key of the look-up leads to a part of the value before it.
    induction keys generalizing first with
    | nil => exact start
    | cons key keys ih => exact ih _ (holds_getD start key.text)
  case h_12 =>
    obtain rfl := Except.ok.inj (Option.some.inj answers)
    exact .str _
  case h_13 => simp at answers

end Value

namespace Helper

/-- The helper answers only values without trusted markup. -/
def AnswersPlain (helper : Helper) : Prop :=
  ∀ arguments value, helper arguments = .ok value → value.Plain

/-- A number that fits is told by an integer. -/
theorem exactly_plain {number : Int} {value : Value} (answers : exactly number = .ok value) :
    value.Plain := by
  unfold exactly at answers
  split at answers
  · obtain rfl := Except.ok.inj answers
    exact .int _
  · simp at answers

/-- Arithmetic answers integers. -/
theorem arithmetic_answersPlain (operation : Int → Int → Int) :
    (arithmetic operation).AnswersPlain := by
  intro arguments value answers
  obtain ⟨⟨left, right⟩, -, made⟩ := exists_of_bind_ok answers
  exact exactly_plain made

/-- A remainder is an integer. -/
theorem remainder_answersPlain : remainder.AnswersPlain := by
  intro arguments value answers
  obtain ⟨⟨left, right⟩, -, made⟩ := exists_of_bind_ok answers
  simp only at made
  split at made
  · simp at made
  · split at made
    · simp at made
    · obtain rfl := Except.ok.inj made
      exact .int _

/-- Whether there is a field is told by a truth value. -/
theorem hasField_answersPlain : hasField.AnswersPlain := by
  intro arguments value answers
  unfold hasField at answers
  split at answers
  · obtain rfl := Except.ok.inj answers
    exact .bool _
  · obtain rfl := Except.ok.inj answers
    exact .bool _
  · simp at answers

/-- The default helpers answer only values without trusted markup. -/
theorem defaults_answerPlain : ∀ entry ∈ defaults, entry.2.AnswersPlain := by
  intro entry member
  have listed := Entries.mem_ofList member
  simp only [List.mem_cons, List.not_mem_nil, or_false] at listed
  rcases listed with rfl | rfl | rfl | rfl | rfl | rfl
  · exact arithmetic_answersPlain _
  · exact arithmetic_answersPlain _
  · exact arithmetic_answersPlain _
  · exact remainder_answersPlain
  · intro arguments value answers
    obtain rfl := Except.ok.inj answers
    exact .str _
  · exact hasField_answersPlain

end Helper

/-- With nothing but the default helpers, what a helper answers is plain. -/
theorem Registry.callHelper_plain {registry : Registry}
    (standard : registry.helpers = Helper.defaults) {name : String} {arguments : List Value}
    {value : Value} (answers : registry.callHelper name arguments = some (.ok value)) :
    value.Plain := by
  obtain ⟨helper, found, result⟩ := Option.map_eq_some_iff.1 answers
  rw [standard] at found
  have plain := Helper.defaults_answerPlain _ (Entries.mem_of_find? found)
  split at result
  · rename_i made
    obtain rfl := Except.ok.inj result
    exact plain _ _ made
  · simp at result
  · simp at result

end ComponentPages
