import ComponentPages.Entries

/-!
# Used names

The names of the components that a render has reached. A name keeps the place of its first use,
and using it again changes nothing: after uses of any names one by one, the order is that of
the names with later repetitions removed (`order_useAll`).
-/
namespace ComponentPages

/-- The names that were used. -/
structure Usage where
  /-- The names, in the order of their first uses. -/
  order : List String
  /-- The same names, to look one up. -/
  seen : Entries Unit

namespace Usage

/-- The usage before any name was used. -/
def empty : Usage := ⟨[], []⟩

/-- Whether a name was used. -/
def contains (usage : Usage) (name : String) : Bool := (Entries.find? name usage.seen).isSome

/-- The usage after a name is used. -/
def use (usage : Usage) (name : String) : Usage :=
  if usage.contains name then usage
  else ⟨usage.order ++ [name], Entries.insert name () usage.seen⟩

/-- The usage after names are used one by one. -/
def useAll (usage : Usage) (names : List String) : Usage := names.foldl use usage

/-- The names to look up are the names in order. -/
def Agrees (usage : Usage) : Prop := ∀ name, usage.contains name = true ↔ name ∈ usage.order

/-- Before any name was used, none is found. -/
theorem agrees_empty : empty.Agrees := by
  intro name
  simp [empty, contains, Entries.find?]

/-- Using names after others is using all of them. -/
theorem useAll_append (usage : Usage) (names others : List String) :
    usage.useAll (names ++ others) = (usage.useAll names).useAll others := by
  simp only [useAll, List.foldl_append]

/-- After a use the name is found, and every other name is found if it was before. -/
theorem contains_use (usage : Usage) (name other : String) :
    (usage.use name).contains other = true ↔ other = name ∨ usage.contains other = true := by
  by_cases used : usage.contains name = true
  · have same : usage.use name = usage := by simp only [use, used, ↓reduceIte]
    rw [same]
    exact ⟨.inr, fun found => found.elim (fun here => here ▸ used) id⟩
  · have added : usage.use name = ⟨usage.order ++ [name], Entries.insert name () usage.seen⟩ := by
      simp only [use, used, Bool.false_eq_true, ↓reduceIte]
    rw [added]
    by_cases here : other = name
    · simp [contains, Entries.find?_insert, here]
    · simp [contains, Entries.find?_insert, here]

/-- A use keeps the order of the names, where the name is put at the end if it is new. -/
theorem order_use {usage : Usage} (agrees : usage.Agrees) {names : List String}
    (order : usage.order = names.eraseDups) (name : String) :
    (usage.use name).order = (names ++ [name]).eraseDups := by
  have found : usage.contains name = true ↔ name ∈ names := by
    rw [agrees name, order, List.mem_eraseDups]
  rw [List.eraseDups_append]
  by_cases used : name ∈ names
  · simp [use, found.2 used, order, List.removeAll, used]
  · simp [use, mt found.1 used, order, List.removeAll, used, List.eraseDups_cons]

/-- A use keeps the names to look up the names in order. -/
theorem agrees_use {usage : Usage} (agrees : usage.Agrees) (name : String) :
    (usage.use name).Agrees := by
  intro other
  rw [contains_use, agrees other]
  by_cases used : usage.contains name = true
  · have member := (agrees name).1 used
    simp only [use, used, ↓reduceIte]
    exact ⟨fun found => found.elim (fun here => here ▸ member) id, .inr⟩
  · simp only [use, used, Bool.false_eq_true, ↓reduceIte, List.mem_append, List.mem_singleton]
    exact Or.comm

/-- Uses of names add them in order, with later repetitions removed. -/
theorem useAll_order {usage : Usage} (agrees : usage.Agrees) {names : List String}
    (order : usage.order = names.eraseDups) (others : List String) :
    (usage.useAll others).Agrees ∧ (usage.useAll others).order = (names ++ others).eraseDups := by
  induction others generalizing usage names with
  | nil => exact ⟨agrees, by simpa [useAll] using order⟩
  | cons name others ih =>
    have later := ih (agrees_use agrees name) (order_use agrees order name)
    simpa [useAll] using later

/-- Each name is in order once, and the names to look up are the names in order. -/
structure Consistent (usage : Usage) : Prop where
  nodup : usage.order.Nodup
  agrees : usage.Agrees

/-- The usage before any name was used is consistent. -/
theorem consistent_empty : empty.Consistent := ⟨List.nodup_nil, agrees_empty⟩

/-- A use keeps a usage consistent. -/
theorem consistent_use {usage : Usage} (consistent : usage.Consistent) (name : String) :
    (usage.use name).Consistent := by
  refine ⟨?_, agrees_use consistent.agrees name⟩
  by_cases used : usage.contains name = true
  · simpa only [use, used, ↓reduceIte] using consistent.nodup
  · have new : name ∉ usage.order := mt (consistent.agrees name).2 used
    simp only [use, used, Bool.false_eq_true, ↓reduceIte]
    rw [List.nodup_append]
    refine ⟨consistent.nodup, by simp, fun other before last here same => ?_⟩
    exact new (List.mem_singleton.1 here ▸ same ▸ before)

/-- A use changes the names in order at their end alone. -/
theorem prefix_use (usage : Usage) (name : String) : usage.order <+: (usage.use name).order := by
  unfold use
  split
  · exact List.prefix_refl _
  · exact List.prefix_append _ _

/-- Uses keep a usage consistent. -/
theorem consistent_useAll {usage : Usage} (consistent : usage.Consistent) (names : List String) :
    (usage.useAll names).Consistent := by
  induction names generalizing usage with
  | nil => exact consistent
  | cons name names ih => exact ih (consistent_use consistent name)

/-- Uses change the names in order at their end alone. -/
theorem prefix_useAll (usage : Usage) (names : List String) :
    usage.order <+: (usage.useAll names).order := by
  induction names generalizing usage with
  | nil => exact List.prefix_refl _
  | cons name names ih => exact (prefix_use usage name).trans (ih (usage.use name))

/-- The names used one by one from the start are in the order of their first uses. -/
theorem order_useAll (names : List String) : (empty.useAll names).order = names.eraseDups :=
  (useAll_order agrees_empty (show Usage.empty.order = ([] : List String).eraseDups from rfl)
    names).2

end Usage

end ComponentPages
