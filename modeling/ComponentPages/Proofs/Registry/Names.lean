import ComponentPages.Proofs.Render.Fragment

/-!
# Names and references

Components are held under the names that they have, but every reader takes a text as a
reference, whose document ending is no part of the name, and some readers take the name of a
name. A listed name reaches its component through every reader exactly when it does not have
the ending itself (`names_agree`). A component with such a name is listed and never found under
it (`names_lists_card`); its name with one more ending still reaches it.
-/
namespace ComponentPages.Registry

open Template

variable {registry : Registry} {name : String} {entry : Registered}

/-- The invocation of a registered component, where at most the given number of frames may be
added to the stack. -/
def invokeEntry (registry : Registry) (entry : Registered) (arguments : List Value) :
    Nat → Eval Session Value
  | 0 => throw (.recursionLimit entry.component.name registry.options.maxDepth)
  | room + 1 => do
    let html ← Session.inFrame ⟨entry.component.name, arguments⟩
      (entry.template.execute (Session.dataOf arguments)
        (registry.hostOf (registry.invokeWithin room)))
    return .html html

/-- Every reader takes a name for one component, which has the name. -/
structure Agrees (registry : Registry) (name : String) (entry : Registered) : Prop where
  contained : registry.contains name = true
  found : registry.lookup name = some entry.component
  named : entry.component.name = name
  /-- The template that renders execute is that of the component. -/
  parsed : Template.parse name entry.component.markup = .ok entry.template
  /-- A fragment of the name executes the component, in a session that has used the name. -/
  executes : ∀ data, (registry.renderFragment name data).map Fragment.html =
    ((entry.template.execute data registry.host).run (Session.start.mark name)).1
  /-- A fragment of the name lists it first and carries the assets of the component first. -/
  carries : ∀ data fragment, registry.renderFragment name data = .ok fragment →
    ∃ others, fragment.used = name :: others ∧
      fragment.assets.css =
        assetLine entry.component.style ++ (registry.assets others).css ∧
      fragment.assets.js =
        assetLine entry.component.script ++ (registry.assets others).js
  /-- The markup of a render invokes the component by the name. -/
  invokes : ∀ (setting : Setting Session) (arguments : List Value) (session : Session),
    setting.host = registry.host →
    (setting.call "comp" (.str name :: arguments)).run session =
      (registry.invokeEntry entry arguments
        (registry.options.maxDepth - session.depth)).run session
  /-- The markup of an invoked component invokes the component by the name. -/
  nests : ∀ (setting : Setting Session) (arguments : List Value) (room : Nat),
    setting.host = registry.hostOf (registry.invokeWithin room) →
    setting.call "comp" (.str name :: arguments) = registry.invokeEntry entry arguments room

/-- Something is held under a listed name. -/
theorem held_of_mem_names (listed : name ∈ registry.names) :
    ∃ entry, Entries.find? name registry.components = some entry :=
  Option.isSome_iff_exists.1 (Entries.mem_names.1 listed)

/-- A reference stands for a component exactly when the name of the reference is listed. -/
theorem contains_iff {reference : String} :
    registry.contains reference = true ↔ componentName reference ∈ registry.names :=
  Entries.mem_names.symm

/-- A name without the ending stands for what is held under it. -/
theorem entry?_of_held (held : Entries.find? name registry.components = some entry)
    (itself : componentName name = name) : registry.entry? name = some entry := by
  unfold entry?
  rw [itself]
  exact held

/-- A name with one ending stands for what is held under the name. -/
theorem entry?_append_of_held (held : Entries.find? name registry.components = some entry) :
    registry.entry? (name ++ ".html") = some entry := by
  unfold entry?
  rw [componentName_append]
  exact held

/-- An invocation by a name without the ending is one of the component held under it. -/
theorem invokeWithin_of_held (formed : registry.WellFormed)
    (held : Entries.find? name registry.components = some entry)
    (itself : componentName name = name) (arguments : List Value) (room : Nat) :
    registry.invokeWithin room name arguments = registry.invokeEntry entry arguments room := by
  have found : registry.entry? (componentName name) = some entry :=
    itself.symm ▸ entry?_of_held held itself
  have named : entry.component.name = componentName name := by
    rw [(formed.entry found).1, itself, itself]
  cases room with
  | zero =>
    rw [invokeWithin, invokeEntry, named]
    simp only [found]
  | succ room => rw [invokeWithin_succ found, invokeEntry, named]

/-- A fragment of a component writes what the template of the component writes in a session that
has used the component. -/
theorem evaluateFragment_html (entry : Registered) (data : Value) (session : Session) :
    (((registry.evaluateFragment entry data).run session).1).map Fragment.html =
      ((entry.template.execute data registry.host).run
        (session.mark entry.component.name)).1 := by
  cases executed : (entry.template.execute data registry.host).run
      (session.mark entry.component.name) with
  | mk outcome last =>
    cases outcome with
    | error failure =>
      simp only [evaluateFragment, run_bind, run_modify, executed]
      rfl
    | ok html =>
      simp only [evaluateFragment, run_bind, run_modify, run_get, run_pure, executed]
      rfl

/-- Whatever a session uses after it has used one name, that name stays the first. -/
theorem used_head_of_execute (template : Template) (data : Value)
    (itself : componentName name = name) :
    ∃ others, ((template.execute data registry.host).run (Session.start.mark name)).2.used =
      name :: others := by
  obtain ⟨trace, course⟩ := execute_course registry template data (Session.start.mark name)
  have used : ((template.execute data registry.host).run (Session.start.mark name)).2.used =
      (componentName name :: marksOf trace).eraseDups := by
    rw [course]
    exact Session.used_course [name] [] trace
  rw [itself, List.eraseDups_cons] at used
  exact ⟨_, used⟩

/-- Every reader takes a name without the ending for the component held under it. -/
theorem agrees_of_held (formed : registry.WellFormed)
    (held : Entries.find? name registry.components = some entry)
    (itself : componentName name = name) : registry.Agrees name entry := by
  have found : registry.entry? name = some entry := entry?_of_held held itself
  obtain ⟨named, parsed⟩ := formed.entry found
  rw [itself] at named
  rw [named] at parsed
  have looked : registry.lookup name = some entry.component := by rw [lookup, found]; rfl
  refine ⟨by rw [contains, found]; rfl, looked, named, parsed, ?_, ?_, ?_, ?_⟩
  · intro data
    rw [renderFragment, found]
    exact named ▸ evaluateFragment_html entry data .start
  · intro data fragment rendered
    obtain ⟨other, same, made⟩ := evaluateFragment_of_renderFragment rendered
    obtain rfl := Option.some.inj (found.symm.trans same)
    obtain ⟨-, -, used, assets⟩ := evaluateFragment_ok made
    rw [named] at used assets
    obtain ⟨others, first⟩ := used_head_of_execute entry.template data itself
    rw [first] at used assets
    refine ⟨others, used, ?_, ?_⟩
    · rw [assets, assets_eq_join, assets_eq_join]
      simp only [List.map_cons, String.join_cons, contribution, looked]
    · rw [assets, assets_eq_join, assets_eq_join]
      simp only [List.map_cons, String.join_cons, contribution, looked]
  · intro setting arguments session host
    simp only [Setting.call, host, Registry.host, hostOf, invoke, run_bind, run_get]
    rw [invokeWithin_of_held formed held itself]
  · intro setting arguments room host
    simp only [Setting.call, host, hostOf]
    exact invokeWithin_of_held formed held itself arguments room

/-- In every registry that a program reaches, something is held under each listed name, and the
name with an ending stands for it. Every reader takes the name itself for it exactly when the
name does not have the ending. -/
theorem names_agree (reachable : registry.Reachable) (listed : name ∈ registry.names) :
    ∃ entry, Entries.find? name registry.components = some entry ∧
      registry.lookup (name ++ ".html") = some entry.component ∧
      (registry.Agrees name entry ↔ ¬ documentEnding <:+ name.toList) := by
  obtain ⟨entry, held⟩ := held_of_mem_names listed
  have ended : registry.lookup (name ++ ".html") = some entry.component := by
    rw [lookup, entry?_append_of_held held]
    rfl
  refine ⟨entry, held, ended, ?_⟩
  rw [← componentName_eq_self]
  constructor
  · intro agrees
    obtain ⟨other, found, same⟩ := Option.map_eq_some_iff.1 agrees.found
    have named := (reachable.wellFormed.entry found).1
    rw [← named, same, agrees.named]
  · exact agrees_of_held reachable.wellFormed held

/-- Every reader takes the name of the greeting for the greeting. -/
theorem names_agree_greeting : "greeting" ∈ greetings.names ∧
    ∃ entry, Entries.find? "greeting" greetings.components = some entry ∧
      greetings.lookup ("greeting" ++ ".html") = some entry.component ∧
      (greetings.Agrees "greeting" entry ↔ ¬ documentEnding <:+ "greeting".toList) := by
  have listed : "greeting" ∈ greetings.names := by decide +kernel
  exact ⟨listed, names_agree greetings_reachable listed⟩

/-- A registry whose only component has a name with the ending. -/
def cards : Registry := (Registry.new .default).run [
  .compile "card.html" "<template><p>x</p></template><style>p\x7ba:b\x7d</style>"]

/-- The name of a card is listed, and no reader finds the card under it. -/
theorem names_lists_card :
    cards.Reachable ∧ cards.names = ["card.html"] ∧ cards.contains "card.html" = false ∧
      cards.lookup "card.html" = none ∧
      cards.renderFragment "card.html" .null = .error (.componentNotFound "card.html") ∧
      ((cards.invoke "card.html" []).run .start).1.map (fun _ => ()) =
        .error (.componentNotFound "card") :=
  ⟨⟨.default, _, rfl⟩, by decide +kernel⟩

end ComponentPages.Registry
