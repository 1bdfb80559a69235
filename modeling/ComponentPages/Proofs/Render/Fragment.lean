import ComponentPages.Proofs.Registry.Reachable
import ComponentPages.Proofs.Session.Course

/-!
# Fragments

A fragment lists the component that it is of and the components of all invocations that began
in its render, in the order of their first uses, and carries their styles and scripts
(`renderFragment_assets`). Components that were not reached contribute nothing.
-/
namespace ComponentPages.Registry

open Template

/-- What a text of a component under a name contributes: a line, or nothing if the name is of
no component. -/
def contribution (registry : Registry) (text : Component → String) (name : String) : String :=
  match registry.lookup name with
  | some component => assetLine (text component)
  | none => ""

/-- The assets of names are the contributions of each, in order. -/
theorem assets_eq_join (registry : Registry) (names : List String) :
    registry.assets names =
      ⟨String.join (names.map (registry.contribution Component.style)),
        String.join (names.map (registry.contribution Component.script))⟩ := by
  induction names with
  | nil => rfl
  | cons name names ih =>
    have rest := Assets.mk.inj ih
    cases found : registry.lookup name with
    | none => simpa [assets, contribution, found] using rest
    | some component => simpa [assets, contribution, found] using rest

/-- The assets of names depend on nothing but the components of these names. -/
theorem assets_congr {registry other : Registry} {names : List String}
    (same : ∀ name ∈ names, other.lookup name = registry.lookup name) :
    other.assets names = registry.assets names := by
  have contributions (text : Component → String) :
      names.map (other.contribution text) = names.map (registry.contribution text) := by
    refine List.map_congr_left fun name member => ?_
    simp only [contribution, same name member]
  rw [assets_eq_join, assets_eq_join, contributions, contributions]

/-- The render of a fragment marks its component and then executes its template. -/
theorem evaluateFragment_run (registry : Registry) (entry : Registered) (data : Value)
    (session : Session) :
    (registry.evaluateFragment entry data).run session =
      match (entry.template.execute data registry.host).run
        (session.mark entry.component.name) with
      | (.ok html, last) => (.ok ⟨html, registry.assets last.used, last.used⟩, last)
      | (.error failure, last) => (.error failure, last) := by
  simp only [evaluateFragment, run_bind, run_modify, run_get, run_pure]
  cases (entry.template.execute data registry.host).run (session.mark entry.component.name) with
  | mk outcome last =>
    cases outcome with
    | error failure => rfl
    | ok html => rfl

/-- A fragment is what the template of its component writes, with the components used when it
is done. -/
theorem evaluateFragment_ok {registry : Registry} {entry : Registered} {data : Value}
    {session : Session} {fragment : Fragment}
    (made : ((registry.evaluateFragment entry data).run session).1 = .ok fragment) :
    let executed := (entry.template.execute data registry.host).run
      (session.mark entry.component.name)
    executed.1 = .ok fragment.html ∧
      ((registry.evaluateFragment entry data).run session).2 = executed.2 ∧
      fragment.used = executed.2.used ∧ fragment.assets = registry.assets executed.2.used := by
  rw [evaluateFragment_run] at made ⊢
  cases executed : (entry.template.execute data registry.host).run
      (session.mark entry.component.name) with
  | mk outcome last =>
    rw [executed] at made
    cases outcome with
    | error failure => exact nomatch made
    | ok html =>
      obtain rfl := Except.ok.inj made
      exact ⟨rfl, rfl, rfl, rfl⟩

/-- A rendered fragment is of a registered component, from the start of a session. -/
theorem evaluateFragment_of_renderFragment {registry : Registry} {reference : String}
    {data : Value} {fragment : Fragment}
    (rendered : registry.renderFragment reference data = .ok fragment) :
    ∃ entry, registry.entry? reference = some entry ∧
      ((registry.evaluateFragment entry data).run .start).1 = .ok fragment := by
  unfold renderFragment at rendered
  split at rendered
  · simp at rendered
  · rename_i entry found
    exact ⟨entry, found, rendered⟩

/-- A fragment uses its component and those of the invocations that began, in the order of
their first uses, and carries exactly their styles and scripts. -/
theorem renderFragment_assets (registry : Registry) {reference : String} {data : Value}
    {fragment : Fragment} (rendered : registry.renderFragment reference data = .ok fragment) :
    ∃ entry, registry.entry? reference = some entry ∧
      let begun := ((registry.evaluateFragment entry data).run .start).2.begun
      fragment.used = (componentName entry.component.name ::
        begun.map fun invocation => componentName invocation.frame.name).eraseDups ∧
      fragment.assets.css =
        String.join (fragment.used.map (registry.contribution Component.style)) ∧
      fragment.assets.js =
        String.join (fragment.used.map (registry.contribution Component.script)) ∧
      ∀ other : Registry, (∀ name ∈ fragment.used, other.lookup name = registry.lookup name) →
        other.assets fragment.used = fragment.assets := by
  obtain ⟨entry, found, made⟩ := evaluateFragment_of_renderFragment rendered
  obtain ⟨-, last, used, assets⟩ := evaluateFragment_ok made
  obtain ⟨trace, course⟩ :=
    execute_course registry entry.template data (Session.start.mark entry.component.name)
  have begun : ((registry.evaluateFragment entry data).run .start).2.begun = trace := by
    rw [last, course]
    rfl
  have marked : fragment.used =
      (componentName entry.component.name :: marksOf trace).eraseDups := by
    rw [used, course]
    exact Session.used_course [entry.component.name] [] trace
  have joined : fragment.assets = registry.assets fragment.used := by rw [assets, used]
  refine ⟨entry, found, ?_, ?_, ?_, ?_⟩
  · rw [begun, marked]
    rfl
  · rw [joined, assets_eq_join]
  · rw [joined, assets_eq_join]
  · intro other same
    rw [joined]
    exact assets_congr same

/-- The fragment of a greeting. -/
theorem renderFragment_assets_greeting :
    let data := Value.map [("name", .str "Ada")]
    let fragment : Fragment := ⟨"<p><b>Ada</b></p>", ⟨"b \x7b color: red \x7d\n", "hello()\n"⟩,
      ["greeting", "guest"]⟩
    greetings.renderFragment "greeting" data = .ok fragment ∧
    ∃ entry, greetings.entry? "greeting" = some entry ∧
      let begun := ((greetings.evaluateFragment entry data).run .start).2.begun
      fragment.used = (componentName entry.component.name ::
        begun.map fun invocation => componentName invocation.frame.name).eraseDups ∧
      fragment.assets.css =
        String.join (fragment.used.map (greetings.contribution Component.style)) ∧
      fragment.assets.js =
        String.join (fragment.used.map (greetings.contribution Component.script)) ∧
      ∀ other : Registry, (∀ name ∈ fragment.used, other.lookup name = greetings.lookup name) →
        other.assets fragment.used = fragment.assets :=
  have rendered : greetings.renderFragment "greeting" (.map [("name", .str "Ada")]) =
      .ok ⟨"<p><b>Ada</b></p>", ⟨"b \x7b color: red \x7d\n", "hello()\n"⟩,
        ["greeting", "guest"]⟩ := by decide +kernel
  ⟨rendered, renderFragment_assets greetings rendered⟩

end ComponentPages.Registry
