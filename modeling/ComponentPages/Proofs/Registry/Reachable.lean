import ComponentPages.Load
import Mathlib.Logic.Relation

/-!
# Registries that a program can reach

A program starts with a new registry and changes it by operations, each of which may fail
(`Registry.run`). In every registry that it reaches, components are held under their own names,
every template is the parse of the markup next to it, and no helper has a reserved name
(`Reachable.wellFormed`). Every operation is made of a few kinds of changes (`changes_after`),
and each of those keeps these facts.
-/
namespace ComponentPages

/-- What a program does with a registry. -/
inductive Operation where
  | register (component : Component)
  | compile (name source : String)
  | setShell (shell : Shell)
  | compileShell (name source : String)
  | addHelpers (helpers : List (String × Helper))
  | loadSources (sources : List (String × String))
  | loadDirectories (files : FileTree) (directories : List String)
  | renderIsolated (identity source : String) (data : Value)
  | renderFile (files : FileTree) (path : String) (data : Value)

namespace Registry

/-- The registry that an operation returns, or the given one if it fails. -/
def orElse (registry : Registry) : Except Failure Registry → Registry
  | .ok after => after
  | .error _ => registry

/-- The registry after an operation. -/
def after (registry : Registry) : Operation → Registry
  | .register component => registry.orElse (registry.register component)
  | .compile name source => registry.orElse ((registry.compile name source).map Prod.snd)
  | .setShell shell => registry.orElse (registry.setShell shell)
  | .compileShell name source =>
    registry.orElse ((registry.compileShell name source).map Prod.snd)
  | .addHelpers helpers => registry.addHelpers helpers
  | .loadSources sources => (registry.loadSources sources).2
  | .loadDirectories files directories => (registry.loadDirectories files directories).2
  | .renderIsolated identity source data => (registry.renderIsolated identity source data).2
  | .renderFile files path data => (registry.renderFile files path data).2

/-- The registry after operations, one after the other. -/
def run (registry : Registry) (operations : List Operation) : Registry :=
  operations.foldl after registry

/-- A program can reach the registry from a new one. -/
def Reachable (registry : Registry) : Prop :=
  ∃ options operations, (Registry.new options).run operations = registry

/-- What holds of every registry that a program reaches. -/
structure WellFormed (registry : Registry) : Prop where
  /-- Components are held under their own names. -/
  named : ∀ held ∈ registry.components, held.2.component.name = held.1
  /-- The names of the components increase. -/
  sorted : Entries.Sorted registry.components
  /-- The template of a component is the parse of its markup. -/
  parsed : ∀ held ∈ registry.components,
    Template.parse held.2.component.name held.2.component.markup = .ok held.2.template
  /-- The template of the page shell is the parse of its markup. -/
  shell : ∀ installed ∈ registry.shell,
    Template.parse installed.shell.name installed.shell.markup = .ok installed.template
  /-- The templates in the cache are parses of documents with the digests next to them. -/
  isolated : ∀ held ∈ registry.isolated, ∃ source, held.2.digest = Digest.ofText source ∧
    Template.parse (isolatedName held.1) (markupOrWhole source) = .ok held.2.template
  /-- No helper has a reserved name. -/
  unreserved : ∀ held ∈ registry.helpers, held.1 ∉ Helper.reserved

/-- A new registry holds nothing but the default helpers. -/
theorem wellFormed_new (options : Options) : (Registry.new options).WellFormed where
  named _ member := nomatch member
  sorted := List.Pairwise.nil
  parsed _ member := nomatch member
  shell _ member := nomatch member
  isolated _ member := nomatch member
  unreserved := by
    show ∀ held ∈ Helper.defaults, held.1 ∉ Helper.reserved
    intro held member
    have listed := Entries.mem_ofList member
    simp only [List.mem_cons, List.not_mem_nil, or_false] at listed
    rcases listed with rfl | rfl | rfl | rfl | rfl | rfl <;> decide

/-- A change of a registry: all operations but the one that adds helpers are made of them. -/
inductive Change (registry after : Registry) : Prop where
  /-- A component is registered. -/
  | registers (component : Component) (done : registry.register component = .ok after)
  /-- A page shell is installed. -/
  | installs (shell : Shell) (done : registry.setShell shell = .ok after)
  /-- A template is taken from the cache, or put in it. -/
  | caches (identity source : String) (template : Template)
    (done : registry.isolatedTemplate identity source = .ok (template, after))

/-- One registry becomes another by changes. -/
abbrev Changes : Registry → Registry → Prop := Relation.ReflTransGen Change

variable {registry after : Registry}

/-- A registration puts a component under its own name, with the parse of its markup. -/
theorem register_ok {component : Component} (done : registry.register component = .ok after) :
    ∃ template, Template.parse component.name component.markup = .ok template ∧
      after = { registry with
        components := Entries.insert component.name ⟨component, template⟩
          registry.components } := by
  obtain ⟨template, parsed, made⟩ := exists_of_bind_ok done
  exact ⟨template, parsed, (Except.ok.inj made).symm⟩

/-- A page shell is installed with the parse of its markup. -/
theorem setShell_ok {shell : Shell} (done : registry.setShell shell = .ok after) :
    ∃ template, Template.parse shell.name shell.markup = .ok template ∧
      after = { registry with shell := some ⟨shell, template⟩ } := by
  obtain ⟨template, parsed, made⟩ := exists_of_bind_ok done
  exact ⟨template, parsed, (Except.ok.inj made).symm⟩

/-- The template of an isolated render is in the cache, under the digest of the document, or it
is the parse of the document and put there. -/
theorem isolatedTemplate_ok {identity source : String} {template : Template}
    (done : registry.isolatedTemplate identity source = .ok (template, after)) :
    (∃ held, Entries.find? identity registry.isolated = some held ∧
        held.digest = Digest.ofText source ∧ held.template = template ∧ after = registry) ∨
      Template.parse (isolatedName identity) (markupOrWhole source) = .ok template ∧
        after = { registry with
          isolated := Entries.insert identity ⟨Digest.ofText source, template⟩
            registry.isolated } := by
  unfold isolatedTemplate at done
  simp only at done
  split at done
  · rename_i held cached
    obtain ⟨same, kept⟩ := Prod.mk.inj (Except.ok.inj done)
    obtain ⟨found, digest⟩ := Option.filter_eq_some_iff.1 cached
    exact .inl ⟨held, found, beq_iff_eq.1 digest, same, kept.symm⟩
  · obtain ⟨parse, parsed, made⟩ := exists_of_bind_ok done
    obtain ⟨rfl, rfl⟩ := Prod.mk.inj (Except.ok.inj made)
    exact .inr ⟨parsed, rfl⟩

/-- A registration keeps a registry well-formed. -/
theorem wellFormed_register (formed : registry.WellFormed) {component : Component}
    (done : registry.register component = .ok after) : after.WellFormed := by
  obtain ⟨template, parsed, rfl⟩ := register_ok done
  have listed : ∀ held ∈ Entries.insert component.name ⟨component, template⟩
      registry.components, held = (component.name, ⟨component, template⟩) ∨
        held ∈ registry.components := fun held member => Entries.mem_insert member
  refine { formed with
    named := ?_, sorted := Entries.sorted_insert _ _ formed.sorted, parsed := ?_ }
  · intro held member
    rcases listed held member with rfl | before
    · rfl
    · exact formed.named held before
  · intro held member
    rcases listed held member with rfl | before
    · exact parsed
    · exact formed.parsed held before

/-- The installation of a page shell keeps a registry well-formed. -/
theorem wellFormed_setShell (formed : registry.WellFormed) {shell : Shell}
    (done : registry.setShell shell = .ok after) : after.WellFormed := by
  obtain ⟨template, parsed, rfl⟩ := setShell_ok done
  refine { formed with shell := ?_ }
  intro installed member
  obtain rfl := Option.some.inj member
  exact parsed

/-- The template of an isolated render keeps a registry well-formed. -/
theorem wellFormed_isolatedTemplate (formed : registry.WellFormed) {identity source : String}
    {template : Template}
    (done : registry.isolatedTemplate identity source = .ok (template, after)) :
    after.WellFormed := by
  rcases isolatedTemplate_ok done with ⟨held, -, -, -, rfl⟩ | ⟨parsed, rfl⟩
  · exact formed
  · refine { formed with isolated := ?_ }
    intro held member
    rcases Entries.mem_insert member with rfl | before
    · exact ⟨source, rfl, parsed⟩
    · exact formed.isolated held before

/-- Helpers are added under names that are not reserved. -/
theorem wellFormed_addHelpers (formed : registry.WellFormed)
    (helpers : List (String × Helper)) : (registry.addHelpers helpers).WellFormed := by
  refine { formed with unreserved := ?_ }
  simp only [addHelpers]
  have free : ∀ helper ∈ helpers.filter fun helper => !Helper.reserved.contains helper.1,
      helper.1 ∉ Helper.reserved := by
    intro helper member
    simpa using (List.mem_filter.1 member).2
  have start := formed.unreserved
  generalize helpers.filter (fun helper => !Helper.reserved.contains helper.1) = added at free ⊢
  generalize registry.helpers = held at start ⊢
  induction added generalizing held with
  | nil => exact start
  | cons helper added ih =>
    have freeRest : ∀ other ∈ added, other.1 ∉ Helper.reserved := fun other member =>
      free other (List.mem_cons_of_mem _ member)
    have next : ∀ entry ∈ Entries.insert helper.1 helper.2 held, entry.1 ∉ Helper.reserved := by
      intro entry member
      rcases Entries.mem_insert member with rfl | before
      · exact free helper List.mem_cons_self
      · exact start entry before
    exact ih freeRest _ next

/-- A change keeps a registry well-formed. -/
theorem Change.wellFormed (change : Change registry after) (formed : registry.WellFormed) :
    after.WellFormed := by
  cases change with
  | registers component done => exact wellFormed_register formed done
  | installs shell done => exact wellFormed_setShell formed done
  | caches identity source template done => exact wellFormed_isolatedTemplate formed done

/-- A change keeps the helpers. -/
theorem Change.helpers (change : Change registry after) : after.helpers = registry.helpers := by
  cases change with
  | registers component done =>
    obtain ⟨template, -, rfl⟩ := register_ok done
    rfl
  | installs shell done =>
    obtain ⟨template, -, rfl⟩ := setShell_ok done
    rfl
  | caches identity source template done =>
    rcases isolatedTemplate_ok done with ⟨held, -, -, -, rfl⟩ | ⟨-, rfl⟩
    · rfl
    · rfl

/-- Changes keep a registry well-formed. -/
theorem Changes.wellFormed (changes : Changes registry after) (formed : registry.WellFormed) :
    after.WellFormed := by
  induction changes with
  | refl => exact formed
  | tail _ change ih => exact change.wellFormed ih

/-- Changes keep the helpers. -/
theorem Changes.helpers (changes : Changes registry after) :
    after.helpers = registry.helpers := by
  induction changes with
  | refl => rfl
  | tail _ change ih => rw [change.helpers, ih]

/-- A result that is taken only if there is one is reached by changes if it is in that case. -/
theorem changes_orElse {result : Except Failure Registry}
    (reaches : ∀ after, result = .ok after → Changes registry after) :
    Changes registry (registry.orElse result) := by
  cases result with
  | ok after => exact reaches after rfl
  | error failure => exact .refl

/-- A compilation makes a component and registers it. -/
theorem compile_ok {name source : String} {component : Component}
    (done : registry.compile name source = .ok (component, after)) :
    component = Component.compile name source registry.options ∧
      registry.register component = .ok after := by
  obtain ⟨registered, made, same⟩ := exists_of_bind_ok done
  obtain ⟨rfl, rfl⟩ := Prod.mk.inj (Except.ok.inj same)
  exact ⟨rfl, made⟩

/-- A compilation of a page shell makes a shell and installs it. -/
theorem compileShell_ok {name source : String} {shell : Shell}
    (done : registry.compileShell name source = .ok (shell, after)) :
    Shell.compile name source = .ok shell ∧ registry.setShell shell = .ok after := by
  obtain ⟨compiled, made, rest⟩ := exists_of_bind_ok done
  obtain ⟨installed, installs, same⟩ := exists_of_bind_ok rest
  obtain ⟨rfl, rfl⟩ := Prod.mk.inj (Except.ok.inj same)
  exact ⟨made, installs⟩

/-- A compilation registers the component that it makes. -/
theorem changes_compile {name source : String} {component : Component}
    (done : registry.compile name source = .ok (component, after)) : Changes registry after :=
  .single (.registers component (compile_ok done).2)

/-- A compilation of a page shell installs what it makes. -/
theorem changes_compileShell {name source : String} {shell : Shell}
    (done : registry.compileShell name source = .ok (shell, after)) :
    Changes registry after :=
  .single (.installs shell (compileShell_ok done).2)

/-- The component of a document is registered, or the registry stays as it is. -/
theorem changes_loadComponent (report : LoadReport)
    (compiled : String × Except Failure Component) :
    Changes registry (loadComponent (report, registry) compiled).2 := by
  simp only [loadComponent]
  split
  · rename_i name loaded done
    obtain ⟨component, -, rest⟩ := exists_of_bind_ok done
    obtain ⟨made, registered, same⟩ := exists_of_bind_ok rest
    obtain ⟨-, rfl⟩ := Prod.mk.inj (Except.ok.inj same)
    exact .single (.registers component registered)
  · exact .refl

/-- The components of documents are registered, or the registry stays as it is. -/
theorem changes_loadComponents (report : LoadReport)
    (compiled : List (String × Except Failure Component)) :
    Changes registry (compiled.foldl loadComponent (report, registry)).2 := by
  induction compiled generalizing report registry with
  | nil => exact .refl
  | cons first others ih =>
    have begin : Changes registry (loadComponent (report, registry) first).2 :=
      changes_loadComponent report first
    exact begin.trans (ih _)

/-- The page shell of a load is installed. -/
theorem changes_loadShell {shells : List Document}
    (done : registry.loadShell shells = .ok after) : Changes registry after := by
  unfold loadShell at done
  split at done
  · simp at done
  · obtain ⟨source, -, rest⟩ := exists_of_bind_ok done
    obtain ⟨⟨shell, made⟩, compiled, same⟩ := exists_of_bind_ok rest
    obtain rfl := Except.ok.inj same
    exact changes_compileShell compiled

/-- A load is made of changes, whether it fails or not. -/
theorem changes_loadDocuments (documents : List Document) :
    Changes registry (registry.loadDocuments documents).2 := by
  unfold loadDocuments
  simp only
  split
  · rename_i complete installed
    exact (changes_loadComponents _ _).trans (changes_loadShell installed)
  · exact changes_loadComponents _ _

/-- An isolated render changes nothing but the cache. -/
theorem changes_renderIsolated (identity source : String) (data : Value) :
    Changes registry (registry.renderIsolated identity source data).2 := by
  unfold renderIsolated
  split
  · exact .refl
  · rename_i template cached made
    exact .single (.caches identity source template made)

/-- An operation that adds no helpers is made of changes. -/
theorem changes_after {operation : Operation}
    (other : ∀ helpers, operation ≠ .addHelpers helpers) :
    Changes registry (registry.after operation) := by
  cases operation with
  | register component =>
    exact changes_orElse fun after done => .single (.registers component done)
  | compile name source =>
    refine changes_orElse fun after done => ?_
    obtain ⟨⟨component, made⟩, compiled, same⟩ := exists_of_map_ok done
    have changes : Changes registry made := changes_compile compiled
    exact same ▸ changes
  | setShell shell => exact changes_orElse fun after done => .single (.installs shell done)
  | compileShell name source =>
    refine changes_orElse fun after done => ?_
    obtain ⟨⟨shell, made⟩, compiled, same⟩ := exists_of_map_ok done
    have changes : Changes registry made := changes_compileShell compiled
    exact same ▸ changes
  | addHelpers helpers => exact absurd rfl (other helpers)
  | loadSources sources => exact changes_loadDocuments _
  | loadDirectories files directories =>
    simp only [Registry.after, loadDirectories]
    split
    · exact changes_loadDocuments _
    · exact .refl
  | renderIsolated identity source data => exact changes_renderIsolated identity source data
  | renderFile files path data =>
    simp only [Registry.after, renderFile]
    split
    · exact changes_renderIsolated path _ data
    · exact .refl

/-- Every operation keeps a registry well-formed. -/
theorem wellFormed_after (formed : registry.WellFormed) (operation : Operation) :
    (registry.after operation).WellFormed := by
  by_cases adds : ∃ helpers, operation = .addHelpers helpers
  · obtain ⟨helpers, rfl⟩ := adds
    exact wellFormed_addHelpers formed helpers
  · have other : ∀ helpers, operation ≠ .addHelpers helpers := fun helpers same =>
      adds ⟨helpers, same⟩
    exact (changes_after other).wellFormed formed

/-- Operations keep a registry well-formed. -/
theorem wellFormed_run (formed : registry.WellFormed) (operations : List Operation) :
    (registry.run operations).WellFormed := by
  induction operations generalizing registry with
  | nil => exact formed
  | cons operation operations ih =>
    have next : (registry.after operation).WellFormed := wellFormed_after formed operation
    exact ih next

/-- Operations that add no helpers keep the helpers. -/
theorem helpers_run {operations : List Operation}
    (other : ∀ operation ∈ operations, ∀ helpers, operation ≠ .addHelpers helpers) :
    (registry.run operations).helpers = registry.helpers := by
  induction operations generalizing registry with
  | nil => rfl
  | cons operation operations ih =>
    have first : (registry.after operation).helpers = registry.helpers :=
      (changes_after (other operation List.mem_cons_self)).helpers
    have rest : ((registry.after operation).run operations).helpers =
        (registry.after operation).helpers :=
      ih fun later member => other later (List.mem_cons_of_mem _ member)
    exact rest.trans first

/-- Every registry that a program reaches is well-formed. -/
theorem Reachable.wellFormed (reachable : registry.Reachable) : registry.WellFormed := by
  obtain ⟨options, operations, rfl⟩ := reachable
  exact wellFormed_run (wellFormed_new options) operations

/-- The component that a reference stands for has the name of the reference, and its template
is the parse of its markup. -/
theorem WellFormed.entry (formed : registry.WellFormed) {reference : String}
    {entry : Registered} (found : registry.entry? reference = some entry) :
    entry.component.name = componentName reference ∧
      Template.parse entry.component.name entry.component.markup = .ok entry.template := by
  have held : (componentName reference, entry) ∈ registry.components :=
    Entries.mem_of_find? found
  have named := formed.named (componentName reference, entry) held
  have parsed := formed.parsed (componentName reference, entry) held
  exact ⟨named, parsed⟩

/-- The template of an isolated render is the parse of a document with the digest of the one
that is rendered. -/
theorem WellFormed.isolatedTemplate (formed : registry.WellFormed) {identity source : String}
    {template : Template}
    (made : registry.isolatedTemplate identity source = .ok (template, after)) :
    ∃ kept, Digest.ofText kept = Digest.ofText source ∧
      Template.parse (isolatedName identity) (markupOrWhole kept) = .ok template := by
  rcases isolatedTemplate_ok made with ⟨held, found, digest, rfl, -⟩ | ⟨parsed, -⟩
  · obtain ⟨kept, same, parsed⟩ := formed.isolated _ (Entries.mem_of_find? found)
    exact ⟨kept, same.symm.trans digest, parsed⟩
  · exact ⟨source, rfl, parsed⟩

/-- A registry with a component that greets a guest, whose name another component writes. -/
def greetings : Registry := (Registry.new .default).run [
  .register ⟨"guest", "<b>\x7b\x7bparam 0\x7d\x7d</b>", "b \x7b color: red \x7d", "", "",
    .single⟩,
  .register ⟨"greeting", "<p>\x7b\x7bcomp \"guest\" .name\x7d\x7d</p>", "", "hello()", "",
    .single⟩]

/-- A program can reach the registry that greets. -/
theorem greetings_reachable : greetings.Reachable := ⟨.default, _, rfl⟩

/-- The registry that greets has the default helpers. -/
theorem greetings_helpers : greetings.helpers = Helper.defaults := by
  have kept : greetings.helpers = (Registry.new .default).helpers := by
    unfold greetings
    refine helpers_run ?_
    simp
  rw [kept]
  rfl

end Registry

end ComponentPages
