import ComponentPages.Proofs.Render.Escaping

/-!
# The history of a registry

A registry is a map in which the last write wins. A run of requests is a run of single
operations (`serveAll_eq_run`): a load is the compilation of its documents one by one, and a
render writes nothing. The components that these operations register, and the page shells that
they install, in the order in which they succeed, say all that can be seen of the registry
(`registry_keeps_latest`).
-/
namespace ComponentPages

/-- What a program asks of a registry: an operation, or the render of a page or of a
fragment. -/
inductive Request where
  | change (operation : Operation)
  | page (reference : String) (data : Value)
  | fragment (reference : String) (data : Value)

namespace Document

/-- The compilation of a component document that can be read. -/
def compilation? (document : Document) : Option Operation :=
  match document.source with
  | .ok source => some (.compile document.name source)
  | .error _ => none

/-- The compilation of the document of the page shell, if it can be read. -/
def shellCompilation? (options : Options) (document : Document) : Option Operation :=
  match document.source with
  | .ok source => some (.compileShell options.shellName source)
  | .error _ => none

/-- The compilations that a load of documents is made of: those of its components in order, then
that of its page shell. -/
def compilations (options : Options) (documents : List Document) : List Operation :=
  let isShell (document : Document) := document.name == options.shellName
  (documents.filter fun document => !isShell document).filterMap compilation? ++
    ((documents.filter isShell).getLast?.bind (shellCompilation? options)).toList

end Document

namespace Operation

/-- An operation makes at most one write: it loads no documents. -/
def IsSingle : Operation → Prop
  | .loadSources _ => False
  | .loadDirectories _ _ => False
  | _ => True

/-- The single operations that an operation is made of. -/
def steps (options : Options) : Operation → List Operation
  | .loadSources sources => Document.compilations options
      (sources.filterMap fun (origin, source) => Document.ofSource? options origin source)
  | .loadDirectories files directories =>
    match directories.mapM (Document.ofDirectory files options) with
    | .ok documents => Document.compilations options documents.flatten
    | .error _ => []
  | operation => [operation]

/-- A load is made of compilations. -/
theorem isSingle_of_mem_compilations {options : Options} {documents : List Document}
    {operation : Operation} (member : operation ∈ Document.compilations options documents) :
    operation.IsSingle := by
  rcases List.mem_append.1 member with component | shell
  · obtain ⟨document, -, made⟩ := List.mem_filterMap.1 component
    unfold Document.compilation? at made
    split at made
    · exact Option.some.inj made ▸ trivial
    · exact nomatch made
  · obtain ⟨document, -, made⟩ := Option.bind_eq_some_iff.1 (Option.mem_toList.1 shell)
    unfold Document.shellCompilation? at made
    split at made
    · exact Option.some.inj made ▸ trivial
    · exact nomatch made

/-- An operation is made of single ones. -/
theorem isSingle_of_mem_steps {options : Options} {operation step : Operation}
    (member : step ∈ operation.steps options) : step.IsSingle := by
  cases operation with
  | loadSources sources => exact isSingle_of_mem_compilations member
  | loadDirectories files directories =>
    simp only [steps] at member
    split at member
    · exact isSingle_of_mem_compilations member
    · exact nomatch member
  | _ => exact List.mem_singleton.1 member ▸ trivial

end Operation

namespace Request

/-- The single operations that a request is made of; the render of a page or of a fragment is
made of none. -/
def steps (options : Options) : Request → List Operation
  | .change operation => operation.steps options
  | .page _ _ => []
  | .fragment _ _ => []

/-- A request is made of single operations. -/
theorem isSingle_of_mem_steps {options : Options} {request : Request} {step : Operation}
    (member : step ∈ request.steps options) : step.IsSingle := by
  cases request with
  | change operation => exact Operation.isSingle_of_mem_steps member
  | page reference data => exact nomatch member
  | fragment reference data => exact nomatch member

end Request

namespace Registry

variable {registry : Registry}

/-- The registry after a request. Pages and fragments are rendered without a change. -/
def serve (registry : Registry) : Request → Registry
  | .change operation => registry.after operation
  | .page _ _ => registry
  | .fragment _ _ => registry

/-- The registry after requests, one after the other. -/
def serveAll (registry : Registry) (requests : List Request) : Registry :=
  requests.foldl serve registry

/-- The component that a single operation registers, if it succeeds in that. -/
def registered? (registry : Registry) : Operation → Option Component
  | .register component =>
    match registry.register component with
    | .ok _ => some component
    | .error _ => none
  | .compile name source =>
    match registry.compile name source with
    | .ok (component, _) => some component
    | .error _ => none
  | _ => none

/-- The page shell that a single operation installs, if it succeeds in that. -/
def installed? (registry : Registry) : Operation → Option Shell
  | .setShell shell =>
    match registry.setShell shell with
    | .ok _ => some shell
    | .error _ => none
  | .compileShell name source =>
    match registry.compileShell name source with
    | .ok (shell, _) => some shell
    | .error _ => none
  | _ => none

/-- The components that single operations register, one after the other. -/
def registrations (registry : Registry) : List Operation → List Component
  | [] => []
  | operation :: operations =>
    (registry.registered? operation).toList ++ (registry.after operation).registrations operations

/-- The page shells that single operations install, one after the other. -/
def installations (registry : Registry) : List Operation → List Shell
  | [] => []
  | operation :: operations =>
    (registry.installed? operation).toList ++ (registry.after operation).installations operations

/-- A run goes on after a run. -/
theorem run_append (registry : Registry) (operations others : List Operation) :
    registry.run (operations ++ others) = (registry.run operations).run others := by
  simp only [run, List.foldl_append]

/-- A change keeps the options. -/
theorem Change.options {after : Registry} (change : Change registry after) :
    after.options = registry.options := by
  cases change with
  | registers component done =>
    obtain ⟨template, -, rfl⟩ := register_ok done
    rfl
  | installs shell done =>
    obtain ⟨template, -, rfl⟩ := setShell_ok done
    rfl
  | caches identity source template done =>
    rcases isolatedTemplate_ok done with ⟨held, -, -, -, rfl⟩ | ⟨-, rfl⟩
    · rfl
    · rfl

/-- Changes keep the options. -/
theorem Changes.options {after : Registry} (changes : Changes registry after) :
    after.options = registry.options := by
  induction changes with
  | refl => rfl
  | tail _ change ih => rw [change.options, ih]

/-- Every operation keeps the options. -/
theorem options_after (registry : Registry) (operation : Operation) :
    (registry.after operation).options = registry.options := by
  by_cases adds : ∃ helpers, operation = .addHelpers helpers
  · obtain ⟨helpers, rfl⟩ := adds
    rfl
  · exact (changes_after fun helpers same => adds ⟨helpers, same⟩).options

/-- Operations keep the options. -/
theorem options_run (registry : Registry) (operations : List Operation) :
    (registry.run operations).options = registry.options := by
  induction operations generalizing registry with
  | nil => rfl
  | cons operation operations ih => exact (ih _).trans (options_after registry operation)

/-- A document that is loaded is compiled, if it can be read. -/
theorem loadComponent_eq (report : LoadReport) (registry : Registry) (document : Document) :
    (loadComponent (report, registry) (document.compiled registry.options)).2 =
      registry.run document.compilation?.toList := by
  unfold loadComponent Document.compiled Document.compilation?
  cases document.source with
  | error failure => rfl
  | ok source =>
    cases registered : registry.register
        (Component.compile document.name source registry.options) with
    | error failure =>
      simp [Except.map, registered, run, after, compile, orElse, bind, Except.bind]
    | ok made =>
      simp [Except.map, registered, run, after, compile, orElse, bind, Except.bind]

/-- Documents that are loaded are compiled one by one. -/
theorem loadComponents_eq (report : LoadReport) {registry : Registry} {options : Options}
    (same : registry.options = options) (documents : List Document) :
    ((documents.map (Document.compiled options)).foldl loadComponent (report, registry)).2 =
      registry.run (documents.filterMap Document.compilation?) := by
  induction documents generalizing report registry with
  | nil => rfl
  | cons document documents ih =>
    have first := loadComponent_eq report registry document
    rw [same] at first
    have kept : (loadComponent (report, registry) (document.compiled options)).2.options =
        options := by
      rw [first, options_run, same]
    have rest := ih (loadComponent (report, registry) (document.compiled options)).1 kept
    have listed : (document :: documents).filterMap Document.compilation? =
        document.compilation?.toList ++ documents.filterMap Document.compilation? := by
      cases made : document.compilation? with
      | none => simp [made]
      | some operation => simp [made]
    rw [listed, run_append, ← first]
    exact rest

/-- The page shell of a load is compiled, if its document can be read. -/
theorem loadShell_eq (registry : Registry) (shells : List Document) :
    registry.orElse (registry.loadShell shells) = registry.run
      (shells.getLast?.bind (Document.shellCompilation? registry.options)).toList := by
  unfold loadShell
  cases shells.getLast? with
  | none => rfl
  | some document =>
    simp only [Option.bind_some, Document.shellCompilation?]
    cases document.source with
    | error failure => rfl
    | ok source =>
      change registry.orElse (registry.compileShell registry.options.shellName source >>=
        fun made => .ok made.2) = registry.orElse
          ((registry.compileShell registry.options.shellName source).map Prod.snd)
      cases registry.compileShell registry.options.shellName source with
      | error failure => rfl
      | ok made => rfl

/-- A load of documents is the compilation of its documents one by one. -/
theorem loadDocuments_eq (registry : Registry) (documents : List Document) :
    (registry.loadDocuments documents).2 =
      registry.run (Document.compilations registry.options documents) := by
  unfold loadDocuments Document.compilations
  simp only [List.partition_eq_filter_filter, Function.comp_def]
  rw [run_append, ← loadComponents_eq ⟨[], []⟩ rfl]
  generalize loaded : ((documents.filter fun document =>
    !document.name == registry.options.shellName).map
      (Document.compiled registry.options)).foldl loadComponent (⟨[], []⟩, registry) = state
  have kept : state.2.options = registry.options := by
    rw [← loaded, loadComponents_eq _ rfl, options_run]
  rw [← kept, ← loadShell_eq, kept]
  cases state.2.loadShell
    (documents.filter fun document => document.name == registry.options.shellName) with
  | error failure => rfl
  | ok complete => rfl

/-- An operation does what its single operations do, one after the other. -/
theorem after_eq_run_steps (registry : Registry) (operation : Operation) :
    registry.after operation = registry.run (operation.steps registry.options) := by
  cases operation with
  | loadSources sources => exact loadDocuments_eq registry _
  | loadDirectories files directories =>
    simp only [after, loadDirectories, Operation.steps]
    cases directories.mapM (Document.ofDirectory files registry.options) with
    | error failure => rfl
    | ok documents => exact loadDocuments_eq registry _
  | _ => rfl

/-- Requests do what their single operations do, one after the other. -/
theorem serveAll_eq_run (registry : Registry) (requests : List Request) :
    registry.serveAll requests =
      registry.run (requests.flatMap (Request.steps registry.options)) := by
  induction requests generalizing registry with
  | nil => rfl
  | cons request requests ih =>
    have first : registry.serve request = registry.run (request.steps registry.options) := by
      cases request with
      | change operation => exact after_eq_run_steps registry operation
      | page reference data => rfl
      | fragment reference data => rfl
    have rest := ih (registry.serve request)
    have kept : (registry.serve request).options = registry.options := by
      rw [first, options_run]
    rw [List.flatMap_cons, run_append, ← first]
    rw [kept] at rest
    exact rest

/-- The latest of components that has a name. -/
def latest? (components : List Component) (name : String) : Option Component :=
  (components.filter fun component => component.name == name).getLast?

/-- Of two lists of components, one after the other, the second counts for the names that it
has. -/
theorem latest?_append (components others : List Component) (name : String) :
    latest? (components ++ others) name = (latest? others name).or (latest? components name) := by
  simp only [latest?, List.filter_append, List.getLast?_append]

/-- There is a latest component of a name exactly when there is one. -/
theorem isSome_latest? {components : List Component} {name : String} :
    (latest? components name).isSome = true ↔
      ∃ component ∈ components, component.name = name := by
  simp [latest?]

/-- The effect of a single operation: it registers a component, or installs a page shell, or
leaves both the components and the page shell as they are. -/
inductive Effect (registry after : Registry) : Option Component → Option Shell → Prop where
  | registers (component : Component) (done : registry.register component = .ok after) :
    Effect registry after (some component) none
  | installs (shell : Shell) (done : registry.setShell shell = .ok after) :
    Effect registry after none (some shell)
  | keeps (components : after.components = registry.components)
    (shell : after.shell = registry.shell) : Effect registry after none none

/-- An isolated render keeps the components and the page shell. -/
theorem effect_renderIsolated (registry : Registry) (identity source : String) (data : Value) :
    Effect registry (registry.renderIsolated identity source data).2 none none := by
  unfold renderIsolated
  split
  · exact .keeps rfl rfl
  · rename_i template cached made
    rcases isolatedTemplate_ok made with ⟨held, -, -, -, rfl⟩ | ⟨-, rfl⟩
    · exact .keeps rfl rfl
    · exact .keeps rfl rfl

/-- A single operation has the effect that its outcome tells. -/
theorem effect_after (registry : Registry) {operation : Operation}
    (single : operation.IsSingle) :
    Effect registry (registry.after operation) (registry.registered? operation)
      (registry.installed? operation) := by
  cases operation with
  | register component =>
    simp only [registered?, installed?, after]
    cases done : registry.register component with
    | error failure => exact .keeps rfl rfl
    | ok made => exact .registers component done
  | compile name source =>
    simp only [registered?, installed?, after]
    cases done : registry.compile name source with
    | error failure => exact .keeps rfl rfl
    | ok made => exact .registers made.1 (compile_ok done).2
  | setShell shell =>
    simp only [registered?, installed?, after]
    cases done : registry.setShell shell with
    | error failure => exact .keeps rfl rfl
    | ok made => exact .installs shell done
  | compileShell name source =>
    simp only [registered?, installed?, after]
    cases done : registry.compileShell name source with
    | error failure => exact .keeps rfl rfl
    | ok made => exact .installs made.1 (compileShell_ok done).2
  | addHelpers helpers => exact .keeps rfl rfl
  | loadSources sources => exact single.elim
  | loadDirectories files directories => exact single.elim
  | renderIsolated identity source data => exact effect_renderIsolated registry identity source data
  | renderFile files path data =>
    simp only [registered?, installed?, after, renderFile]
    split
    · exact effect_renderIsolated registry path _ data
    · exact .keeps rfl rfl

variable {after : Registry} {registered : Option Component} {installed : Option Shell}

/-- After an operation a name holds the component that was registered under it, if one was, and
else what it held. -/
theorem Effect.find? (effect : Effect registry after registered installed) (name : String) :
    (Entries.find? name after.components).map Registered.component =
      (latest? registered.toList name).or
        ((Entries.find? name registry.components).map Registered.component) := by
  cases effect with
  | registers component done =>
    obtain ⟨template, -, rfl⟩ := register_ok done
    rw [Entries.find?_insert]
    by_cases here : name = component.name
    · simp [latest?, here]
    · have other : component.name ≠ name := fun same => here same.symm
      simp [latest?, here, other]
  | installs shell done =>
    obtain ⟨template, -, rfl⟩ := setShell_ok done
    rfl
  | keeps components shell =>
    rw [components]
    rfl

/-- After an operation the page shell is the one that was installed, if one was, and else the
one before. -/
theorem Effect.shell (effect : Effect registry after registered installed) :
    after.shell.map InstalledShell.shell =
      installed.or (registry.shell.map InstalledShell.shell) := by
  cases effect with
  | registers component done =>
    obtain ⟨template, -, rfl⟩ := register_ok done
    rfl
  | installs shell done =>
    obtain ⟨template, -, rfl⟩ := setShell_ok done
    rfl
  | keeps components shell =>
    rw [shell]
    rfl

/-- An operation that registers nothing keeps every entry. -/
theorem Effect.components (effect : Effect registry after none installed) :
    after.components = registry.components := by
  cases effect with
  | installs shell done =>
    obtain ⟨template, -, rfl⟩ := setShell_ok done
    rfl
  | keeps components shell => exact components

/-- An operation that installs nothing keeps the page shell. -/
theorem Effect.keeps_shell (effect : Effect registry after registered none) :
    after.shell = registry.shell := by
  cases effect with
  | registers component done =>
    obtain ⟨template, -, rfl⟩ := register_ok done
    rfl
  | keeps components shell => exact shell

/-- After single operations a name holds the latest component that was registered under it, and
else what it held. -/
theorem find?_run (registry : Registry) {operations : List Operation}
    (single : ∀ operation ∈ operations, operation.IsSingle) (name : String) :
    (Entries.find? name (registry.run operations).components).map Registered.component =
      (latest? (registry.registrations operations) name).or
        ((Entries.find? name registry.components).map Registered.component) := by
  induction operations generalizing registry with
  | nil => rfl
  | cons operation operations ih =>
    have first := (effect_after registry (single operation List.mem_cons_self)).find? name
    have rest := ih (registry.after operation) fun later member =>
      single later (List.mem_cons_of_mem _ member)
    rw [registrations, latest?_append, Option.or_assoc, ← first]
    exact rest

/-- After single operations the page shell is the latest one that was installed, and else the one
before. -/
theorem shell_run (registry : Registry) {operations : List Operation}
    (single : ∀ operation ∈ operations, operation.IsSingle) :
    (registry.run operations).shell.map InstalledShell.shell =
      (registry.installations operations).getLast?.or
        (registry.shell.map InstalledShell.shell) := by
  induction operations generalizing registry with
  | nil => rfl
  | cons operation operations ih =>
    have first := (effect_after registry (single operation List.mem_cons_self)).shell
    have rest := ih (registry.after operation) fun later member =>
      single later (List.mem_cons_of_mem _ member)
    have one : (registry.installed? operation).toList.getLast? = registry.installed? operation := by
      cases registry.installed? operation with
      | none => rfl
      | some shell => rfl
    rw [installations, List.getLast?_append, one, Option.or_assoc, ← first]
    exact rest

/-- A registry is a map in which the last write wins. After any requests to a new registry, a
reference stands for the latest component that was registered under its name, the names are
those of the components that were registered, in order, and the page shell is the latest one
that was installed; loads count as the compilations of their documents. A single operation that
registers nothing, because it fails or does something else, leaves every entry as it was, and
one that installs nothing the page shell. Every entry that a render takes its template from
shows the component of the reference, with the parse of its markup. -/
theorem registry_keeps_latest (options : Options) (requests : List Request) :
    let registry := (Registry.new options).serveAll requests
    let operations := requests.flatMap (Request.steps options)
    let registered := (Registry.new options).registrations operations
    let installed := (Registry.new options).installations operations
    registry = (Registry.new options).run operations ∧
    (∀ reference, registry.lookup reference = latest? registered (componentName reference)) ∧
    registry.names.Pairwise (· < ·) ∧
    (∀ name, name ∈ registry.names ↔ ∃ component ∈ registered, component.name = name) ∧
    registry.size = registry.names.length ∧
    (registry.isEmpty = true ↔ registry.names = []) ∧
    registry.shell.map InstalledShell.shell = installed.getLast? ∧
    (∀ operation, operation.IsSingle →
      (registry.registered? operation = none →
        (registry.after operation).components = registry.components) ∧
      (registry.installed? operation = none →
        (registry.after operation).shell = registry.shell)) ∧
    (∀ reference entry, registry.entry? reference = some entry →
      registry.lookup reference = some entry.component ∧
      Template.parse entry.component.name entry.component.markup = .ok entry.template) ∧
    ∀ held, registry.shell = some held →
      Template.parse held.shell.name held.shell.markup = .ok held.template := by
  intro registry operations registered installed
  have single : ∀ operation ∈ operations, operation.IsSingle := by
    intro operation member
    obtain ⟨request, -, step⟩ := List.mem_flatMap.1 member
    exact Request.isSingle_of_mem_steps step
  have runs : registry = (Registry.new options).run operations := serveAll_eq_run _ requests
  have formed : registry.WellFormed := by
    rw [runs]
    exact wellFormed_run (wellFormed_new options) operations
  have held (name : String) : (Entries.find? name registry.components).map Registered.component =
      latest? registered name := by
    rw [runs, find?_run _ single]
    exact Option.or_none
  have sorted : registry.names.Pairwise (· < ·) := List.pairwise_map.2 formed.sorted
  have listed (name : String) :
      name ∈ registry.names ↔ ∃ component ∈ registered, component.name = name := by
    rw [names, Entries.mem_names, ← isSome_latest?, ← held name, Option.isSome_map]
  have size : registry.size = registry.names.length := (List.length_map _).symm
  have shell : registry.shell.map InstalledShell.shell = installed.getLast? := by
    rw [runs, shell_run _ single]
    exact Option.or_none
  refine ⟨runs, fun reference => held (componentName reference), sorted, listed, size, ?_, shell,
    fun operation one => ?_, fun reference entry found => ?_, fun held here => ?_⟩
  · rw [isEmpty, size, beq_iff_eq, List.length_eq_zero_iff]
  · have effect := effect_after registry one
    constructor
    · intro nothing
      rw [nothing] at effect
      exact effect.components
    · intro nothing
      rw [nothing] at effect
      exact effect.keeps_shell
  · exact ⟨by rw [lookup, found, Option.map_some], (formed.entry found).2⟩
  · exact formed.shell held here

/-- Of three registrations of a card the last one fails, so the second counts; a load without a
page shell fails, but registers its component. -/
example :
    let registry := (Registry.new .default).serveAll [
      .change (.register ⟨"card", "<p>one</p>", "", "", "", .single⟩),
      .change (.register ⟨"card", "<p>two</p>", "", "", "", .single⟩),
      .change (.register ⟨"card", "<p>\x7b\x7bif .x\x7d\x7d</p>", "", "", "", .single⟩),
      .page "card" .null,
      .change (.loadSources [("parts/menu.html", "<template><i>menu</i></template>")])]
    (registry.lookup "card.html").map Component.markup = some "<p>two</p>" ∧
      registry.names = ["card", "menu"] ∧ registry.shell.isNone := by
  decide +kernel

end Registry

end ComponentPages
