import ComponentPages.Proofs.Registry.History

/-!
# Loads of sources

A load sorts its sources, compiles the components ahead, registers what was compiled, and comes
to the page shell at the end. It does what a program does that compiles the components into the
registry one by one, and then the last of the page shells (`Registry.loadSources_one_by_one`):
what is compiled depends on nothing but the options, and no registration changes those. In the
report, each component is told of once.
-/
namespace ComponentPages

/-- A load takes the source of a path that has no extension, or one of component documents. -/
def Options.takes (options : Options) (path : String) : Bool :=
  match Path.extension? path with
  | some extension => options.acceptsExtension extension
  | none => true

/-- The source of a path is that of the page shell. -/
def Options.isShell (options : Options) (item : String × String) : Bool :=
  Document.nameOf item.1 == options.shellName

/-- The sources of components that a load takes, with their paths. -/
def Options.componentSources (options : Options) (sources : List (String × String)) :
    List (String × String) :=
  (sources.filter fun item => options.takes item.1).filter fun item => !options.isShell item

/-- The sources of page shells that a load takes, with their paths. -/
def Options.shellSources (options : Options) (sources : List (String × String)) :
    List (String × String) :=
  (sources.filter fun item => options.takes item.1).filter options.isShell

/-- A report tells of the documents at the paths, each one once and in order. -/
inductive LoadReport.Tells : LoadReport → List String → Prop where
  | nothing : Tells ⟨[], []⟩ []
  | loaded {report : LoadReport} {paths : List String} (path : String)
    (others : report.Tells paths) :
    Tells ⟨Document.nameOf path :: report.loaded, report.failed⟩ (path :: paths)
  | failed {report : LoadReport} {paths : List String} (path : String) (failure : Failure)
    (others : report.Tells paths) :
    Tells ⟨report.loaded, (path, failure) :: report.failed⟩ (path :: paths)

/-- The document of a source that a load takes. -/
def Document.ofTaken (item : String × String) : Document :=
  ⟨item.1, nameOf item.1, .ok item.2⟩

/-- The documents of a load are those of the sources that it takes. -/
theorem Document.filterMap_ofSource (options : Options) (sources : List (String × String)) :
    (sources.filterMap fun (origin, source) => ofSource? options origin source) =
      (sources.filter fun item => options.takes item.1).map ofTaken := by
  induction sources with
  | nil => rfl
  | cons item sources ih =>
    obtain ⟨origin, source⟩ := item
    have made : ofSource? options origin source =
        if options.takes origin then some (ofTaken (origin, source)) else none := by rfl
    by_cases taken : options.takes origin = true
    · simp only [List.filterMap_cons, List.filter_cons, made, taken, ↓reduceIte, List.map_cons, ih]
    · simp only [List.filterMap_cons, List.filter_cons, made, taken, ↓reduceIte, ih,
        Bool.false_eq_true]

namespace Registry

/-- Compiles components into a registry one by one, and reports on each. -/
def compileEach (registry : Registry) : List (String × String) → LoadReport × Registry
  | [] => (⟨[], []⟩, registry)
  | (path, source) :: sources =>
    match registry.compile (Document.nameOf path) source with
    | .ok (_, after) =>
      let (report, last) := after.compileEach sources
      (⟨Document.nameOf path :: report.loaded, report.failed⟩, last)
    | .error failure =>
      let (report, last) := registry.compileEach sources
      (⟨report.loaded, (path, failure) :: report.failed⟩, last)

/-- Compiles the components among sources into a registry one by one, and then the last of the
page shells. -/
def loadOneByOne (registry : Registry) (sources : List (String × String)) :
    Except Failure LoadReport × Registry :=
  let (report, loaded) := registry.compileEach (registry.options.componentSources sources)
  match (registry.options.shellSources sources).getLast? with
  | none => (.error (.shellNotFound registry.options.shellName), loaded)
  | some (_, source) =>
    match loaded.compileShell registry.options.shellName source with
    | .ok (_, complete) => (.ok report, complete)
    | .error failure => (.error failure, loaded)

variable {registry : Registry}

/-- The report on components that are compiled one by one tells of each once. -/
theorem tells_compileEach (registry : Registry) (sources : List (String × String)) :
    (registry.compileEach sources).1.Tells (sources.map Prod.fst) := by
  induction sources generalizing registry with
  | nil => exact .nothing
  | cons item sources ih =>
    obtain ⟨path, source⟩ := item
    unfold compileEach
    split
    · exact .loaded path (ih _)
    · exact .failed path _ (ih registry)

/-- Components that are compiled one by one keep the options. -/
theorem options_compileEach (registry : Registry) (sources : List (String × String)) :
    (registry.compileEach sources).2.options = registry.options := by
  induction sources generalizing registry with
  | nil => rfl
  | cons item sources ih =>
    obtain ⟨path, source⟩ := item
    unfold compileEach
    split
    · rename_i component after compiled
      exact (ih after).trans (changes_compile compiled).options
    · exact ih registry

/-- A component that was compiled ahead is registered as if it were compiled now. -/
theorem loadComponent_ofTaken (report : LoadReport) (path source : String) :
    loadComponent (report, registry)
        ((Document.ofTaken (path, source)).compiled registry.options) =
      match registry.compile (Document.nameOf path) source with
      | .ok (_, after) => (⟨report.loaded ++ [Document.nameOf path], report.failed⟩, after)
      | .error failure => (⟨report.loaded, report.failed ++ [(path, failure)]⟩, registry) := by
  have named : (Component.compile (Document.nameOf path) source registry.options).name =
      Document.nameOf path := Component.name_compile _ _ _
  simp only [loadComponent, Document.compiled, Document.ofTaken, compile, Except.map]
  cases registered :
      registry.register (Component.compile (Document.nameOf path) source registry.options) with
  | error failure => simp only [bind, Except.bind, registered]
  | ok after => simp only [bind, Except.bind, registered, named]

/-- Components that were compiled ahead are registered as if they were compiled one by one. -/
theorem foldl_loadComponent {options : Options} (same : registry.options = options)
    (report : LoadReport) (sources : List (String × String)) :
    ((sources.map Document.ofTaken).map (Document.compiled options)).foldl loadComponent
        (report, registry) =
      (⟨report.loaded ++ (registry.compileEach sources).1.loaded,
        report.failed ++ (registry.compileEach sources).1.failed⟩,
        (registry.compileEach sources).2) := by
  -- Each registration keeps the options, with which everything was compiled ahead.
  induction sources generalizing report registry with
  | nil => simp [compileEach]
  | cons item sources ih =>
    obtain ⟨path, source⟩ := item
    simp only [List.map_cons, List.foldl_cons, ← same, loadComponent_ofTaken]
    unfold compileEach
    cases compiled : registry.compile (Document.nameOf path) source with
    | error failure =>
      simp only [same, ih same, List.append_assoc, List.cons_append, List.nil_append]
    | ok made =>
      obtain ⟨component, after⟩ := made
      have kept : after.options = options := (changes_compile compiled).options.trans same
      simp only [same, ih kept, List.append_assoc, List.cons_append, List.nil_append]

/-- The page shell of a load is the last one of the sources. -/
theorem loadShell_ofTaken (sources : List (String × String)) :
    registry.loadShell (sources.map Document.ofTaken) =
      match sources.getLast? with
      | none => .error (.shellNotFound registry.options.shellName)
      | some (_, source) =>
        (registry.compileShell registry.options.shellName source).map Prod.snd := by
  unfold loadShell
  rw [List.getLast?_map]
  cases sources.getLast? with
  | none => rfl
  | some item =>
    obtain ⟨path, source⟩ := item
    change (registry.compileShell registry.options.shellName source >>= fun made => .ok made.2) = _
    simp only
    cases registry.compileShell registry.options.shellName source with
    | error failure => rfl
    | ok made => rfl

/-- The report that is returned is the one on the components. -/
theorem loadOneByOne_ok {sources : List (String × String)} {report : LoadReport}
    (made : (registry.loadOneByOne sources).1 = .ok report) :
    report = (registry.compileEach (registry.options.componentSources sources)).1 := by
  simp only [loadOneByOne] at made
  split at made
  · exact nomatch made
  · split at made
    · exact (Except.ok.inj made).symm
    · exact nomatch made

/-- A load of sources does what a program does that compiles their components one by one and
then the last of their page shells, and returns what that returns. Its report tells of each
component once, in order. -/
theorem loadSources_one_by_one (registry : Registry) (sources : List (String × String)) :
    registry.loadSources sources = registry.loadOneByOne sources ∧
    ∀ report, (registry.loadSources sources).1 = .ok report →
      report.Tells ((registry.options.componentSources sources).map Prod.fst) := by
  have same : registry.loadSources sources = registry.loadOneByOne sources := by
    have components : ((sources.filter fun item => registry.options.takes item.1).map
        Document.ofTaken).filter (fun document => !document.name == registry.options.shellName) =
          (registry.options.componentSources sources).map Document.ofTaken := List.filter_map
    have shells : ((sources.filter fun item => registry.options.takes item.1).map
        Document.ofTaken).filter (fun document => document.name == registry.options.shellName) =
          (registry.options.shellSources sources).map Document.ofTaken := List.filter_map
    have kept := options_compileEach registry (registry.options.componentSources sources)
    unfold loadSources loadDocuments loadOneByOne
    simp only [Document.filterMap_ofSource, List.partition_eq_filter_filter, Function.comp_def,
      components, shells, foldl_loadComponent rfl, loadShell_ofTaken, List.nil_append, kept]
    cases (registry.options.shellSources sources).getLast? with
    | none => rfl
    | some item =>
      simp only
      cases (registry.compileEach (registry.options.componentSources sources)).2.compileShell
          registry.options.shellName item.2 with
      | error failure => rfl
      | ok made => rfl
  refine ⟨same, fun report made => ?_⟩
  rw [same] at made
  rw [loadOneByOne_ok made]
  exact tells_compileEach registry (registry.options.componentSources sources)

/-- A source of another kind is left out, and a document that is broken does not hinder those
after it. -/
example :
    ((Registry.new .default).loadSources [
        ("card.html", "<script>old()</script>"), ("notes.txt", "no component"),
        ("broken", "<template>\x7b\x7bend\x7d\x7d</template>"),
        ("parts/card.html", "<script>new()</script>"),
        ("layout", "<head></head><body></body>")]).1 =
      .ok ⟨["card", "card"], [("broken", .templateParse "broken" .unexpectedEnd)]⟩ := by
  decide +kernel

end Registry

end ComponentPages
