import ComponentPages.Files
import ComponentPages.Render

/-!
# Loading documents

Documents are loaded in bulk from file trees or from sources in memory. The name of a document
is that of its file; the document with the name of the page shell becomes the shell, all others
become components. A document that fails is reported and does not hinder the others, but a load
without a working page shell fails, with the components registered.
-/
namespace ComponentPages

/-- A document to be loaded. -/
structure Document where
  /-- The path or the name that the document comes from. -/
  origin : String
  name : String
  source : Except Failure String

/-- What became of the documents of a load. -/
structure LoadReport where
  /-- The names of the components registered, in order. -/
  loaded : List String
  /-- The origins of the documents that failed, in order, and why. -/
  failed : List (String × Failure)
  deriving DecidableEq, Repr

namespace LoadReport

/-- Whether no document failed. -/
def isClean (report : LoadReport) : Bool := report.failed.isEmpty

end LoadReport

namespace Document

/-- The name of the document at a path. -/
def nameOf (path : String) : String := (Path.stem? path).getD ""

/-- The document of a source in memory. Its path may lack an extension, but has no other than
those of component documents. -/
def ofSource? (options : Options) (origin source : String) : Option Document :=
  let accepted := match Path.extension? origin with
    | some extension => options.acceptsExtension extension
    | none => true
  if accepted then some ⟨origin, nameOf origin, .ok source⟩ else none

/-- The document of a file, if it has an extension of component documents. -/
def ofFile? (files : FileTree) (options : Options) (path : String) : Option Document :=
  match Path.extension? path with
  | some extension =>
    if options.acceptsExtension extension then
      let source := match files.text? path with
        | some source => .ok source
        | none => .error (.unreadable path)
      some ⟨path, nameOf path, source⟩
    else none
  | none => none

/-- The documents directly inside a directory, in the order of their names. -/
def ofDirectory (files : FileTree) (options : Options) (directory : String) :
    Except Failure (List Document) :=
  match files.fileNames? directory with
  | some names =>
    .ok (names.filterMap fun name => ofFile? files options (Path.join directory name))
  | none => .error (.unreadable directory)

/-- The component of a document, or why it has none, with the origin of the document. -/
def compiled (options : Options) (document : Document) : String × Except Failure Component :=
  (document.origin,
    document.source.map fun source => Component.compile document.name source options)

end Document

namespace Registry

/-- Registers the component of one document. -/
def loadComponent (state : LoadReport × Registry)
    (compiled : String × Except Failure Component) : LoadReport × Registry :=
  let (report, registry) := state
  let (origin, outcome) := compiled
  let registered : Except Failure (String × Registry) := do
    let component ← outcome
    let registry ← registry.register component
    .ok (component.name, registry)
  match registered with
  | .ok (name, registry) => ({ report with loaded := report.loaded ++ [name] }, registry)
  | .error failure => ({ report with failed := report.failed ++ [(origin, failure)] }, registry)

/-- Loads the page shell of a list of documents for it, of which the last counts. -/
def loadShell (registry : Registry) (shells : List Document) : Except Failure Registry :=
  match shells.getLast? with
  | none => .error (.shellNotFound registry.options.shellName)
  | some document => do
    let source ← document.source
    let (_, registry) ← registry.compileShell registry.options.shellName source
    .ok registry

/-- Loads documents: the components are compiled ahead and registered in order, then comes the
page shell. -/
def loadDocuments (registry : Registry) (documents : List Document) :
    Except Failure LoadReport × Registry :=
  let (shells, components) :=
    documents.partition fun document => document.name == registry.options.shellName
  let compiled := components.map (Document.compiled registry.options)
  let (report, loaded) := compiled.foldl loadComponent (⟨[], []⟩, registry)
  match loaded.loadShell shells with
  | .ok complete => (.ok report, complete)
  | .error failure => (.error failure, loaded)

/-- Loads sources in memory, each with its name or path. -/
def loadSources (registry : Registry) (sources : List (String × String)) :
    Except Failure LoadReport × Registry :=
  registry.loadDocuments
    (sources.filterMap fun (origin, source) => Document.ofSource? registry.options origin source)

/-- Loads the documents directly inside directories. Nothing is registered if a directory
cannot be read. -/
def loadDirectories (registry : Registry) (files : FileTree) (directories : List String) :
    Except Failure LoadReport × Registry :=
  match directories.mapM (Document.ofDirectory files registry.options) with
  | .ok documents => registry.loadDocuments documents.flatten
  | .error failure => (.error failure, registry)

/-- Renders a document of a file tree by itself. -/
def renderFile (registry : Registry) (files : FileTree) (path : String) (data : Value) :
    Except Failure String × Registry :=
  match files.text? path with
  | some source => registry.renderIsolated path source data
  | none => (.error (.unreadable path), registry)

end Registry

end ComponentPages
