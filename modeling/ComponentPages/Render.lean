import ComponentPages.Path
import ComponentPages.Session

/-!
# Renders

Three ways to render. A page is a component inside the page shell, with the styles and scripts
of every component reached; a fragment is a component alone, together with its assets; an
isolated render is of a document by itself, without any composition. Pages and fragments each
have a session of their own.
-/
namespace ComponentPages

open Template

/-- A component rendered alone. -/
structure Fragment where
  html : String
  assets : Assets
  /-- The components reached, in the order of their first use. -/
  used : List String
  deriving DecidableEq, Repr

namespace Registry

/-- The data of the page shell. -/
def pageData (content : String) (assets : Assets) (data : Value) : Value :=
  .ofEntries [("Content", .html content), ("CSS", .html assets.css), ("JS", .html assets.js),
    ("Data", data)]

/-- The content of a page, in a session, with the assets of the components that are used when
the content is done, and of those that the shell is known to invoke. -/
def evaluateContent (registry : Registry) (entry : Registered) (shell : InstalledShell)
    (data : Value) : Eval Session (String × Assets) := do
  modify fun session => (entry.component.name :: shell.shell.references).foldl Session.mark session
  let content ← entry.template.execute data registry.host
  return (content, registry.assets (← get).used)

/-- Renders a component inside a page shell, in a session. -/
def evaluatePage (registry : Registry) (entry : Registered) (shell : InstalledShell)
    (data : Value) : Eval Session String := do
  let (content, assets) ← registry.evaluateContent entry shell data
  shell.template.execute (pageData content assets data) registry.host

/-- Renders a page. -/
def render (registry : Registry) (reference : String) (data : Value) : Except Failure String :=
  match registry.entry? reference, registry.shell with
  | none, _ => .error (.componentNotFound reference)
  | some _, none => .error .noShell
  | some entry, some shell => ((registry.evaluatePage entry shell data).run Session.start).1

/-- Renders a component alone, in a session. -/
def evaluateFragment (registry : Registry) (entry : Registered) (data : Value) :
    Eval Session Fragment := do
  modify fun session => session.mark entry.component.name
  let html ← entry.template.execute data registry.host
  let session ← get
  return ⟨html, registry.assets session.used, session.used⟩

/-- Renders a fragment. -/
def renderFragment (registry : Registry) (reference : String) (data : Value) :
    Except Failure Fragment :=
  match registry.entry? reference with
  | none => .error (.componentNotFound reference)
  | some entry => ((registry.evaluateFragment entry data).run Session.start).1

/-- The functions that isolated templates know: maps and the helpers. -/
def isolatedHost (registry : Registry) : Host Unit := fun name arguments =>
  if name = "dict" then some (liftExcept (dict arguments))
  else (registry.callHelper name arguments).map liftExcept

/-- The name of the template of an isolated render. -/
def isolatedName (identity : String) : String :=
  (Path.stem? identity).getD identity ++ "_isolated"

/-- The template of an isolated render: the one in the cache while the document is unchanged,
else a new one, which is put in the cache. -/
def isolatedTemplate (registry : Registry) (identity source : String) :
    Except Failure (Template × Registry) :=
  let digest := Digest.ofText source
  match (Entries.find? identity registry.isolated).filter fun held => held.digest == digest with
  | some held => .ok (held.template, registry)
  | none => do
    let template ← Template.parse (isolatedName identity) (markupOrWhole source)
    .ok (template, { registry with
      isolated := Entries.insert identity ⟨digest, template⟩ registry.isolated })

/-- Renders a document by itself. -/
def renderIsolated (registry : Registry) (identity source : String) (data : Value) :
    Except Failure String × Registry :=
  match registry.isolatedTemplate identity source with
  | .error failure => (.error failure, registry)
  | .ok (template, after) =>
    (((template.execute data registry.isolatedHost).run ()).1, after)

end Registry

end ComponentPages
