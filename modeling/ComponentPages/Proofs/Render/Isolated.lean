import ComponentPages.Proofs.Registry.History

/-!
# Isolated renders

An isolated render answers what parsing and executing the document afresh would answer, so the
cache of templates cannot be seen. The invariant ties every template of the cache to a document
that was rendered by itself (`CachesOnly`): while digests tell the documents of a run apart, a
template that is found under the digest of a document is the parse of it. What a document
answers then depends on the helpers that were added before and on nothing else of the registry,
and the functions of a session are among neither (`isolated_answers`).
-/
namespace ComponentPages

open Template

namespace Operation

/-- The document that an operation renders by itself, if it does and the document can be read. -/
def isolatedSource? : Operation → Option String
  | .renderIsolated _ source _ => some source
  | .renderFile files path _ => files.text? path
  | _ => none

/-- The helpers that an operation asks to add. -/
def addedHelpers : Operation → List (String × Helper)
  | .addHelpers helpers => helpers
  | _ => []

/-- A load renders no document by itself. -/
theorem isolatedSource?_of_mem_compilations {options : Options} {documents : List Document}
    {operation : Operation} (member : operation ∈ Document.compilations options documents) :
    operation.isolatedSource? = none := by
  rcases List.mem_append.1 member with component | shell
  · obtain ⟨document, -, made⟩ := List.mem_filterMap.1 component
    unfold Document.compilation? at made
    split at made
    · exact Option.some.inj made ▸ rfl
    · exact nomatch made
  · obtain ⟨document, -, made⟩ := Option.bind_eq_some_iff.1 (Option.mem_toList.1 shell)
    unfold Document.shellCompilation? at made
    split at made
    · exact Option.some.inj made ▸ rfl
    · exact nomatch made

/-- A document that is rendered by itself in a step of an operation is that of the operation. -/
theorem isolatedSource?_of_mem_steps {options : Options} {operation step : Operation}
    (member : step ∈ operation.steps options) {source : String}
    (renders : step.isolatedSource? = some source) : operation.isolatedSource? = some source := by
  cases operation with
  | loadSources sources =>
    have silent := isolatedSource?_of_mem_compilations member
    exact absurd (renders.symm.trans silent) (Option.some_ne_none _)
  | loadDirectories files directories =>
    simp only [steps] at member
    split at member
    · have silent := isolatedSource?_of_mem_compilations member
      exact absurd (renders.symm.trans silent) (Option.some_ne_none _)
    · exact absurd member List.not_mem_nil
  | _ => exact List.mem_singleton.1 member ▸ renders

end Operation

namespace Request

/-- The document that a request renders by itself, if it does and the document can be read. -/
def isolatedSource? : Request → Option String
  | .change operation => operation.isolatedSource?
  | .page _ _ => none
  | .fragment _ _ => none

/-- The helpers that a request asks to add. -/
def addedHelpers : Request → List (String × Helper)
  | .change operation => operation.addedHelpers
  | .page _ _ => []
  | .fragment _ _ => []

/-- A document that is rendered by itself in a step of requests is that of a request. -/
theorem mem_isolatedSources {options : Options} {requests : List Request} {source : String}
    (renders : source ∈
      (requests.flatMap (steps options)).filterMap Operation.isolatedSource?) :
    source ∈ requests.filterMap isolatedSource? := by
  obtain ⟨step, member, found⟩ := List.mem_filterMap.1 renders
  obtain ⟨request, asked, stepped⟩ := List.mem_flatMap.1 member
  refine List.mem_filterMap.2 ⟨request, asked, ?_⟩
  cases request with
  | change operation => exact Operation.isolatedSource?_of_mem_steps stepped found
  | page reference data => exact nomatch stepped
  | fragment reference data => exact nomatch stepped

end Request

namespace Helper

/-- Helpers with more helpers, of which the later count. Those with reserved names are left
out. -/
def addAll (held : Entries Helper) (helpers : List (String × Helper)) : Entries Helper :=
  (helpers.filter fun helper => !reserved.contains helper.1).foldl
    (fun held helper => Entries.insert helper.1 helper.2 held) held

/-- Adding helpers after others is adding all of them. -/
theorem addAll_append (held : Entries Helper) (helpers others : List (String × Helper)) :
    addAll held (helpers ++ others) = addAll (addAll held helpers) others := by
  simp only [addAll, List.filter_append, List.foldl_append]

/-- The functions that a template knows that has nothing but maps and the given helpers. -/
def host (helpers : Entries Helper) : Host Unit := fun name arguments =>
  if name = "dict" then some (liftExcept (dict arguments))
  else (Entries.find? name helpers).map fun helper =>
    match helper arguments with
    | .ok value => pure value
    | .error (.fault fault) => throw (.function name fault)
    | .error .abandon => throw (.abandoned name)

end Helper

namespace Registry

variable {registry : Registry} {sources : List String}

/-- What a document answers that is parsed afresh and executed with the given helpers. -/
def isolatedAnswer (helpers : Entries Helper) (identity source : String) (data : Value) :
    Except Failure String := do
  let template ← Template.parse (isolatedName identity) (markupOrWhole source)
  ((template.execute data (Helper.host helpers)).run ()).1

/-- The functions of an isolated render are those of its helpers. -/
theorem isolatedHost_eq (registry : Registry) :
    registry.isolatedHost = Helper.host registry.helpers := by
  funext name arguments
  simp only [isolatedHost, Helper.host, callHelper, Option.map_map]
  split
  · rfl
  · cases Entries.find? name registry.helpers with
    | none => rfl
    | some helper =>
      simp only [Option.map_some, Function.comp_apply]
      cases helper arguments with
      | ok value => rfl
      | error refusal =>
        cases refusal with
        | fault fault => rfl
        | abandon => rfl

/-- The cache holds nothing but the templates of the given documents, each next to the digest of
its document. -/
def CachesOnly (registry : Registry) (sources : List String) : Prop :=
  ∀ held ∈ registry.isolated, ∃ source ∈ sources, held.2.digest = Digest.ofText source ∧
    Template.parse (isolatedName held.1) (markupOrWhole source) = .ok held.2.template

/-- What holds of the cache for some documents holds for more of them. -/
theorem CachesOnly.mono {more : List String} (caches : registry.CachesOnly sources)
    (subset : sources ⊆ more) : registry.CachesOnly more := by
  intro held member
  obtain ⟨source, listed, cached⟩ := caches held member
  exact ⟨source, subset listed, cached⟩

/-- An isolated render adds nothing to the cache but the template of its document. -/
theorem CachesOnly.renderIsolated (caches : registry.CachesOnly sources)
    (identity source : String) (data : Value) :
    (registry.renderIsolated identity source data).2.CachesOnly (sources ++ [source]) := by
  have before := caches.mono (List.subset_append_left sources [source])
  unfold Registry.renderIsolated
  split
  · exact before
  · rename_i template after made
    rcases isolatedTemplate_ok made with ⟨held, -, -, -, rfl⟩ | ⟨parsed, rfl⟩
    · exact before
    · intro held member
      rcases Entries.mem_insert member with rfl | earlier
      · exact ⟨source, List.mem_append_right _ (List.mem_singleton.2 rfl), rfl, parsed⟩
      · exact before held earlier

/-- A registration keeps the cache. -/
theorem isolated_register {component : Component} {after : Registry}
    (done : registry.register component = .ok after) : after.isolated = registry.isolated := by
  obtain ⟨template, -, rfl⟩ := register_ok done
  rfl

/-- The installation of a page shell keeps the cache. -/
theorem isolated_setShell {shell : Shell} {after : Registry}
    (done : registry.setShell shell = .ok after) : after.isolated = registry.isolated := by
  obtain ⟨template, -, rfl⟩ := setShell_ok done
  rfl

/-- A result that is taken only if there is one keeps the cache if it does in that case. -/
theorem isolated_orElse {result : Except Failure Registry}
    (keeps : ∀ after, result = .ok after → after.isolated = registry.isolated) :
    (registry.orElse result).isolated = registry.isolated := by
  cases result with
  | ok after => exact keeps after rfl
  | error failure => rfl

/-- A single operation adds nothing to the cache but the template of the document that it renders
by itself. -/
theorem CachesOnly.after (caches : registry.CachesOnly sources) {operation : Operation}
    (single : operation.IsSingle) :
    (registry.after operation).CachesOnly (sources ++ operation.isolatedSource?.toList) := by
  have kept {next : Registry} (same : next.isolated = registry.isolated) :
      next.CachesOnly (sources ++ operation.isolatedSource?.toList) := by
    intro held member
    exact caches.mono (List.subset_append_left _ _) held (same ▸ member)
  cases operation with
  | register component => exact kept (isolated_orElse fun after => isolated_register)
  | compile name source =>
    refine kept (isolated_orElse fun after done => ?_)
    obtain ⟨made, compiled, rfl⟩ := exists_of_map_ok done
    exact isolated_register (compile_ok compiled).2
  | setShell shell => exact kept (isolated_orElse fun after => isolated_setShell)
  | compileShell name source =>
    refine kept (isolated_orElse fun after done => ?_)
    obtain ⟨made, compiled, rfl⟩ := exists_of_map_ok done
    exact isolated_setShell (compileShell_ok compiled).2
  | addHelpers helpers => exact kept rfl
  | loadSources sources => exact single.elim
  | loadDirectories files directories => exact single.elim
  | renderIsolated identity source data => exact caches.renderIsolated identity source data
  | renderFile files path data =>
    simp only [Registry.after, renderFile, Operation.isolatedSource?]
    cases files.text? path with
    | none => simpa using caches
    | some source => exact caches.renderIsolated path source data

/-- Single operations add nothing to the cache but the templates of the documents that they
render by themselves. -/
theorem CachesOnly.run (caches : registry.CachesOnly sources) {operations : List Operation}
    (single : ∀ operation ∈ operations, operation.IsSingle) :
    (registry.run operations).CachesOnly
      (sources ++ operations.filterMap Operation.isolatedSource?) := by
  induction operations generalizing registry sources with
  | nil => simpa [Registry.run] using caches
  | cons operation operations ih =>
    have next := caches.after (single operation List.mem_cons_self)
    have rest := ih next fun later member => single later (List.mem_cons_of_mem _ member)
    have listed : (operation :: operations).filterMap Operation.isolatedSource? =
        operation.isolatedSource?.toList ++
          operations.filterMap Operation.isolatedSource? := by
      cases found : operation.isolatedSource? with
      | none => simp [found]
      | some source => simp [found]
    rw [listed, ← List.append_assoc]
    exact rest

/-- After requests to a new registry the cache holds nothing but the templates of the documents
that they rendered by themselves. -/
theorem cachesOnly_serveAll (options : Options) (requests : List Request) :
    ((Registry.new options).serveAll requests).CachesOnly
      (requests.filterMap Request.isolatedSource?) := by
  have single : ∀ operation ∈ requests.flatMap (Request.steps options),
      operation.IsSingle := by
    intro operation member
    obtain ⟨request, -, step⟩ := List.mem_flatMap.1 member
    exact Request.isSingle_of_mem_steps step
  have start : (Registry.new options).CachesOnly [] := nofun
  have caches := start.run single
  rw [List.nil_append] at caches
  have runs : (Registry.new options).serveAll requests =
      (Registry.new options).run (requests.flatMap (Request.steps options)) :=
    serveAll_eq_run _ requests
  rw [runs]
  exact caches.mono fun _ => Request.mem_isolatedSources

/-- Requests change the helpers by adding those that they ask for. -/
theorem helpers_serveAll (registry : Registry) (requests : List Request) :
    (registry.serveAll requests).helpers =
      Helper.addAll registry.helpers (requests.flatMap Request.addedHelpers) := by
  induction requests generalizing registry with
  | nil => rfl
  | cons request requests ih =>
    have first : (registry.serve request).helpers =
        Helper.addAll registry.helpers request.addedHelpers := by
      cases request with
      | page reference data => rfl
      | fragment reference data => rfl
      | change operation =>
        by_cases adds : ∃ helpers, operation = .addHelpers helpers
        · obtain ⟨helpers, rfl⟩ := adds
          rfl
        · have other : ∀ helpers, operation ≠ .addHelpers helpers := fun helpers same =>
            adds ⟨helpers, same⟩
          have none : operation.addedHelpers = [] := by
            cases operation with
            | addHelpers helpers => exact absurd rfl (other helpers)
            | _ => rfl
          show (registry.after operation).helpers = Helper.addAll registry.helpers _
          rw [(changes_after other).helpers, Request.addedHelpers, none]
          rfl
    rw [List.flatMap_cons, Helper.addAll_append, ← first]
    exact ih (registry.serve request)

/-- Where the digest of a document tells it apart from those in the cache, an isolated render
answers what the document answers afresh. -/
theorem CachesOnly.answer (caches : registry.CachesOnly sources) {source : String}
    (distinct : ∀ earlier ∈ sources, Digest.ofText earlier = Digest.ofText source →
      earlier = source) (identity : String) (data : Value) :
    (registry.renderIsolated identity source data).1 =
      isolatedAnswer registry.helpers identity source data := by
  have afresh {template : Template}
      (parsed : Template.parse (isolatedName identity) (markupOrWhole source) = .ok template) :
      isolatedAnswer registry.helpers identity source data =
        ((template.execute data registry.isolatedHost).run ()).1 := by
    rw [isolatedAnswer, parsed, isolatedHost_eq]
    rfl
  unfold Registry.renderIsolated
  cases made : registry.isolatedTemplate identity source with
  | ok found =>
    obtain ⟨template, after⟩ := found
    rcases isolatedTemplate_ok made with ⟨held, cached, digest, rfl, rfl⟩ | ⟨parsed, -⟩
    · obtain ⟨earlier, listed, same, parsed⟩ := caches _ (Entries.mem_of_find? cached)
      have equal : earlier = source := distinct earlier listed (same.symm.trans digest)
      exact (afresh (equal ▸ parsed)).symm
    · exact (afresh parsed).symm
  | error failure =>
    -- The template is not in the cache then, so it was the parse that failed.
    unfold isolatedTemplate at made
    simp only at made
    split at made
    · exact nomatch made
    · cases parsed : Template.parse (isolatedName identity) (markupOrWhole source) with
      | ok template =>
        rw [parsed] at made
        exact nomatch made
      | error fault =>
        rw [parsed] at made
        rw [isolatedAnswer, parsed]
        exact congrArg Except.error (Except.error.inj made).symm

/-- No isolated template can call a function of a session. -/
theorem isolated_call {name : String} (session : name ∈ ["comp", "param", "paramOr"])
    (formed : registry.WellFormed) (template : String) (data : Value) (arguments : List Value) :
    (Setting.mk template data registry.isolatedHost).call name arguments =
      (Setting.mk template data registry.isolatedHost).fail (.undefinedFunction name) := by
  have named : name = "comp" ∨ name = "param" ∨ name = "paramOr" := by simpa using session
  have reserved : name ∈ Helper.reserved := by
    rcases named with rfl | rfl | rfl <;> decide
  have unheld : Entries.find? name registry.helpers = none := by
    cases found : Entries.find? name registry.helpers with
    | none => rfl
    | some helper => exact absurd reserved (formed.unreserved _ (Entries.mem_of_find? found))
  have unknown : registry.isolatedHost name arguments = none := by
    rcases named with rfl | rfl | rfl <;> simp [isolatedHost, callHelper, unheld]
  have foreign : builtin name arguments = none := by
    rcases named with rfl | rfl | rfl <;> rfl
  simp only [Setting.call, unknown, foreign]

/-- The cache of isolated renders cannot be seen. After any requests to a new registry with any
options, each failing or succeeding, and while the digest of a document tells it apart from
those that were rendered by themselves before, the document answers what it answers when it is
parsed afresh and executed with the helpers that the requests asked to add. No function of a
session can be called there, whatever these helpers are. -/
theorem isolated_answers (options : Options) (requests : List Request) (identity : String)
    {source : String}
    (distinct : ∀ earlier ∈ requests.filterMap Request.isolatedSource?,
      Digest.ofText earlier = Digest.ofText source → earlier = source) (data : Value) :
    let registry := (Registry.new options).serveAll requests
    let helpers := Helper.addAll Helper.defaults (requests.flatMap Request.addedHelpers)
    registry.helpers = helpers ∧
    (registry.renderIsolated identity source data).1 =
      isolatedAnswer helpers identity source data ∧
    ∀ name ∈ ["comp", "param", "paramOr"], ∀ template arguments,
      (Setting.mk template data (Helper.host helpers)).call name arguments =
        (Setting.mk template data (Helper.host helpers)).fail (.undefinedFunction name) := by
  intro registry helpers
  have held : registry.helpers = helpers := helpers_serveAll _ requests
  have formed : registry.WellFormed := by
    show ((Registry.new options).serveAll requests).WellFormed
    rw [serveAll_eq_run]
    exact wellFormed_run (wellFormed_new options) _
  refine ⟨held, ?_, fun name session template arguments => ?_⟩
  · rw [← held]
    exact (cachesOnly_serveAll options requests).answer distinct identity data
  · rw [← held, ← isolatedHost_eq]
    exact isolated_call session formed template data arguments

/-- A document that was rendered before with another source, and then with one that does not
parse, answers for its source now; the helper for `param` that was asked for does not count. -/
theorem isolated_answers_page :
    let count : Helper := fun arguments => .ok (.int (Int64.ofNat arguments.length))
    let requests : List Request := [
      .change (.addHelpers [("count", count), ("param", count)]),
      .change (.renderIsolated "parts/page.html" "<b>\x7b\x7b.\x7d\x7d</b>" (.int 1)),
      .change (.renderIsolated "parts/page.html" "<b>\x7b\x7bif .\x7d\x7d</b>" (.int 2))]
    let source := "<template><i>\x7b\x7bcount 1 .\x7d\x7d</i></template>"
    let registry := (Registry.new .default).serveAll requests
    let helpers := Helper.addAll Helper.defaults (requests.flatMap Request.addedHelpers)
    (∀ earlier ∈ requests.filterMap Request.isolatedSource?,
      Digest.ofText earlier = Digest.ofText source → earlier = source) ∧
    registry.isolated.length = 1 ∧
    (registry.renderIsolated "parts/page.html" source (.int 3)).1 = .ok "<i>2</i>" ∧
    (Setting.mk "page_isolated" (.int 3) (Helper.host helpers)).call "param" [.int 0] =
      (Setting.mk "page_isolated" (.int 3) (Helper.host helpers)).fail
        (.undefinedFunction "param") := by
  intro count requests source registry helpers
  have distinct : ∀ earlier ∈ requests.filterMap Request.isolatedSource?,
      Digest.ofText earlier = Digest.ofText source → earlier = source := by decide +kernel
  obtain ⟨-, answers, unknown⟩ :=
    isolated_answers .default requests "parts/page.html" distinct (.int 3)
  have afresh : isolatedAnswer helpers "parts/page.html" source (.int 3) = .ok "<i>2</i>" := by
    decide +kernel
  exact ⟨distinct, by decide +kernel, answers.trans afresh, unknown "param" (by simp) _ _⟩

end Registry

end ComponentPages
