import ComponentPages.Proofs.Render.Escaping

/-!
# Pages

The content of a page is evaluated first, and the assets are gathered when it is done; then the
page shell runs with both. So a page carries the style and the script of a component exactly
when a name for it is used by then (`render_carries`): it is the component of the page, or the
source of the shell invokes it by a name that the shell is known to refer to, or an invocation
of it began in the content. What only the shell invokes, in another way or through other
components, is on the page without its style and script (`page_lacks_style`).
-/
namespace ComponentPages.Registry

open Template

/-- A render of a page, with the sessions in which its content is done and in which it ends. -/
structure PageRun (registry : Registry) (reference : String) (data : Value) (page : String) where
  entry : Registered
  shell : InstalledShell
  content : String
  /-- The style and the script that the shell is given. -/
  assets : Assets
  /-- The session when the content is done. -/
  middle : Session
  /-- The session when the page is done. -/
  last : Session
  found : registry.entry? reference = some entry
  installed : registry.shell = some shell
  contentRun : (registry.evaluateContent entry shell data).run .start =
    (.ok (content, assets), middle)
  shellRun : (shell.template.execute (pageData content assets data) registry.host).run middle =
    (.ok page, last)

/-- The assets that are gathered for names have a part for the component. -/
def Carries (registry : Registry) (names : List String) (component : Component) : Prop :=
  ∃ name ∈ names, registry.lookup name = some component

variable {registry : Registry} {reference page : String} {data : Value}

/-- A page that is rendered has a run. -/
theorem exists_pageRun (rendered : registry.render reference data = .ok page) :
    Nonempty (registry.PageRun reference data page) := by
  unfold render at rendered
  split at rendered
  · simp at rendered
  · simp at rendered
  · rename_i entry shell found installed
    simp only [evaluatePage, run_bind] at rendered
    cases contentRun : (registry.evaluateContent entry shell data).run .start with
    | mk outcome middle =>
      cases outcome with
      | error failure => simp [contentRun] at rendered
      | ok made =>
        obtain ⟨content, assets⟩ := made
        simp only [contentRun] at rendered
        exact ⟨entry, shell, content, assets, middle, _, found, installed, contentRun,
          Prod.ext rendered rfl⟩

/-- A part of a text is found between what is before it and what is after it. -/
theorem join_eq_of_mem {piece : String} {pieces : List String} (member : piece ∈ pieces) :
    ∃ before after, String.join pieces = before ++ piece ++ after := by
  obtain ⟨before, after, rfl⟩ := List.append_of_mem member
  refine ⟨String.join before, String.join after, ?_⟩
  rw [String.join_append, String.join_cons, String.append_assoc]

/-- A component that is carried has its text in the text that is gathered. -/
theorem contains_of_carries {names : List String} {component : Component}
    (carries : registry.Carries names component) (text : Component → String) :
    ∃ before after, String.join (names.map (registry.contribution text)) =
      before ++ text component ++ after := by
  obtain ⟨name, member, found⟩ := carries
  have line : registry.contribution text name = assetLine (text component) := by
    simp only [contribution, found]
  obtain ⟨before, after, joined⟩ :=
    join_eq_of_mem (List.mem_map_of_mem (f := registry.contribution text) member)
  rw [joined, line]
  unfold assetLine
  split
  · rename_i empty
    exact ⟨before, after, by rw [empty]⟩
  · exact ⟨before, "\n" ++ after, by simp only [String.append_assoc]⟩

/-- A component that is executed is held under its own name. -/
theorem entry?_of_executes (formed : registry.WellFormed) {begun : List Invocation}
    {executed : Registered} (executes : registry.Executes reference begun executed) :
    ∃ other, registry.entry? other = some executed ∧
      executed.component.name = componentName other := by
  rcases executes with found | ⟨invocation, -, found⟩
  · exact ⟨reference, found, (formed.entry found).1⟩
  · exact ⟨invocation.frame.name, found, (formed.entry found).1⟩

/-- A component that is executed is carried exactly when one of the names stands for it. -/
theorem carries_iff (formed : registry.WellFormed) {begun : List Invocation}
    {executed : Registered} (executes : registry.Executes reference begun executed)
    (names : List String) :
    registry.Carries names executed.component ↔
      ∃ name ∈ names, componentName name = executed.component.name := by
  constructor
  · rintro ⟨name, member, found⟩
    obtain ⟨entry, held, same⟩ := Option.map_eq_some_iff.1 found
    refine ⟨name, member, ?_⟩
    rw [← same, (formed.entry held).1]
  · rintro ⟨name, member, same⟩
    obtain ⟨other, found, named⟩ := entry?_of_executes formed executes
    have held : registry.entry? name = some executed := by
      unfold entry? at found ⊢
      rw [same, named]
      exact found
    exact ⟨name, member, by rw [lookup, held, Option.map_some]⟩

/-- The content of a page is what the template of its component writes, with the assets of the
components used when it is done. -/
theorem evaluateContent_ok {entry : Registered} {shell : InstalledShell} {content : String}
    {assets : Assets} {session middle : Session}
    (made : (registry.evaluateContent entry shell data).run session =
      (.ok (content, assets), middle)) :
    (entry.template.execute data registry.host).run
        ((entry.component.name :: shell.shell.references).foldl Session.mark session) =
      (.ok content, middle) ∧ assets = registry.assets middle.used := by
  simp only [evaluateContent, run_bind, run_modify, run_get, run_pure] at made
  cases executed : (entry.template.execute data registry.host).run
      ((entry.component.name :: shell.shell.references).foldl Session.mark session) with
  | mk outcome last =>
    cases outcome with
    | error failure =>
      simp only [executed] at made
      exact nomatch made
    | ok written =>
      simp only [executed] at made
      obtain ⟨same, rfl⟩ := Prod.mk.inj made
      obtain ⟨rfl, rfl⟩ := Prod.mk.inj (Except.ok.inj same)
      exact ⟨rfl, rfl⟩

namespace PageRun

variable (run : registry.PageRun reference data page)

/-- The assets are those of the components used when the content is done. -/
theorem assets_eq : run.assets = registry.assets run.middle.used :=
  (evaluateContent_ok run.contentRun).2

/-- When the content is done, the components used are the one of the page, those that the shell
is known to refer to, and those whose invocations have begun. -/
theorem middle_used : run.middle.used =
    ((run.entry.component.name :: run.shell.shell.references).map componentName ++
      marksOf run.middle.begun).eraseDups := by
  have executed := (evaluateContent_ok run.contentRun).1
  obtain ⟨trace, course⟩ := execute_course registry run.entry.template data
    ((run.entry.component.name :: run.shell.shell.references).foldl Session.mark .start)
  rw [executed] at course
  have begun : run.middle.begun = trace := by
    rw [show run.middle = _ from course, Session.mark_start]
    rfl
  rw [begun, show run.middle = _ from course]
  exact Session.used_course _ _ trace

/-- The invocations that have begun when the content is done are the first ones of the page. -/
theorem begun_prefix : run.middle.begun <+: run.last.begun := by
  obtain ⟨trace, course⟩ := execute_course registry run.shell.template
    (pageData run.content run.assets data) run.middle
  rw [run.shellRun] at course
  rw [show run.last = _ from course]
  exact List.prefix_append _ trace

/-- The run is the evaluation of the page. -/
theorem evaluatePage_eq :
    (registry.evaluatePage run.entry run.shell data).run .start = (.ok page, run.last) := by
  simp only [evaluatePage, run_bind, run.contentRun, run.shellRun]

end PageRun

/-- A page carries a component that its render executes exactly when a name for it is used when
the content is done. Of every component that is carried, the style and the script are part of
what the shell is given, and every component that is executed for the content is carried, unless
its name has the ending of a document. -/
theorem render_carries (reachable : registry.Reachable)
    (rendered : registry.render reference data = .ok page) :
    ∃ run : registry.PageRun reference data page,
      run.middle.used =
        ((run.entry.component.name :: run.shell.shell.references).map componentName ++
          marksOf run.middle.begun).eraseDups ∧
      run.middle.begun <+: run.last.begun ∧
      (∀ executed, registry.Executes reference run.last.begun executed →
        (registry.Carries run.middle.used executed.component ↔
          ∃ name ∈ run.middle.used, componentName name = executed.component.name)) ∧
      (∀ component, registry.Carries run.middle.used component →
        (∃ before after, run.assets.css = before ++ component.style ++ after) ∧
        ∃ before after, run.assets.js = before ++ component.script ++ after) ∧
      ∀ executed, registry.Executes reference run.middle.begun executed →
        componentName executed.component.name = executed.component.name →
          registry.Carries run.middle.used executed.component := by
  have formed := reachable.wellFormed
  obtain ⟨run⟩ := exists_pageRun rendered
  refine ⟨run, run.middle_used, run.begun_prefix, ?_, ?_, ?_⟩
  · exact fun executed executes => carries_iff formed executes run.middle.used
  · intro component carries
    rw [run.assets_eq, assets_eq_join]
    exact ⟨contains_of_carries carries Component.style,
      contains_of_carries carries Component.script⟩
  · intro executed executes plain
    rw [carries_iff formed executes, run.middle_used]
    refine ⟨executed.component.name, ?_, plain⟩
    rw [List.mem_eraseDups, List.mem_append]
    rcases executes with found | ⟨invocation, begun, found⟩
    · left
      obtain rfl := Option.some.inj (run.found.symm.trans found)
      exact List.mem_map.2 ⟨_, List.mem_cons_self, plain⟩
    · right
      exact List.mem_map.2 ⟨invocation, begun, (formed.entry found).1.symm⟩

/-- The document of a page shell that shows a menu in a block. -/
def menuSource : String :=
  "<head></head><body>\x7b\x7bwith comp \"menu\"\x7d\x7d\x7b\x7b.\x7d\x7d\x7b\x7bend\x7d\x7d" ++
    "\x7b\x7b.Content\x7d\x7d</body>"

/-- The page shell of the document. The menu is not among its references. -/
def menuShell : Shell :=
  ⟨"layout", "<head>\n\t<style>\x7b\x7b .CSS \x7d\x7d</style>\n</head><body>" ++
    "\x7b\x7bwith comp \"menu\"\x7d\x7d\x7b\x7b.\x7d\x7d\x7b\x7bend\x7d\x7d" ++
    "\x7b\x7b.Content\x7d\x7d\n\t<script>\x7b\x7b .JS \x7d\x7d</script>\n</body>", []⟩

/-- A registry with the page shell and with a menu that shows an icon. -/
def menus : Registry := (Registry.new .default).run [
  .register ⟨"index", "<p>Hi</p>", "", "", "", .single⟩,
  .register ⟨"menu", "<nav>\x7b\x7bcomp \"icon\"\x7d\x7d</nav>", "nav \x7b margin: 0 \x7d", "", "",
    .container⟩,
  .register ⟨"icon", "<i></i>", "i \x7b color: red \x7d", "", "", .single⟩,
  .setShell menuShell]

/-- The page of the registry with a menu. -/
def menuPage : String :=
  "<head>\n\t<style></style>\n</head><body><nav><i></i></nav><p>Hi</p>" ++
    "\n\t<script></script>\n</body>"

/-- A program can reach the registry with a menu. -/
theorem menus_reachable : menus.Reachable := ⟨.default, _, rfl⟩

/-- The render of the page with a menu: the shell is given no style, and two invocations
begin. -/
theorem menus_runs :
    ((menus.entry? "index").bind fun entry => menus.shell.bind fun shell =>
      (menus.entry? "icon").map fun icon =>
        (((menus.evaluateContent entry shell (.map [])).run .start).1,
          ((menus.evaluatePage entry shell (.map [])).run .start).1,
          ((menus.evaluatePage entry shell (.map [])).run .start).2.begun.map
            fun invocation => invocation.frame.name, icon.component.style)) =
      some (.ok ("<p>Hi</p>", ⟨"", ""⟩), .ok menuPage, ["menu", "icon"],
        "i \x7b color: red \x7d") := by
  decide +kernel

/-- The page with a menu is rendered. -/
theorem render_menus : menus.render "index" (.map []) = .ok menuPage := by
  obtain ⟨entry, found, rest⟩ := Option.bind_eq_some_iff.1 menus_runs
  obtain ⟨shell, installed, rest⟩ := Option.bind_eq_some_iff.1 rest
  obtain ⟨icon, -, runs⟩ := Option.map_eq_some_iff.1 rest
  simp only [Prod.mk.injEq] at runs
  obtain ⟨-, rendered, -⟩ := runs
  unfold render
  rw [found, installed]
  exact rendered

/-- What the page with a menu carries. -/
theorem render_carries_menus :
    menus.Reachable ∧ menus.render "index" (.map []) = .ok menuPage ∧
    ∃ run : menus.PageRun "index" (.map []) menuPage,
      run.middle.used =
        ((run.entry.component.name :: run.shell.shell.references).map componentName ++
          marksOf run.middle.begun).eraseDups ∧
      run.middle.begun <+: run.last.begun ∧
      (∀ executed, menus.Executes "index" run.last.begun executed →
        (menus.Carries run.middle.used executed.component ↔
          ∃ name ∈ run.middle.used, componentName name = executed.component.name)) ∧
      (∀ component, menus.Carries run.middle.used component →
        (∃ before after, run.assets.css = before ++ component.style ++ after) ∧
        ∃ before after, run.assets.js = before ++ component.script ++ after) ∧
      ∀ executed, menus.Executes "index" run.middle.begun executed →
        componentName executed.component.name = executed.component.name →
          menus.Carries run.middle.used executed.component :=
  ⟨menus_reachable, render_menus, render_carries menus_reachable render_menus⟩

/-- The page with a menu executes the icon, and the shell is given no style at all. -/
theorem page_lacks_style :
    Shell.compile "layout" menuSource = .ok menuShell ∧ menus.Reachable ∧
    menus.render "index" (.map []) = .ok menuPage ∧
    ∃ (run : menus.PageRun "index" (.map []) menuPage) (executed : Registered),
      menus.Executes "index" run.last.begun executed ∧
      executed.component.style = "i \x7b color: red \x7d" ∧ run.assets.css = "" ∧
      ¬ ∃ before after, run.assets.css = before ++ executed.component.style ++ after := by
  have compiled : Shell.compile "layout" menuSource = .ok menuShell := by decide +kernel
  obtain ⟨run⟩ := exists_pageRun render_menus
  obtain ⟨entry, found, rest⟩ := Option.bind_eq_some_iff.1 menus_runs
  obtain ⟨shell, installed, rest⟩ := Option.bind_eq_some_iff.1 rest
  obtain ⟨executed, isIcon, runs⟩ := Option.map_eq_some_iff.1 rest
  obtain rfl := Option.some.inj (run.found.symm.trans found)
  obtain rfl := Option.some.inj (run.installed.symm.trans installed)
  simp only [run.contentRun, run.evaluatePage_eq, Prod.mk.injEq, Except.ok.injEq] at runs
  obtain ⟨⟨-, gathered⟩, -, names, style⟩ := runs
  have empty : run.assets.css = "" := by rw [gathered]
  have listed : "icon" ∈ run.last.begun.map fun invocation => invocation.frame.name := by
    rw [names]
    decide
  obtain ⟨invocation, begun, named⟩ := List.mem_map.1 listed
  refine ⟨compiled, menus_reachable, render_menus, run, executed, .inr ⟨invocation, begun, ?_⟩,
    style, empty, ?_⟩
  · rw [named]
    exact isIcon
  · rintro ⟨before, after, contained⟩
    rw [empty, style] at contained
    have lengths := congrArg String.length contained
    simp only [String.length_append] at lengths
    have positive : "i \x7b color: red \x7d".length = 16 := by decide
    have none : "".length = 0 := by decide
    omega

end ComponentPages.Registry
