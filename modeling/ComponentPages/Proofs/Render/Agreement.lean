import ComponentPages.Proofs.Render.Fragment
import Mathlib.Data.List.Induction

/-!
# Pages and fragments

A page runs the template of its component as a fragment does, from a session in which the
references of the page shell are marked as well. The template never reads what is marked, so it
writes the same and begins the same invocations (`Registry.render_agrees`), and the names that
are used for the page are those of its component, of the references, and of the fragment, with
later repetitions removed. Each name is one of a reference: a component whose own name has the
ending of a document is marked under another name (`Registry.render_marks_other`).
-/
namespace ComponentPages

open Template

/-- A name at the end is kept if it is new. -/
theorem eraseDups_concat (names : List String) (name : String) :
    (names ++ [name]).eraseDups =
      if name ∈ names then names.eraseDups else names.eraseDups ++ [name] := by
  rw [List.eraseDups_append]
  by_cases known : name ∈ names
  · simp [List.removeAll, known]
  · simp [List.removeAll, known, List.eraseDups_cons]

/-- Repetitions among the later names may be removed first. -/
theorem eraseDups_append_eraseDups (names others : List String) :
    (names ++ others.eraseDups).eraseDups = (names ++ others).eraseDups := by
  -- The induction is from the end, where the next name is kept or not.
  induction others using List.reverseRecOn with
  | nil => rfl
  | append_singleton others other ih =>
    rw [eraseDups_concat, ← List.append_assoc, eraseDups_concat, ← ih]
    by_cases known : other ∈ others
    · rw [if_pos known, if_pos (List.mem_append_right names known)]
    · rw [if_neg known, ← List.append_assoc, eraseDups_concat]
      simp only [List.mem_append, List.mem_eraseDups]

/-- A later name that is among the earlier ones adds nothing. -/
theorem eraseDups_append_known {names others : List String} {name : String}
    (known : name ∈ names) :
    (names ++ name :: others).eraseDups = (names ++ others).eraseDups := by
  rw [List.eraseDups_append, List.eraseDups_append]
  simp [List.removeAll, known]

namespace Registry

variable {registry : Registry} {entry : Registered} {shell : InstalledShell}

/-- The session before the content of a page is evaluated. -/
def pageStart (entry : Registered) (shell : InstalledShell) : Session :=
  (entry.component.name :: shell.shell.references).foldl Session.mark .start

/-- The session before a fragment is evaluated. -/
def fragmentStart (entry : Registered) : Session := Session.start.mark entry.component.name

/-- Before the content of a page is evaluated, no frame is on the stack. -/
theorem pageStart_stack : (pageStart entry shell).stack = [] := by
  rw [pageStart, Session.mark_start]

/-- The render of a page executes the template of its component, and then that of the shell. -/
theorem evaluatePage_run (registry : Registry) (entry : Registered) (shell : InstalledShell)
    (data : Value) :
    (registry.evaluatePage entry shell data).run .start =
      match (entry.template.execute data registry.host).run (pageStart entry shell) with
      | (.ok html, middle) =>
        (shell.template.execute (pageData html (registry.assets middle.used) data)
          registry.host).run middle
      | (.error failure, middle) => (.error failure, middle) := by
  simp only [evaluatePage, evaluateContent, run_bind, run_modify, run_get, run_pure]
  rw [pageStart]
  cases (entry.template.execute data registry.host).run
      ((entry.component.name :: shell.shell.references).foldl Session.mark .start) with
  | mk outcome middle =>
    cases outcome with
    | error failure => rfl
    | ok html => rfl

/-- After one trace, the names that are used for a page are those of its component, of the
references of the shell, and of the fragment. -/
theorem used_page (entry : Registered) (shell : InstalledShell) (trace : List Invocation) :
    ((pageStart entry shell).course [] trace).used =
      (componentName entry.component.name :: shell.shell.references.map componentName ++
        ((fragmentStart entry).course [] trace).used).eraseDups := by
  have ofPage : ((pageStart entry shell).course [] trace).used =
      ((entry.component.name :: shell.shell.references).map componentName ++
        marksOf trace).eraseDups := Session.used_course _ [] trace
  have ofFragment : ((fragmentStart entry).course [] trace).used =
      (componentName entry.component.name :: marksOf trace).eraseDups :=
    Session.used_course [entry.component.name] [] trace
  rw [ofPage, ofFragment, eraseDups_append_eraseDups,
    eraseDups_append_known List.mem_cons_self, List.map_cons]

/-- For a page as for a fragment, the template of the component has one outcome, and the sessions
take the same course: they differ in what is marked, which is never read. -/
theorem content_courses (registry : Registry) (entry : Registered) (shell : InstalledShell)
    (data : Value) :
    ∃ outcome trace,
      (entry.template.execute data registry.host).run (pageStart entry shell) =
        (outcome, (pageStart entry shell).course [] trace) ∧
      (entry.template.execute data registry.host).run (fragmentStart entry) =
        (outcome, (fragmentStart entry).course [] trace) := by
  have sameStack : (pageStart entry shell).stack = (fragmentStart entry).stack := pageStart_stack
  obtain ⟨same, trace, ofPage, ofFragment⟩ :=
    execute_courses registry entry.template data sameStack
  rw [pageStart_stack] at ofPage
  exact ⟨_, trace, Prod.ext rfl ofPage, Prod.ext same.symm ofFragment⟩

/-- A page and a fragment of one component agree. If the fragment fails, the page fails for the
same reason. Else the page is what the page shell writes, in any session without frames, when it
is given the text of the fragment, the data, and the styles and scripts of the components that
are named: that of the page, those that the shell is known to refer to, and those of the
fragment, with later repetitions removed. -/
theorem render_agrees {reference : String} (found : registry.entry? reference = some entry)
    (installed : registry.shell = some shell) (data : Value) :
    (∀ failure, registry.renderFragment reference data = .error failure →
      registry.render reference data = .error failure) ∧
    ∀ fragment, registry.renderFragment reference data = .ok fragment →
      let names := (componentName entry.component.name ::
        shell.shell.references.map componentName ++ fragment.used).eraseDups
      let assets : Assets := ⟨String.join (names.map (registry.contribution Component.style)),
        String.join (names.map (registry.contribution Component.script))⟩
      ∀ session : Session, session.stack = [] →
        registry.render reference data =
          ((shell.template.execute (pageData fragment.html assets data) registry.host).run
            session).1 := by
  have page : registry.render reference data =
      ((registry.evaluatePage entry shell data).run .start).1 := by
    unfold render
    rw [found, installed]
  have alone : registry.renderFragment reference data =
      ((registry.evaluateFragment entry data).run .start).1 := by
    unfold renderFragment
    rw [found]
  obtain ⟨outcome, trace, ofPage, ofFragment⟩ := content_courses registry entry shell data
  rw [page, alone, evaluatePage_run, evaluateFragment_run, ← fragmentStart, ofPage, ofFragment]
  cases outcome with
  | error reason =>
    exact ⟨fun failure failed => congrArg Except.error (Except.error.inj failed),
      fun fragment made => nomatch made⟩
  | ok html =>
    refine ⟨fun failure failed => (nomatch failed), fun fragment made session empty => ?_⟩
    obtain rfl := Except.ok.inj made
    simp only [← used_page, ← assets_eq_join]
    have frames : ((pageStart entry shell).course [] trace).stack = session.stack := empty.symm
    exact (execute_courses registry shell.template _ frames).1

/-- A registry with a card, with another whose name has the ending of a document, and with a
deck of cards. Its page shell shows a card as well. -/
def decks : Registry := (Registry.new .default).run [
  .register ⟨"card.html", "<p>x</p>", "p\x7ba:b\x7d", "", "", .single⟩,
  .register ⟨"card", "<i>y</i>", "i\x7bc:d\x7d", "", "", .single⟩,
  .register ⟨"deck", "<b>\x7b\x7bcomp \"card\"\x7d\x7d</b>", "", "", "", .single⟩,
  .compileShell "layout"
    "<head></head><body>\x7b\x7bcomp \"card\"\x7d\x7d\x7b\x7b.Content\x7d\x7d</body>"]

/-- The page of a deck, on which the card that the deck and the shell show is named once. -/
theorem render_agrees_deck :
    ∃ entry shell, decks.entry? "deck" = some entry ∧ decks.shell = some shell ∧
      shell.shell.references = ["card"] ∧
      decks.renderFragment "deck" (.map []) =
        .ok ⟨"<b><i>y</i></b>", ⟨"i\x7bc:d\x7d\n", ""⟩, ["deck", "card"]⟩ ∧
      ∀ session : Session, session.stack = [] →
        decks.render "deck" (.map []) =
          ((shell.template.execute
            (pageData "<b><i>y</i></b>" ⟨"i\x7bc:d\x7d\n", ""⟩ (.map [])) decks.host).run
              session).1 := by
  have known : (decks.entry? "deck").map (fun entry => entry.component.name) = some "deck" ∧
      decks.shell.map (fun shell => shell.shell.references) = some ["card"] ∧
      decks.renderFragment "deck" (.map []) =
        .ok ⟨"<b><i>y</i></b>", ⟨"i\x7bc:d\x7d\n", ""⟩, ["deck", "card"]⟩ ∧
      decks.assets (componentName "deck" :: ["card"].map componentName ++
        ["deck", "card"]).eraseDups = ⟨"i\x7bc:d\x7d\n", ""⟩ := by
    decide +kernel
  obtain ⟨named, referred, made, gathered⟩ := known
  obtain ⟨entry, found, name⟩ := Option.map_eq_some_iff.1 named
  obtain ⟨shell, installed, references⟩ := Option.map_eq_some_iff.1 referred
  refine ⟨entry, shell, found, installed, references, made, fun session empty => ?_⟩
  have agrees := (render_agrees found installed (.map [])).2 _ made session empty
  simp only [name, references, ← assets_eq_join, gathered] at agrees
  exact agrees

/-- The page of a card with the given styles. -/
def cardPage (css : String) : String :=
  "<head>\n\t<style>" ++ css ++ "</style>\n</head><body><i>y</i><p>x</p>" ++
    "\n\t<script></script>\n</body>"

/-- The page of the card whose name has the ending lacks the style of that card. It is not the
page on which the component of its own name and those of the fragment are named, whether that
name is taken as it is or as a reference. -/
theorem render_marks_other :
    decks.Reachable ∧
    ∃ entry shell, decks.entry? "card.html.html" = some entry ∧ decks.shell = some shell ∧
      entry.component.name = "card.html" ∧ entry.component.style = "p\x7ba:b\x7d" ∧
      decks.renderFragment "card.html.html" (.map []) =
        .ok ⟨"<p>x</p>", ⟨"i\x7bc:d\x7d\n", ""⟩, ["card"]⟩ ∧
      decks.render "card.html.html" (.map []) = .ok (cardPage "i\x7bc:d\x7d\n") ∧
      ∀ css ∈ ["p\x7ba:b\x7d\ni\x7bc:d\x7d\n", "i\x7bc:d\x7d\ni\x7bc:d\x7d\n"],
        decks.render "card.html.html" (.map []) ≠
          ((shell.template.execute (pageData "<p>x</p>" ⟨css, ""⟩ (.map [])) decks.host).run
            .start).1 := by
  have known : ((decks.entry? "card.html.html").bind fun entry => decks.shell.map fun shell =>
      (entry.component.name, entry.component.style,
        ["p\x7ba:b\x7d\ni\x7bc:d\x7d\n", "i\x7bc:d\x7d\ni\x7bc:d\x7d\n"].map fun css =>
          ((shell.template.execute (pageData "<p>x</p>" ⟨css, ""⟩ (.map [])) decks.host).run
            .start).1)) =
      some ("card.html", "p\x7ba:b\x7d", [.ok (cardPage "p\x7ba:b\x7d\ni\x7bc:d\x7d\n"),
        .ok (cardPage "i\x7bc:d\x7d\ni\x7bc:d\x7d\n")]) ∧
      decks.renderFragment "card.html.html" (.map []) =
        .ok ⟨"<p>x</p>", ⟨"i\x7bc:d\x7d\n", ""⟩, ["card"]⟩ ∧
      decks.render "card.html.html" (.map []) = .ok (cardPage "i\x7bc:d\x7d\n") := by
    decide +kernel
  obtain ⟨runs, fragment, page⟩ := known
  obtain ⟨entry, found, rest⟩ := Option.bind_eq_some_iff.1 runs
  obtain ⟨shell, installed, rest⟩ := Option.map_eq_some_iff.1 rest
  simp only [Prod.mk.injEq, List.map_cons, List.map_nil, List.cons.injEq, and_true] at rest
  obtain ⟨name, style, literal, looked⟩ := rest
  refine ⟨⟨.default, _, rfl⟩, entry, shell, found, installed, name, style, fragment, page,
    fun css listed => ?_⟩
  rw [page]
  rcases List.mem_cons.1 listed with rfl | last
  · rw [literal]
    decide
  · obtain rfl := List.mem_singleton.1 last
    rw [looked]
    decide

end Registry

end ComponentPages
