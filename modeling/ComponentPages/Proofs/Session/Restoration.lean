import ComponentPages.Proofs.Session.Isolation

/-!
# What an operation leaves of a session

A program works on the session of a render by invocations, calls of functions, look-ups of
arguments and marks (`SessionOperation`). Each of them may end in any way: it may succeed, fail
at any depth of the invocations that it makes, or be given up by a helper. Whatever the end,
every frame that was added is gone (`perform_resumes`), so the stack between operations is
that of the start, and the names used are listed once each and only grow at their end
(`performAll_restores`).
-/
namespace ComponentPages

open Template Comparison

/-- What a program does with the session of a render. -/
inductive SessionOperation where
  | invoke (reference : String) (arguments : List Value)
  | call (name : String) (arguments : List Value)
  | param (index : Int)
  | paramOr (index : Int) (fallback : Value)
  | mark (reference : String)

/-- A session goes on as it was before: with the same frames, and with more names used. -/
structure Session.Resumes (before after : Session) : Prop where
  stack : after.stack = before.stack
  uses : ∃ names, after.usage = before.usage.useAll names

namespace Session

/-- A session that nothing happens to goes on as it was. -/
theorem Resumes.refl (session : Session) : session.Resumes session := ⟨rfl, [], rfl⟩

/-- A session that goes on as it was, twice, goes on as it was at first. -/
theorem Resumes.trans {before middle after : Session} (first : before.Resumes middle)
    (second : middle.Resumes after) : before.Resumes after := by
  obtain ⟨names, used⟩ := first.uses
  obtain ⟨others, usedThen⟩ := second.uses
  refine ⟨second.stack.trans first.stack, names ++ others, ?_⟩
  rw [usedThen, used, Usage.useAll_append]

/-- A session that goes on as it was keeps its depth. -/
theorem Resumes.depth {before after : Session} (resumes : before.Resumes after) :
    after.depth = before.depth := congrArg List.length resumes.stack

/-- A session that goes on as it was has its names used in the same order, with new ones at the
end. -/
theorem Resumes.used_prefix {before after : Session} (resumes : before.Resumes after) :
    before.used <+: after.used := by
  obtain ⟨names, used⟩ := resumes.uses
  simp only [Session.used, used]
  exact Usage.prefix_useAll before.usage names

/-- A session that goes on as it was keeps a consistent usage. -/
theorem Resumes.consistent {before after : Session} (resumes : before.Resumes after)
    (consistent : before.usage.Consistent) : after.usage.Consistent := by
  obtain ⟨names, used⟩ := resumes.uses
  rw [used]
  exact Usage.consistent_useAll consistent names

/-- A session goes on as it was after invocations that have all ended. -/
theorem resumes_course (session : Session) (trace : List Invocation) :
    session.Resumes (session.course session.stack trace) := ⟨rfl, marksOf trace, rfl⟩

/-- A session goes on as it was after a mark. -/
theorem resumes_mark (session : Session) (reference : String) :
    session.Resumes (session.mark reference) := ⟨rfl, [componentName reference], rfl⟩

end Session

namespace Registry

/-- What an operation does. A function that the session does not know does nothing. -/
def perform (registry : Registry) : SessionOperation → Eval Session Value
  | .invoke reference arguments => registry.invoke reference arguments
  | .call name arguments => (registry.host name arguments).getD (pure .null)
  | .param index => do return (← get).param index
  | .paramOr index fallback => do return (← get).paramOr index fallback
  | .mark reference => do
    modify fun session => session.mark reference
    return .null

/-- The session after operations, one after the other, however each of them ends. -/
def performAll (registry : Registry) (session : Session)
    (operations : List SessionOperation) : Session :=
  operations.foldl (fun session operation => ((registry.perform operation).run session).2) session

/-- A call of a function takes a course, in which its invocations begin and end. -/
theorem host_course (registry : Registry) (session : Session) {name : String}
    {arguments : List Value} {answer : Eval Session Value}
    (answers : registry.host name arguments = some answer) :
    ∃ trace, (answer.run session).2 = session.course session.stack trace := by
  have trusted : ∀ value : Value, value.Holds ((Trust.all registry).Trusted []) :=
    Value.holds_of_forall fun _ => trivial
  have supports : ((Trust.all registry).comparison session session session.stack
      session.stack).Supports [] registry.host :=
    supports_host rfl rfl fun _ _ value _ => trusted value
  have runs := supports [] (List.prefix_refl []) name arguments answer
    (fun value _ => trusted value) answers
  obtain ⟨trace, -, ⟨last, -⟩, -⟩ :=
    runs session session ⟨session.course_nil.symm, session.course_nil.symm⟩
  exact ⟨trace, last⟩

/-- Whatever an operation does and however it ends, the session goes on as it was. -/
theorem perform_resumes (registry : Registry) (operation : SessionOperation)
    (session : Session) : session.Resumes ((registry.perform operation).run session).2 := by
  cases operation with
  | invoke reference arguments =>
    obtain ⟨-, trace, after, -⟩ :=
      registry.invoke_courses reference arguments (show session.depth = session.depth from rfl)
    exact after ▸ session.resumes_course trace
  | call name arguments =>
    cases answers : registry.host name arguments with
    | none =>
      simp only [perform, answers]
      exact .refl session
    | some answer =>
      obtain ⟨trace, after⟩ := host_course registry session answers
      simp only [perform, answers, Option.getD_some, after]
      exact session.resumes_course trace
  | param index => exact .refl session
  | paramOr index fallback => exact .refl session
  | mark reference => exact session.resumes_mark reference

/-- However the operations end, the session goes on as it was. -/
theorem performAll_resumes (registry : Registry) (operations : List SessionOperation)
    (session : Session) : session.Resumes (registry.performAll session operations) := by
  induction operations generalizing session with
  | nil => exact .refl session
  | cons operation operations ih => exact (perform_resumes registry operation session).trans (ih _)

/-- Between operations a session has the frames of its start, whatever the operations do and
however each of them ends; so a new session has none. The names used are listed once each, are
the names to look up, and only grow at their end. -/
theorem performAll_restores (registry : Registry) {session : Session}
    (consistent : session.usage.Consistent) (operations : List SessionOperation)
    (operation : SessionOperation) :
    let before := registry.performAll session operations
    let after := ((registry.perform operation).run before).2
    after.stack = before.stack ∧ before.stack = session.stack ∧
      (registry.performAll .start operations).depth = 0 ∧
      after.used.Nodup ∧
      (∀ name, after.usage.contains name = true ↔ name ∈ after.used) ∧
      before.used <+: after.used := by
  intro before after
  have earlier : session.Resumes before := performAll_resumes registry operations session
  have now : before.Resumes after := perform_resumes registry operation before
  have start : Session.start.Resumes (registry.performAll .start operations) :=
    performAll_resumes registry operations .start
  have whole : after.usage.Consistent := (earlier.trans now).consistent consistent
  exact ⟨now.stack, earlier.stack, start.depth, whole.nodup, whole.agrees, now.used_prefix⟩

/-- A registry with a page that shows a number, and with a component of the number that is
given up. -/
def numbers : Registry := (Registry.new .default).run [
  .register ⟨"page", "<p>\x7b\x7bcomp \"number\" 1\x7d\x7d</p>", "", "", "", .single⟩,
  .register ⟨"number", "<b>\x7b\x7bmod -9223372036854775808 -1\x7d\x7d</b>", "", "", "", .single⟩]

/-- In the frame of a menu, the invocation of a page whose number is given up leaves the frame of
the menu, also after an invocation that fails. -/
theorem performAll_restores_numbers :
    let session : Session := ⟨[⟨"menu", [.str "open"]⟩], Usage.empty.useAll ["menu"], []⟩
    let before := numbers.performAll session [.mark "icon.html", .invoke "missing" []]
    let after := ((numbers.perform (.invoke "page" [])).run before).2
    session.usage.Consistent ∧
    ((numbers.perform (.invoke "page" [])).run before).1.map (fun _ => ()) =
      .error (.abandoned "mod") ∧
    after.stack = before.stack ∧ before.stack = session.stack ∧
      (numbers.performAll .start [.mark "icon.html", .invoke "missing" []]).depth = 0 ∧
      after.used.Nodup ∧
      (∀ name, after.usage.contains name = true ↔ name ∈ after.used) ∧
      before.used <+: after.used := by
  have consistent : (Usage.empty.useAll ["menu"]).Consistent :=
    Usage.consistent_useAll Usage.consistent_empty ["menu"]
  exact ⟨consistent, by decide +kernel, performAll_restores numbers consistent _ _⟩

end Registry

end ComponentPages
