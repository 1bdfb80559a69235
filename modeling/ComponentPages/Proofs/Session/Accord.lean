import ComponentPages.Proofs.Session.Course
import ComponentPages.Proofs.Template.Accord
import ComponentPages.Render

/-!
# Sessions of two registries

The renders of one registry set against those of another, which may differ in how they invoke
components. If the invocations of the second follow those of the first, so do the calls of all
functions of a session (`Registry.follows_hostOf`), and with them the renders of fragments and
of pages, and an invocation in a frame follows one in the same frame.
-/
namespace ComponentPages

open Template Accord

/-- What gives up in the renders of a registry: a helper that does for some arguments, and a range
over more integers than a list can hold. -/
def Registry.GivesUp (registry : Registry) : Abandonment → Prop
  | .helper name => ∃ helper arguments, Entries.find? name registry.helpers = some helper ∧
      helper arguments = .error .abandon
  | .range count => Overlong count

variable {accord : Accord Session}

namespace Session

/-- A change of the session is the same for both. -/
theorem follows_modify {change : Session → Session}
    (kept : ∀ session, accord.Invariant session → accord.Invariant (change session)) :
    accord.Follows (modify change : Eval Session Unit) (modify change) :=
  fun session holds => .inr ⟨rfl, kept session holds, fun _ wrong => nomatch wrong⟩

/-- Computations in one frame follow each other if they do once the invocation has begun. -/
theorem follows_inFrame {α : Type} {inside : Accord Session} {first second : Eval Session α}
    (frame : CallFrame) (follows : inside.Follows first second)
    (enters : ∀ session, accord.Invariant session → inside.Invariant (session.enter frame))
    (leaves : ∀ session, inside.Invariant session → accord.Invariant session.leave)
    (excused : ∀ failure, inside.Excused failure → accord.Excused failure)
    (givesUp : ∀ cause, inside.GivesUp cause → accord.GivesUp cause) :
    accord.Follows (inFrame frame first) (inFrame frame second) := by
  intro session holds
  have begun := enters session holds
  have leftRun (computation : Eval Session α) : (inFrame frame computation).run session =
      ((computation.run (session.enter frame)).1,
        (computation.run (session.enter frame)).2.leave) := rfl
  rw [leftRun first, leftRun second]
  rcases follows _ begun with ⟨failure, failed, excuse⟩ | ⟨same, kept, allowed⟩
  · exact .inl ⟨failure, failed, excused failure excuse⟩
  · refine .inr ⟨by rw [same], leaves _ kept, fun failure failed cause abandoned => ?_⟩
    exact givesUp cause (allowed failure failed cause abandoned)

end Session

namespace Registry

variable {registry other : Registry}

/-- A failure of a helper is a refusal of its own, or it gives up. -/
theorem callHelper_error {name : String} {arguments : List Value} {failure : Failure}
    (failed : registry.callHelper name arguments = some (.error failure)) :
    (∃ fault, failure = .function name fault) ∨
      failure = .abandoned name ∧ registry.GivesUp name := by
  obtain ⟨helper, found, answered⟩ := Option.map_eq_some_iff.1 failed
  cases answer : helper arguments with
  | ok value =>
    rw [answer] at answered
    exact nomatch answered
  | error refusal =>
    rw [answer] at answered
    cases refusal with
    | fault fault => exact .inl ⟨fault, (Except.error.inj answered).symm⟩
    | abandon =>
      exact .inr ⟨(Except.error.inj answered).symm, helper, arguments, found, answer⟩

/-- The failures of a helper are allowed, if those that give up may. -/
theorem allows_callHelper {givesUp : Abandonment → Prop}
    (listed : ∀ cause, registry.GivesUp cause → givesUp cause) {name : String}
    {arguments : List Value} {failure : Failure}
    (failed : registry.callHelper name arguments = some (.error failure)) :
    AllowedBy givesUp failure := by
  rcases callHelper_error failed with ⟨fault, rfl⟩ | ⟨rfl, gaveUp⟩
  · exact fun _ wrong => nomatch wrong
  · intro found same
    obtain rfl := Failure.abandoned.inj same
    exact listed name gaveUp

/-- The failure to build a map is allowed. -/
theorem allows_dict {givesUp : Abandonment → Prop} {arguments : List Value} {failure : Failure}
    (failed : dict arguments = .error failure) : AllowedBy givesUp failure := by
  unfold dict at failed
  split at failed
  · exact Except.error.inj failed ▸ fun _ wrong => nomatch wrong
  · split at failed
    · exact nomatch failed
    · exact Except.error.inj failed ▸ fun _ wrong => nomatch wrong

/-- The lack of an index is allowed. -/
theorem allows_indexArgument {givesUp : Abandonment → Prop} {name : String}
    {arguments : List Value} {failure : Failure}
    (failed : indexArgument name arguments = .error failure) : AllowedBy givesUp failure := by
  unfold indexArgument at failed
  split at failed
  · exact nomatch failed
  · exact Except.error.inj failed ▸ fun _ wrong => nomatch wrong

/-- Calls of the functions of a session are related if invocations are, and if what is read of
one session is related to itself. -/
theorem relates_hostOf {congruence : Congruence Session}
    {invoke invokeOther : String → List Value → Eval Session Value}
    (reads : ∀ read : Session → Value, congruence.Relates
      (get >>= fun session => pure (read session)) (get >>= fun session => pure (read session)))
    (helpers : other.helpers = registry.helpers)
    (givesUp : ∀ cause, registry.GivesUp cause → congruence.GivesUp cause)
    (invokes : ∀ reference arguments,
      congruence.Relates (invoke reference arguments) (invokeOther reference arguments)) :
    congruence.Supports (registry.hostOf invoke) (other.hostOf invokeOther) := by
  intro name arguments
  have called : other.callHelper name arguments = registry.callHelper name arguments := by
    rw [callHelper, helpers]
    rfl
  have index (continuation : Int → Eval Session Value)
      (rest : ∀ index, congruence.Relates (continuation index) (continuation index)) :
      congruence.Relates (liftExcept (indexArgument name arguments) >>= continuation)
        (liftExcept (indexArgument name arguments) >>= continuation) :=
    congruence.relates_bind (Congruence.relates_liftExcept fun _ => allows_indexArgument) rest
  unfold hostOf
  split
  · refine .some ?_
    split
    · exact invokes _ _
    · exact congruence.relates_throw fun _ wrong => nomatch wrong
  · exact .some (index _ fun index => reads fun session => session.param index)
  · refine .some (index _ fun index => ?_)
    split
    · exact reads fun session => session.paramOr index _
    · exact congruence.relates_throw fun _ wrong => nomatch wrong
  · exact .some (Congruence.relates_liftExcept fun _ => allows_dict)
  · rw [called]
    cases answered : registry.callHelper name arguments with
    | none => exact .none
    | some answer =>
      exact .some (Congruence.relates_liftExcept fun failure failed =>
        allows_callHelper givesUp (failed ▸ answered))

/-- Calls of the functions of a session follow each other if invocations do. -/
theorem follows_hostOf {invoke invokeOther : String → List Value → Eval Session Value}
    (helpers : other.helpers = registry.helpers)
    (givesUp : ∀ cause, registry.GivesUp cause → accord.GivesUp cause)
    (invokes : ∀ reference arguments,
      accord.Follows (invoke reference arguments) (invokeOther reference arguments)) :
    accord.Supports (registry.hostOf invoke) (other.hostOf invokeOther) :=
  relates_hostOf (show ∀ _ : Session → Value, accord.congruence.Relates _ _ from
    fun _ => follows_get fun _ _ => follows_pure _) helpers givesUp invokes

variable (supports : accord.Supports registry.host other.host)
  (marks : ∀ session reference, accord.Invariant session →
    accord.Invariant (session.mark reference))
  (assets : other.assets = registry.assets)

include supports marks assets

/-- The contents of one page follow each other. -/
theorem follows_evaluateContent (entry : Registered) (shell : InstalledShell) (data : Value) :
    accord.Follows (registry.evaluateContent entry shell data)
      (other.evaluateContent entry shell data) := by
  have marksAll : ∀ (references : List String) (session : Session), accord.Invariant session →
      accord.Invariant (references.foldl Session.mark session) := by
    intro references
    induction references with
    | nil => exact fun session holds => holds
    | cons reference references ih =>
      exact fun session holds => ih _ (marks session reference holds)
  unfold evaluateContent
  refine follows_bind (Session.follows_modify (marksAll _)) fun _ => ?_
  refine follows_bind (follows_execute supports entry.template data) fun content => ?_
  rw [assets]
  exact follows_get fun session _ => follows_pure _

/-- The renders of one page follow each other. -/
theorem follows_evaluatePage (entry : Registered) (shell : InstalledShell) (data : Value) :
    accord.Follows (registry.evaluatePage entry shell data)
      (other.evaluatePage entry shell data) := by
  unfold evaluatePage
  exact follows_bind (follows_evaluateContent supports marks assets entry shell data)
    fun made => follows_execute supports shell.template (pageData made.1 made.2 data)

/-- The renders of one fragment follow each other. -/
theorem follows_evaluateFragment (entry : Registered) (data : Value) :
    accord.Follows (registry.evaluateFragment entry data)
      (other.evaluateFragment entry data) := by
  unfold evaluateFragment
  refine follows_bind (Session.follows_modify fun session => marks session _) fun _ => ?_
  refine follows_bind (follows_execute supports entry.template data) fun html => ?_
  rw [assets]
  exact follows_get fun session _ => follows_pure _

end Registry

end ComponentPages
