import ComponentPages.Proofs.Registry.Reachable
import ComponentPages.Proofs.Session.Course

/-!
# Isolation of invocations

An invocation sees nothing of its surroundings but how deep it is. From sessions of one depth it
has one outcome and begins the same invocations, whatever the frames of its ancestors hold and
whatever was rendered before (`invoke_isolated`), and it leaves the stack as it was. So an
invocation after others has the outcome that it has alone (`invoke_after_invoke`).
-/
namespace ComponentPages.Registry

open Template Comparison

/-- From sessions of one depth, an invocation has one outcome, and the sessions take the same
course. -/
theorem invoke_courses (registry : Registry) (reference : String) (arguments : List Value)
    {left right : Session} (depths : left.depth = right.depth) :
    ((registry.invoke reference arguments).run left).1 =
        ((registry.invoke reference arguments).run right).1 ∧
      ∃ trace,
        ((registry.invoke reference arguments).run left).2 = left.course left.stack trace ∧
        ((registry.invoke reference arguments).run right).2 = right.course right.stack trace := by
  have good : ∀ value ∈ arguments, value.Holds ((Trust.all registry).Trusted []) :=
    fun value _ => Value.holds_of_forall (fun _ => trivial) value
  have runs : ((Trust.all registry).comparison left right left.stack right.stack).Matches []
      ((Trust.all registry).comparison left right left.stack right.stack).Good
      (registry.invoke reference arguments) := matches_invoke depths reference good
  obtain ⟨trace, -, ⟨ofLeft, ofRight⟩, same, -⟩ :=
    runs left right ⟨left.course_nil.symm, right.course_nil.symm⟩
  exact ⟨same, trace, ofLeft, ofRight⟩

/-- From sessions of one depth, whatever their frames hold and whatever was used before, an
invocation has one outcome and begins the same invocations. Each session keeps its stack. -/
theorem invoke_isolated (registry : Registry) (reference : String) (arguments : List Value)
    {left right : Session} (depths : left.depth = right.depth) :
    let ofLeft := (registry.invoke reference arguments).run left
    let ofRight := (registry.invoke reference arguments).run right
    ofLeft.1 = ofRight.1 ∧ ofLeft.2.stack = left.stack ∧ ofRight.2.stack = right.stack ∧
      ∃ trace, ofLeft.2.begun = left.begun ++ trace ∧ ofRight.2.begun = right.begun ++ trace := by
  obtain ⟨same, trace, ofLeft, ofRight⟩ := invoke_courses registry reference arguments depths
  refine ⟨same, ?_, ?_, trace, ?_, ?_⟩
  · rw [ofLeft]
    rfl
  · rw [ofRight]
    rfl
  · rw [ofLeft]
    rfl
  · rw [ofRight]
    rfl

/-- Sessions of a page and of a menu that was rendered before greet alike. -/
theorem invoke_isolated_greetings :
    let left : Session := ⟨[⟨"page", [.str "secret"]⟩], .empty, []⟩
    let right : Session := ⟨[⟨"menu", []⟩], Usage.empty.useAll ["menu", "guest"], []⟩
    let ofLeft := (greetings.invoke "greeting" [.map [("name", .str "Ada")]]).run left
    let ofRight := (greetings.invoke "greeting" [.map [("name", .str "Ada")]]).run right
    left.depth = right.depth ∧
      ofLeft.1 = ofRight.1 ∧ ofLeft.2.stack = left.stack ∧ ofRight.2.stack = right.stack ∧
      ∃ trace, ofLeft.2.begun = left.begun ++ trace ∧ ofRight.2.begun = right.begun ++ trace :=
  ⟨rfl, invoke_isolated greetings "greeting" [.map [("name", .str "Ada")]] rfl⟩

/-- An invocation after another has the outcome that it has alone. -/
theorem invoke_after_invoke (registry : Registry) (reference other : String)
    (arguments others : List Value) (session : Session) :
    ((registry.invoke reference arguments).run
        ((registry.invoke other others).run session).2).1 =
      ((registry.invoke reference arguments).run session).1 := by
  obtain ⟨-, trace, after, -⟩ :=
    invoke_courses registry other others (show session.depth = session.depth from rfl)
  have depths : ((registry.invoke other others).run session).2.depth = session.depth := by
    rw [after]
    rfl
  exact (invoke_courses registry reference arguments depths).1

end ComponentPages.Registry
