import ComponentPages.Proofs.Template.Comparison
import ComponentPages.Session

/-!
# The course of a session

What a render does to its session: it begins invocations, each of which marks its component,
and ends every one of them (`Session.course`). The trace of the invocations says all that
changes. Two sessions with stacks of one depth and one innermost frame take the same course
(`Registry.matches_execute`): whatever else differs between them is never read.
-/
namespace ComponentPages

open Template Comparison

/-- The name that each invocation of a trace marks. -/
def marksOf (trace : List Invocation) : List String :=
  trace.map fun invocation => componentName invocation.frame.name

/-- A trace marks the names of its parts, in order. -/
theorem marksOf_append (trace others : List Invocation) :
    marksOf (trace ++ others) = marksOf trace ++ marksOf others := by
  simp only [marksOf, List.map_append]

namespace Session

/-- The session after the invocations of a trace have begun, with the given frames for those
that have not ended. -/
def course (start : Session) (stack : List CallFrame) (trace : List Invocation) : Session :=
  ⟨stack, start.usage.useAll (marksOf trace), start.begun ++ trace⟩

/-- Before an invocation begins, the session is as it started. -/
theorem course_nil (start : Session) : start.course start.stack [] = start := by
  simp only [course, marksOf, List.map_nil, Usage.useAll, List.foldl_nil, List.append_nil]

/-- An invocation that begins is the next one of the trace. -/
theorem enter_course (start : Session) (stack : List CallFrame) (trace : List Invocation)
    (frame : CallFrame) :
    (start.course stack trace).enter frame =
      start.course (frame :: stack) (trace ++ [⟨frame, stack.length + 1⟩]) := by
  have marked : (start.usage.useAll (marksOf trace)).use (componentName frame.name) =
      start.usage.useAll (marksOf (trace ++ [⟨frame, stack.length + 1⟩])) := by
    rw [marksOf_append, Usage.useAll_append]
    rfl
  simp only [enter, mark, depth, course, marked, List.append_assoc]

/-- An invocation that ends takes only its frame away. -/
theorem leave_course (start : Session) (stack : List CallFrame) (trace : List Invocation)
    (frame : CallFrame) :
    (start.course (frame :: stack) trace).leave = start.course stack trace := by rfl

/-- Marks at the start are uses of the names. -/
theorem mark_start (references : List String) :
    references.foldl mark start = ⟨[], Usage.empty.useAll (references.map componentName), []⟩ := by
  have general : ∀ session : Session, references.foldl mark session =
      { session with usage := session.usage.useAll (references.map componentName) } := by
    induction references with
    | nil => exact fun session => rfl
    | cons reference references ih => exact fun session => ih (session.mark reference)
  exact general start

/-- After marks at the start and a course, the components that are used are those marked and
those of the trace, in the order of their first uses. -/
theorem used_course (references : List String) (stack : List CallFrame)
    (trace : List Invocation) :
    ((references.foldl mark start).course stack trace).used =
      (references.map componentName ++ marksOf trace).eraseDups := by
  rw [mark_start]
  simp only [used, course]
  rw [← Usage.useAll_append, Usage.order_useAll]

/-- The arguments of the innermost frame are all that is read of the stack. -/
theorem param_eq_of_head {left right : Session}
    (innermost : left.stack.head? = right.stack.head?) (index : Int) :
    left.param index = right.param index := by
  unfold param
  cases leftStack : left.stack with
  | nil =>
    cases rightStack : right.stack with
    | nil => rfl
    | cons frame frames => simp [leftStack, rightStack] at innermost
  | cons frame frames =>
    cases rightStack : right.stack with
    | nil => simp [leftStack, rightStack] at innermost
    | cons other others =>
      have same : frame = other := by simpa [leftStack, rightStack] using innermost
      rw [same]

/-- An argument of the innermost frame is null or one of its arguments. -/
theorem holds_param {good : String → Prop} {session : Session}
    (each : ∀ frame ∈ session.stack.head?, ∀ value ∈ frame.arguments, value.Holds good)
    (index : Int) : (session.param index).Holds good := by
  unfold param
  split
  · exact .null
  · rename_i frame frames stack
    split
    · exact .null
    · cases found : frame.arguments[index.toNat]? with
      | none => exact .null
      | some value =>
        have innermost : frame ∈ session.stack.head? := by simp [stack]
        exact each frame innermost value (List.mem_of_getElem? found)

/-- An argument of the innermost frame, or a default, is null or one of the values given. -/
theorem holds_paramOr {good : String → Prop} {session : Session} {fallback : Value}
    (each : ∀ frame ∈ session.stack.head?, ∀ value ∈ frame.arguments, value.Holds good)
    (default : fallback.Holds good) (index : Int) :
    (session.paramOr index fallback).Holds good := by
  unfold paramOr
  split
  · exact default
  · exact holds_param each index

end Session

/-- What markup may be trusted in the renders of a registry. Trust grows with the invocations
that have begun; those of a component make its texts trusted. -/
structure Trust (registry : Registry) where
  /-- The markup that is trusted after the invocations of a trace have begun. -/
  Trusted : List Invocation → String → Prop
  trusted_later : ∀ {trace last}, trace <+: last → ∀ markup,
    Trusted trace markup → Trusted last markup
  trusted_empty : ∀ trace, Trusted trace ""
  trusted_append : ∀ {trace markup others}, Trusted trace markup → Trusted trace others →
    Trusted trace (markup ++ others)
  trusted_escape : ∀ trace text, Trusted trace (escape text)
  trusted_text : ∀ {trace invocation entry}, invocation ∈ trace →
    registry.entry? invocation.frame.name = some entry →
      ∀ text ∈ entry.template.texts, Trusted trace text
  trusted_literal : ∀ {trace name entry}, registry.entry? name = some entry →
    ∀ value ∈ entry.template.literals, value.Holds (Trusted trace)
  trusted_helper : ∀ {trace name arguments value},
    (∀ argument ∈ arguments, argument.Holds (Trusted trace)) →
      registry.callHelper name arguments = some (.ok value) → value.Holds (Trusted trace)

namespace Trust

/-- All markup is trusted. -/
def all (registry : Registry) : Trust registry where
  Trusted _ _ := True
  trusted_later _ _ _ := trivial
  trusted_empty _ := trivial
  trusted_append _ _ := trivial
  trusted_escape _ _ := trivial
  trusted_text _ _ _ _ := trivial
  trusted_literal _ value _ := Value.holds_of_forall (fun _ => trivial) value
  trusted_helper {_ _ _ value} _ _ := Value.holds_of_forall (fun _ => trivial) value

variable {registry : Registry}

/-- Two courses with one trace, each from its own start and with its own frames. -/
def comparison (trust : Trust registry) (left right : Session)
    (leftStack rightStack : List CallFrame) : Comparison (List Invocation) Session where
  Later trace last := trace <+: last
  Corresponds trace leftNow rightNow :=
    leftNow = left.course leftStack trace ∧ rightNow = right.course rightStack trace
  Trusted := trust.Trusted
  later_refl := List.prefix_refl
  later_trans := List.IsPrefix.trans
  trusted_later := trust.trusted_later
  trusted_empty := trust.trusted_empty
  trusted_append := trust.trusted_append
  trusted_escape := trust.trusted_escape

end Trust

namespace Registry

variable {registry : Registry} {trust : Trust registry} {left right : Session}
  {leftStack rightStack : List CallFrame} {trace : List Invocation}

/-- Computations in a frame match if they do with the frame on top of both stacks, after the
invocation has begun. -/
theorem matches_inFrame {α : Type} {good : List Invocation → α → Prop}
    {computation : Eval Session α} (frame : CallFrame)
    (depths : leftStack.length = rightStack.length)
    (inside : (trust.comparison left right (frame :: leftStack) (frame :: rightStack)).Matches
      (trace ++ [⟨frame, leftStack.length + 1⟩]) good computation) :
    (trust.comparison left right leftStack rightStack).Matches trace good
      (Session.inFrame frame computation) := by
  rintro _ _ ⟨rfl, rfl⟩
  have ofLeft := left.enter_course leftStack trace frame
  have ofRight := right.enter_course rightStack trace frame
  rw [← depths] at ofRight
  obtain ⟨last, later, ⟨leftLast, rightLast⟩, same, yields⟩ := inside _ _ ⟨rfl, rfl⟩
  have begins : trace <+: last := (List.prefix_append trace _).trans later
  refine ⟨last, begins, ⟨?_, ?_⟩, ?_, ?_⟩
  · change ((computation.run ((left.course leftStack trace).enter frame)).2).leave = _
    rw [ofLeft, leftLast, Session.leave_course]
  · change ((computation.run ((right.course rightStack trace).enter frame)).2).leave = _
    rw [ofRight, rightLast, Session.leave_course]
  · change (computation.run ((left.course leftStack trace).enter frame)).1 =
      (computation.run ((right.course rightStack trace).enter frame)).1
    rw [ofLeft, ofRight, same]
  · intro value made
    change (computation.run ((left.course leftStack trace).enter frame)).1 = .ok value at made
    rw [ofLeft] at made
    exact yields value made

/-- Calls of the functions of a session match if invocations do and the innermost frames are
the same. -/
theorem supports_hostOf {invoke : String → List Value → Eval Session Value}
    (innermost : leftStack.head? = rightStack.head?)
    (given : ∀ frame ∈ leftStack.head?, ∀ value ∈ frame.arguments,
      value.Holds (trust.Trusted trace))
    (invokes : ∀ last, trace <+: last → ∀ reference arguments,
      (∀ value ∈ arguments, value.Holds (trust.Trusted last)) →
        (trust.comparison left right leftStack rightStack).Matches last
          (trust.comparison left right leftStack rightStack).Good (invoke reference arguments)) :
    (trust.comparison left right leftStack rightStack).Supports trace
      (registry.hostOf invoke) := by
  intro last later name arguments answer good answers
  have givenAt : ∀ now, last <+: now → ∀ frame ∈ leftStack.head?, ∀ value ∈ frame.arguments,
      value.Holds (trust.Trusted now) := fun now after frame top value member =>
    (given frame top value member).mono (trust.trusted_later (later.trans after))
  have sameParam (now : List Invocation) (index : Int) :
      (right.course rightStack now).param index = (left.course leftStack now).param index :=
    Session.param_eq_of_head
      (show (right.course rightStack now).stack.head? = (left.course leftStack now).stack.head?
        from innermost.symm) index
  have indexed : (trust.comparison left right leftStack rightStack).Matches last
      (fun _ _ => True) (liftExcept (indexArgument name arguments) : Eval Session Int) :=
    matches_liftExcept fun _ _ => trivial
  unfold hostOf at answers
  split at answers
  · obtain rfl := Option.some.inj answers
    split
    · rename_i reference others
      exact invokes last later reference others fun value member =>
        good value (List.mem_cons_of_mem _ member)
    · exact matches_throw _
  · obtain rfl := Option.some.inj answers
    refine matches_bind _ indexed fun now after index _ => ?_
    refine matches_get (pure ((left.course leftStack now).param index)) ?_ ?_
    · rintro _ _ ⟨rfl, rfl⟩
      exact ⟨rfl, by rw [sameParam]⟩
    · exact matches_pure (Session.holds_param (givenAt now after) index)
  · obtain rfl := Option.some.inj answers
    refine matches_bind _ indexed fun now after index _ => ?_
    split
    · rename_i fallback found
      have default : fallback.Holds (trust.Trusted now) :=
        (good fallback (List.mem_of_getElem? found)).mono (trust.trusted_later after)
      refine matches_get (pure ((left.course leftStack now).paramOr index fallback)) ?_ ?_
      · rintro _ _ ⟨rfl, rfl⟩
        exact ⟨rfl, by simp only [Session.paramOr, sameParam]⟩
      · exact matches_pure (Session.holds_paramOr (givenAt now after) default index)
    · exact matches_throw _
  · obtain rfl := Option.some.inj answers
    exact matches_liftExcept fun value made => Value.holds_dict good made
  · obtain ⟨result, called, rfl⟩ := Option.map_eq_some_iff.1 answers
    exact matches_liftExcept fun value made => trust.trusted_helper good (made ▸ called)

/-- A component that is not registered cannot be invoked. -/
theorem invokeWithin_missing {room : Nat} {reference : String} {arguments : List Value}
    (missing : registry.entry? (componentName reference) = none) :
    registry.invokeWithin room reference arguments =
      throw (.componentNotFound (componentName reference)) := by
  unfold invokeWithin
  simp only [missing]

/-- No component can be invoked where no frame may be added. -/
theorem invokeWithin_zero {reference : String} {arguments : List Value} {entry : Registered}
    (found : registry.entry? (componentName reference) = some entry) :
    registry.invokeWithin 0 reference arguments =
      throw (.recursionLimit (componentName reference) registry.options.maxDepth) := by
  unfold invokeWithin
  simp only [found]

/-- An invocation executes the template of its component in a frame. -/
theorem invokeWithin_succ {room : Nat} {reference : String} {arguments : List Value}
    {entry : Registered} (found : registry.entry? (componentName reference) = some entry) :
    registry.invokeWithin (room + 1) reference arguments = (do
      let html ← Session.inFrame ⟨componentName reference, arguments⟩
        (entry.template.execute (Session.dataOf arguments)
          (registry.hostOf (registry.invokeWithin room)))
      return .html html) := by
  rw [invokeWithin]
  simp only [found]

/-- Invocations match, at every depth. -/
theorem matches_invokeWithin (room : Nat) {reference : String} {arguments : List Value}
    (depths : leftStack.length = rightStack.length)
    (good : ∀ value ∈ arguments, value.Holds (trust.Trusted trace)) :
    (trust.comparison left right leftStack rightStack).Matches trace
      (trust.comparison left right leftStack rightStack).Good
      (registry.invokeWithin room reference arguments) := by
  -- The induction is on the frames that may still be added; each invocation puts one on both
  -- stacks, so the stacks stay as deep as each other.
  induction room generalizing leftStack rightStack trace reference arguments with
  | zero =>
    cases found : registry.entry? (componentName reference) with
    | none =>
      rw [invokeWithin_missing found]
      exact matches_throw _
    | some entry =>
      rw [invokeWithin_zero found]
      exact matches_throw _
  | succ room ih =>
    cases found : registry.entry? (componentName reference) with
    | none =>
      rw [invokeWithin_missing found]
      exact matches_throw _
    | some entry =>
      rw [invokeWithin_succ found]
      let frame : CallFrame := ⟨componentName reference, arguments⟩
      let begun : List Invocation := trace ++ [⟨frame, leftStack.length + 1⟩]
      have begins : trace <+: begun := List.prefix_append trace _
      have given : ∀ value ∈ arguments, value.Holds (trust.Trusted begun) :=
        fun value member => (good value member).mono (trust.trusted_later begins)
      have deeper : (frame :: leftStack).length = (frame :: rightStack).length := by
        simp only [List.length_cons, depths]
      have supports : (trust.comparison left right (frame :: leftStack)
          (frame :: rightStack)).Supports begun
            (registry.hostOf (registry.invokeWithin room)) := by
        refine supports_hostOf rfl ?_ fun last _ other values each => ih deeper each
        intro top isTop
        obtain rfl : frame = top := by simpa using isTop
        exact given
      have here : (⟨frame, leftStack.length + 1⟩ : Invocation) ∈ begun :=
        List.mem_append_right trace List.mem_cons_self
      have inside := matches_execute supports (Value.holds_dataOf given)
        (trust.trusted_literal found) (trust.trusted_text here found)
      exact matches_bind _ (matches_inFrame frame depths inside) fun last later html trusted =>
        matches_pure (.html trusted)

/-- Invocations from stacks of one depth match. -/
theorem matches_invoke (depths : leftStack.length = rightStack.length) (reference : String)
    {arguments : List Value} (good : ∀ value ∈ arguments, value.Holds (trust.Trusted trace)) :
    (trust.comparison left right leftStack rightStack).Matches trace
      (trust.comparison left right leftStack rightStack).Good
      (registry.invoke reference arguments) := by
  unfold invoke
  refine matches_get
    (registry.invokeWithin (registry.options.maxDepth - leftStack.length) reference arguments)
    ?_ (matches_invokeWithin _ depths good)
  rintro _ _ ⟨rfl, rfl⟩
  refine ⟨rfl, ?_⟩
  have sameDepth : (right.course rightStack trace).depth = leftStack.length := depths.symm
  rw [sameDepth]

/-- Calls of the functions of a session match, where the stacks have one depth and one
innermost frame. -/
theorem supports_host (depths : leftStack.length = rightStack.length)
    (innermost : leftStack.head? = rightStack.head?)
    (given : ∀ frame ∈ leftStack.head?, ∀ value ∈ frame.arguments,
      value.Holds (trust.Trusted trace)) :
    (trust.comparison left right leftStack rightStack).Supports trace registry.host :=
  supports_hostOf innermost given fun _ _ reference _ good => matches_invoke depths reference good

/-- From sessions of one stack, the execution of a template has one outcome, and the sessions
take the same course, in which its invocations begin and end. -/
theorem execute_courses (registry : Registry) (template : Template) (data : Value)
    {left right : Session} (sameStack : left.stack = right.stack) :
    ((template.execute data registry.host).run left).1 =
        ((template.execute data registry.host).run right).1 ∧
      ∃ trace,
        ((template.execute data registry.host).run left).2 = left.course left.stack trace ∧
        ((template.execute data registry.host).run right).2 = right.course right.stack trace := by
  have trusted : ∀ value : Value, value.Holds ((Trust.all registry).Trusted []) :=
    Value.holds_of_forall fun _ => trivial
  have supports : ((Trust.all registry).comparison left right left.stack right.stack).Supports []
      registry.host :=
    supports_host (congrArg List.length sameStack) (congrArg List.head? sameStack)
      fun _ _ value _ => trusted value
  obtain ⟨trace, -, ⟨ofLeft, ofRight⟩, same, -⟩ :=
    matches_execute supports (trusted data) (fun value _ => trusted value)
      (fun _ _ => trivial) left right ⟨left.course_nil.symm, right.course_nil.symm⟩
  exact ⟨same, trace, ofLeft, ofRight⟩

/-- The execution of a template takes a course, in which its invocations begin and end. -/
theorem execute_course (registry : Registry) (template : Template) (data : Value)
    (session : Session) :
    ∃ trace, ((template.execute data registry.host).run session).2 =
      session.course session.stack trace := by
  obtain ⟨-, trace, course, -⟩ :=
    execute_courses registry template data (show session.stack = session.stack from rfl)
  exact ⟨trace, course⟩

end Registry

end ComponentPages
