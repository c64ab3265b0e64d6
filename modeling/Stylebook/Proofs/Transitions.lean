/-!
Runs of a system whose steps are labelled with events. The events of a run may come in any
order that the steps allow.
-/

namespace Stylebook

variable {State Event : Type}

/-- Any number of steps, one after the other. -/
inductive Transitions (Step : State → Event → State → Prop) :
    State → List Event → State → Prop
  | nil (state : State) : Transitions Step state [] state
  | cons {state middle final : State} {event : Event} {events : List Event} :
      Step state event middle →
      Transitions Step middle events final →
      Transitions Step state (event :: events) final

namespace Transitions

variable {Step : State → Event → State → Prop} {state middle final : State}
  {event : Event} {events later : List Event}

theorem single (step : Step state event final) : Transitions Step state [event] final :=
  .cons step (.nil final)

theorem append (first : Transitions Step state events middle)
    (second : Transitions Step middle later final) :
    Transitions Step state (events ++ later) final := by
  induction first with
  | nil => exact second
  | cons step _ induction => exact .cons step (induction second)

/-- What every step keeps, every run keeps. -/
theorem invariant {Holds : State → Prop}
    (kept : ∀ state event next, Holds state → Step state event next → Holds next)
    (transitions : Transitions Step state events final) (holds : Holds state) : Holds final := by
  induction transitions with
  | nil => exact holds
  | cons step _ induction => exact induction (kept _ _ _ holds step)

end Transitions

end Stylebook
