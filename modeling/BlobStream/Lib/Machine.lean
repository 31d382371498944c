import Mathlib

/-!
# Runs of a guarded machine

A machine is a partial step function `step : State → Action → Option State`; an action that is not
enabled yields `none`. `Reachable step allowed start` collects the states of all runs from `start`
whose steps meet the contract `allowed`, which sees the state before the step and the action.
-/

namespace Machine

variable {State Action : Type*}

/-- States reached from `start` by steps that all meet `allowed`. -/
inductive Reachable (step : State → Action → Option State) (allowed : State → Action → Prop)
    (start : State) : State → Prop
  | refl : Reachable step allowed start start
  | tail {before after : State} {action : Action} :
      Reachable step allowed start before → allowed before action →
      step before action = some after → Reachable step allowed start after

def anyAction (_ : State) (_ : Action) : Prop := True

/-- Execute a list of actions, stopping at the first one that is not enabled. -/
def run (step : State → Action → Option State) : State → List Action → Option State
  | state, [] => some state
  | state, action :: rest => (step state action).bind fun next => run step next rest

/-- Every action of the list meets the contract in the state it is taken in. -/
def RunAllowed (step : State → Action → Option State) (allowed : State → Action → Prop) :
    State → List Action → Prop
  | _, [] => True
  | state, action :: rest =>
    allowed state action ∧
      match step state action with
      | none => True
      | some next => RunAllowed step allowed next rest

instance RunAllowed.decidable (step : State → Action → Option State)
    (allowed : State → Action → Prop) [∀ state action, Decidable (allowed state action)] :
    ∀ state actions, Decidable (RunAllowed step allowed state actions)
  | _, [] => isTrue trivial
  | state, action :: rest =>
    match stepped : step state action with
    | none => decidable_of_iff (allowed state action) (by simp [RunAllowed, stepped])
    | some next =>
      have := RunAllowed.decidable step allowed next rest
      decidable_of_iff (allowed state action ∧ RunAllowed step allowed next rest)
        (by simp [RunAllowed, stepped])

theorem enabled {guard : Prop} [Decidable guard] {next after : State}
    (stepped : (if guard then some next else none) = some after) : guard ∧ next = after := by
  rwa [Option.ite_none_right_eq_some, Option.some.injEq] at stepped

variable {step : State → Action → Option State} {allowed : State → Action → Prop}
variable {start : State} {state : State}

/-- The invariant rule: what holds at the start and is kept by every allowed step holds in every
reachable state. -/
theorem Reachable.invariant {Inv : State → Prop} (initial : Inv start)
    (preserved : ∀ before action after, Inv before → allowed before action →
      step before action = some after → Inv after) (reached : Reachable step allowed start state) :
    Inv state := by
  induction reached with
  | refl => exact initial
  | tail _ meets stepped ih => exact preserved _ _ _ ih meets stepped

/-- The invariant rule for an invariant that needs an already established one. -/
theorem Reachable.invariant_under {Known Inv : State → Prop}
    (known : ∀ state, Reachable step allowed start state → Known state) (initial : Inv start)
    (preserved : ∀ before action after, Known before → Inv before → allowed before action →
      step before action = some after → Inv after) (reached : Reachable step allowed start state) :
    Inv state := by
  induction reached with
  | refl => exact initial
  | tail earlier meets stepped ih => exact preserved _ _ _ (known _ earlier) ih meets stepped

theorem Reachable.trans {start middle last : State} (first : Reachable step allowed start middle)
    (second : Reachable step allowed middle last) : Reachable step allowed start last := by
  induction second with
  | refl => exact first
  | tail _ meets stepped ih => exact ih.tail meets stepped

/-- A run that meets a contract meets every weaker one. -/
theorem Reachable.mono {start state : State} {weaker : State → Action → Prop}
    (implied : ∀ before action, allowed before action → weaker before action)
    (reached : Reachable step allowed start state) : Reachable step weaker start state := by
  induction reached with
  | refl => exact .refl
  | tail _ meets stepped ih => exact ih.tail (implied _ _ meets) stepped

/-- A run that executes and meets the contract ends in a reachable state. -/
theorem reachable_of_run {start last : State} {actions : List Action}
    (meets : RunAllowed step allowed start actions) (executed : run step start actions = some last) :
    Reachable step allowed start last := by
  induction actions generalizing start with
  | nil =>
    cases executed
    exact .refl
  | cons action rest ih =>
    obtain ⟨next, stepped, executed⟩ := Option.bind_eq_some_iff.mp executed
    have first : Reachable step allowed start next := Reachable.refl.tail meets.1 stepped
    have later := meets.2
    rw [stepped] at later
    exact first.trans (ih later executed)

theorem runAllowed_anyAction (step : State → Action → Option State) (start : State)
    (actions : List Action) : RunAllowed step anyAction start actions := by
  induction actions generalizing start with
  | nil => trivial
  | cons action rest ih =>
    refine ⟨trivial, ?_⟩
    split
    · trivial
    · exact ih _

end Machine
