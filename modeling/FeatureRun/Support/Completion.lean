import FeatureRun.StepResult

/-!
What a step callback does with the completion it is given. The panic of a callback decides the step,
whatever became of the completion. A completion dropped without a signal leaves its step without a
result for ever.
-/

namespace FeatureRun

inductive Signal
  | done
  | fail (reason : String)
  deriving DecidableEq, Repr, Inhabited

def Signal.result : Signal → StepResult
  | .done => .passed
  | .fail reason => .failed (.failed reason)

inductive Handling
  | signalled (s : Signal)
  | kept
  | dropped
  deriving DecidableEq, Repr, Inhabited

structure Reaction where
  handling : Handling
  panic : Option Payload := none
  deriving DecidableEq, Repr, Inhabited

/-- What is known of a step's result. -/
inductive Standing
  | settled (r : StepResult)
  | waiting
  | lost
  deriving DecidableEq, Repr, Inhabited

def Handling.standing : Handling → Standing
  | .signalled s => .settled s.result
  | .kept => .waiting
  | .dropped => .lost

def Reaction.standing (r : Reaction) : Standing :=
  match r.panic with
  | some p => .settled (.failed (.ofPayload p))
  | none => r.handling.standing

def Reaction.keepsCompletion (r : Reaction) : Bool := r.handling == .kept

theorem Reaction.standing_of_panic (r : Reaction) (p : Payload) (h : r.panic = some p) :
    r.standing = .settled (.failed (.ofPayload p)) := by
  simp [Reaction.standing, h]

end FeatureRun
