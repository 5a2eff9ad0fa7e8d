namespace FeatureRun

inductive StepError
  | panicked (message : String)
  | failed (message : String)
  deriving DecidableEq, Repr, Inhabited

/-- What a panic carries: a text, or something that cannot be shown. -/
inductive Payload
  | text (message : String)
  | other
  deriving DecidableEq, Repr, Inhabited

inductive StepResult
  | passed
  | undefined
  | failed (error : StepError)
  deriving DecidableEq, Repr, Inhabited

namespace StepError

def message : StepError → String
  | .panicked m => m
  | .failed m => m

def display : StepError → String
  | .panicked m => "Step panicked: " ++ m
  | .failed m => "Step failed: " ++ m

def ofPayload : Payload → StepError
  | .text m => .panicked m
  | .other => .panicked "(Could not resolve panic payload)"

end StepError

namespace StepResult

def display : StepResult → String
  | .passed => "passed"
  | .undefined => "undefined"
  | .failed _ => "failed"

def isSuccessful : StepResult → Bool
  | .passed => true
  | _ => false

def isUndefined : StepResult → Bool
  | .undefined => true
  | _ => false

def error? : StepResult → Option StepError
  | .failed e => some e
  | _ => none

theorem error?_eq_some_iff (r : StepResult) (e : StepError) :
    r.error? = some e ↔ r = .failed e := by
  cases r <;> simp [error?]

end StepResult

end FeatureRun
