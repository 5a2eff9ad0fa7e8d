namespace FeatureRun

/-- A step with its doc string as it stands between the delimiters. -/
structure StepText where
  keyword : String
  value : String
  line : Nat
  docString : Option String := none
  deriving DecidableEq, Repr, Inhabited

structure ScenarioText where
  keyword : String
  name : String
  line : Nat
  steps : List StepText := []
  deriving DecidableEq, Repr, Inhabited

structure RuleText where
  background : Option (List StepText) := none
  scenarios : List ScenarioText := []
  deriving DecidableEq, Repr, Inhabited

structure FeatureText where
  keyword : String
  name : String
  description : Option String := none
  background : Option (List StepText) := none
  scenarios : List ScenarioText := []
  rules : List RuleText := []
  deriving DecidableEq, Repr, Inhabited

inductive Malformed
  | unexpected (line : Nat)
  | unknownLanguage (name : String)
  | raggedTable (line : Nat)
  deriving DecidableEq, Repr, Inhabited

def Malformed.cause : Malformed → String
  | .unexpected line => s!"unexpected text at line {line}"
  | .unknownLanguage name => s!"unknown language {name}"
  | .raggedTable line => s!"row with too few cells at line {line}"

end FeatureRun
