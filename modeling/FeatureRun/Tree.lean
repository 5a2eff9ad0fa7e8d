namespace FeatureRun

structure Step where
  keyword : String
  name : String
  line : Nat
  docString : Option String := none
  deriving DecidableEq, Repr, Inhabited

structure Scenario where
  keyword : String
  name : String
  steps : List Step := []
  deriving DecidableEq, Repr, Inhabited

structure Feature where
  keyword : String
  name : String
  description : String
  scenarios : List Scenario := []
  deriving DecidableEq, Repr, Inhabited

/-- Any part of a tree of specifications, the whole list of features included. -/
inductive Node
  | features (all : List Feature)
  | feature (f : Feature)
  | scenario (s : Scenario)
  | step (s : Step)
  deriving DecidableEq, Repr, Inhabited

/-- The text a step is shown with: its keyword followed by its name. -/
def Step.label (s : Step) : String := s.keyword ++ s.name

/-- The heading a scenario is shown with. -/
def Scenario.heading (s : Scenario) : String := s.keyword ++ ": " ++ s.name

/-- The heading a feature is shown with. -/
def Feature.heading (f : Feature) : String := f.keyword ++ ": " ++ f.name

def Feature.steps (f : Feature) : List Step := f.scenarios.flatMap Scenario.steps

/-- The steps of a node in declaration order. -/
def Node.steps : Node → List Step
  | .features all => all.flatMap Feature.steps
  | .feature f => f.steps
  | .scenario s => s.steps
  | .step s => [s]

/-- The node a path of positions leads to from the whole tree. -/
def Node.follow? (all : List Feature) : List Nat → Option Node
  | [] => some (.features all)
  | [i] => all[i]?.map .feature
  | [i, j] => do return .scenario (← (← all[i]?).scenarios[j]?)
  | [i, j, k] => do return .step (← (← (← all[i]?).scenarios[j]?).steps[k]?)
  | _ => none

end FeatureRun
