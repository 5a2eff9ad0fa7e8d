import FeatureRun.Tree
import FeatureRun.StepResult

/-!
What is announced during a walk. A message is an event with its timing, and a notice is one of the
nine things a listener can be told directly.
-/

namespace FeatureRun

inductive Event
  | features
  | feature (f : Feature)
  | scenario (s : Scenario)
  | step (s : Step)
  | stepResult (r : StepResult)
  deriving DecidableEq, Repr, Inhabited

inductive Timing
  | before
  | after
  | instant
  deriving DecidableEq, Repr, Inhabited

structure Message where
  timing : Timing
  event : Event
  deriving DecidableEq, Repr, Inhabited

inductive Notice
  | beforeFeatures
  | afterFeatures
  | beforeFeature (f : Feature)
  | afterFeature (f : Feature)
  | beforeScenario (s : Scenario)
  | afterScenario (s : Scenario)
  | beforeStep (s : Step)
  | afterStep (s : Step)
  | stepResult (r : StepResult)
  deriving DecidableEq, Repr, Inhabited

def Event.name : Event → String
  | .features => "Features"
  | .feature _ => "Feature"
  | .scenario _ => "Scenario"
  | .step _ => "Step"
  | .stepResult _ => "StepResult"

/-- What a label starts with. -/
def Timing.lead : Timing → String
  | .before => "Before"
  | .after => "After"
  | .instant => ""

/-- What the name of a listener's method starts with. -/
def Notice.lead : String := "hear"

def Node.event : Node → Event
  | .features _ => .features
  | .feature f => .feature f
  | .scenario s => .scenario s
  | .step s => .step s

namespace Message

def before (e : Event) : Message := ⟨.before, e⟩

def after (e : Event) : Message := ⟨.after, e⟩

def result (r : StepResult) : Message := ⟨.instant, .stepResult r⟩

def label (m : Message) : String := m.timing.lead ++ m.event.name

def method (m : Message) : String := Notice.lead ++ m.label

/-- The notice a message amounts to. A node announced at no definite side is none. -/
def notice? : Message → Option Notice
  | ⟨.before, .features⟩ => some .beforeFeatures
  | ⟨.after, .features⟩ => some .afterFeatures
  | ⟨.before, .feature f⟩ => some (.beforeFeature f)
  | ⟨.after, .feature f⟩ => some (.afterFeature f)
  | ⟨.before, .scenario s⟩ => some (.beforeScenario s)
  | ⟨.after, .scenario s⟩ => some (.afterScenario s)
  | ⟨.before, .step s⟩ => some (.beforeStep s)
  | ⟨.after, .step s⟩ => some (.afterStep s)
  | ⟨_, .stepResult r⟩ => some (.stepResult r)
  | ⟨.instant, _⟩ => none

end Message

/-- The message a walk broadcasts for a notice. -/
def Notice.message : Notice → Message
  | .beforeFeatures => .before .features
  | .afterFeatures => .after .features
  | .beforeFeature f => .before (.feature f)
  | .afterFeature f => .after (.feature f)
  | .beforeScenario s => .before (.scenario s)
  | .afterScenario s => .after (.scenario s)
  | .beforeStep s => .before (.step s)
  | .afterStep s => .after (.step s)
  | .stepResult r => .result r

/-- The name of the listener's method that takes a notice. -/
def Notice.method (n : Notice) : String := n.message.method

end FeatureRun
