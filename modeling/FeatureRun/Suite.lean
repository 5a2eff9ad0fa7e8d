import FeatureRun.Pattern.Engine
import FeatureRun.Replay
import FeatureRun.Text.Quoted
import FeatureRun.Walk.Session

/-!
A suite: feature texts and the support code that defines their steps. Starting it reads all texts,
then runs the support code, then walks the features.
-/

namespace FeatureRun

universe u

structure Suite where
  sources : List String
  supportCode : List Registration

namespace Suite

/-- What starting a suite reports once its features have been read. -/
def startingLog (supportCode : List Registration) (features listeners : Nat) : List Occurrence :=
  .setUp :: Library.definingLog supportCode ++
    [.traced (.starting features (Library.define supportCode).size listeners)]

/-- The run of a suite. All of it, reading the texts included, is left to the first poll. -/
def start {L : Type u} [Listener L] (read : String → Except Malformed FeatureText) (s : Suite)
    (listeners : List L) : Session (List L) :=
  let (result, log) := readFeatures read s.sources
  let library := Library.define s.supportCode
  match result with
  | .error e =>
    { visitor := library.visitor
      opening := log.map .traced
      stage := .refused e
      desk := { world := listeners } }
  | .ok features =>
    { visitor := library.visitor
      opening := log.map .traced ++ startingLog s.supportCode features.length listeners.length
      stage := .underway (Node.features features).agenda
      desk := { world := listeners } }

/-- How a number of listeners is shown. -/
def describeListeners (n : Nat) : String :=
  "Listeners \x7b len: " ++ toString n ++ ", .. \x7d"

/-- How a suite with a number of listeners is shown. -/
def describe (sources : List String) (listeners : Nat) : String :=
  "Cucumber \x7b sources: " ++ Text.quotedList sources ++ ", listeners: "
    ++ describeListeners listeners ++ ", .. \x7d"

end Suite

/-- How a step definition is shown, up to its callback. -/
def Pattern.describe (pattern : String) : String :=
  "StepDefinition \x7b pattern: " ++ Text.quoted pattern

end FeatureRun
