import FeatureRun.Message

namespace FeatureRun

inductive Diagnostic
  | parsedFeature (name : String)
  | parsedScenario (name : String) (line : Nat)
  | registered (pattern : String)
  | libraryDefined (definitions : Nat)
  | starting (features definitions listeners : Nat)
  | broadcasting (m : Message)
  | invoking (pattern step : String) (arguments : Nat)
  | unmatched (step : String) (line : Nat)
  | stepFailed (error : StepError)
  | completionDropped
  | markupUnwritten
  deriving DecidableEq, Repr, Inhabited

namespace Diagnostic

inductive Level
  | trace
  | debug
  | warn
  deriving DecidableEq, Repr, Inhabited

def Level.name : Level → String
  | .trace => "TRACE"
  | .debug => "DEBUG"
  | .warn => "WARN"

inductive Field
  | text (s : String)
  | number (n : Nat)
  deriving DecidableEq, Repr, Inhabited

def level : Diagnostic → Level
  | .registered _ | .invoking .. => .trace
  | .unmatched .. | .stepFailed _ | .completionDropped | .markupUnwritten => .warn
  | _ => .debug

def wording : Diagnostic → String
  | .parsedFeature _ => "parsed feature"
  | .parsedScenario .. => "parsed scenario"
  | .registered _ => "step definition registered"
  | .libraryDefined _ => "support code library defined"
  | .starting .. => "starting run"
  | .broadcasting _ => "broadcasting"
  | .invoking .. => "invoking step definition"
  | .unmatched .. => "no step definition matches"
  | .stepFailed _ => "step failed"
  | .completionDropped => "step completion dropped unsignalled"
  | .markupUnwritten => "failed to write markup"

def fields : Diagnostic → List (String × Field)
  | .parsedFeature name => [("feature", .text name)]
  | .parsedScenario name line => [("scenario", .text name), ("line", .number line)]
  | .registered pattern => [("pattern", .text pattern)]
  | .libraryDefined n => [("step_definitions", .number n)]
  | .starting features definitions listeners =>
    [("features", .number features), ("step_definitions", .number definitions),
      ("listeners", .number listeners)]
  | .broadcasting m => [("event", .text m.label)]
  | .invoking pattern step arguments =>
    [("pattern", .text pattern), ("step", .text step), ("arguments", .number arguments)]
  | .unmatched step line => [("step", .text step), ("line", .number line)]
  | .stepFailed e => [("error", .text e.display)]
  | .completionDropped => []
  | .markupUnwritten => [("error", .text "failed to write whole buffer")]

end Diagnostic

end FeatureRun
