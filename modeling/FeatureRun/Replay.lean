import FeatureRun.RunError
import FeatureRun.Diagnostic

/-!
From feature texts to a tree. A text is replayed into a draft as entries, its own scenarios first
and then those of its rules, each with the steps of the backgrounds that apply to it in front.
-/

namespace FeatureRun

def dropFirstLineFeed : List Char → List Char
  | '\n' :: cs => cs
  | cs => cs

def dropLastLineFeed (cs : List Char) : List Char :=
  if cs.getLast? = some '\n' then cs.dropLast else cs

/-- The content of a doc string that stands between its delimiters as given. -/
def docStringContent (raw : String) : String :=
  String.ofList (dropLastLineFeed (dropFirstLineFeed raw.toList))

namespace StepText

def entries (s : StepText) : List Entry :=
  .step s.keyword s.value s.line ::
    match s.docString with
    | some raw => [.docString (docStringContent raw) s.line]
    | none => []

end StepText

namespace ScenarioText

/-- The entries of a scenario with the steps of its backgrounds in front. -/
def entries (background : List StepText) (s : ScenarioText) : List Entry :=
  .scenario s.keyword s.name s.line :: (background ++ s.steps).flatMap StepText.entries

end ScenarioText

namespace FeatureText

def backgroundSteps (f : FeatureText) : List StepText := f.background.getD []

def ruleEntries (f : FeatureText) (r : RuleText) : List Entry :=
  r.scenarios.flatMap (ScenarioText.entries (f.backgroundSteps ++ r.background.getD []))

def entries (f : FeatureText) : List Entry :=
  .feature f.keyword f.name (f.description.getD "") ::
    f.scenarios.flatMap (ScenarioText.entries f.backgroundSteps) ++ f.rules.flatMap f.ruleEntries

end FeatureText

/-- What an entry that was added is reported as. -/
def Entry.diagnostics : Entry → List Diagnostic
  | .feature _ name _ => [.parsedFeature name]
  | .scenario _ name line => [.parsedScenario name line]
  | _ => []

namespace Draft

/-- Adds entries in order and stops at the first orphan. -/
def addAll (d : Draft) : List Entry → Except Orphan Draft × List Diagnostic
  | [] => (.ok d, [])
  | e :: rest =>
    match d.add e with
    | (_, .error o) => (.error o, [])
    | (d, .ok ()) =>
      let (result, log) := d.addAll rest
      (result, e.diagnostics ++ log)

def replay (d : Draft) (f : FeatureText) : Except Orphan Draft × List Diagnostic :=
  d.addAll f.entries

/-- Reads texts one after another into a draft, and stops at the first that cannot be read. -/
def readAll (read : String → Except Malformed FeatureText) (d : Draft) :
    List String → Except RunError Draft × List Diagnostic
  | [] => (.ok d, [])
  | source :: rest =>
    match read source with
    | .error cause => (.error (.unreadable cause), [])
    | .ok text =>
      match d.replay text with
      | (.error o, log) => (.error (.orphan o), log)
      | (.ok d, log) =>
        let (result, later) := d.readAll read rest
        (result, log ++ later)

end Draft

/-- The features of all texts in order, or the reason why the first bad one cannot be read. -/
def readFeatures (read : String → Except Malformed FeatureText) (sources : List String) :
    Except RunError (List Feature) × List Diagnostic :=
  let (result, log) := Draft.readAll read {} sources
  (result.map (·.features), log)

end FeatureRun
