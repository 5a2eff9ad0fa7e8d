import FeatureRun.Listener.Statistics
import FeatureRun.Listener.Styles

/-!
The progress log: one character for every step result, and a summary once all features have been
walked. On a terminal a chunk that is exactly one of the three characters is colored.
-/

namespace FeatureRun

structure ProgressLog where
  logs : String := ""
  /-- Styles of the terminal that the log is printed to, if there is one. -/
  terminal : Option Styles := none
  statistics : Statistics := {}
  currentStep : Option String := none
  /-- Results other than a pass, each with the label of its step, in the order heard. -/
  problems : List (String × StepResult) := []
  hooks : Nat := 0
  deriving DecidableEq, Repr, Inhabited

/-- The character logged for a result. -/
def StepResult.character : StepResult → String
  | .passed => "."
  | .undefined => "U"
  | .failed _ => "F"

/-- A category of counts, as a summary lists it. -/
def Counts.parts (c : Counts) : List (Nat × String) :=
  [(c.passed, "passed"), (c.undefined, "undefined"), (c.failed, "failed")].filter (0 < ·.1)

/-- Counts in words: the total, and in parentheses the categories that are not empty. -/
def Counts.summary (noun : String) (c : Counts) : String :=
  let plural := if c.total = 1 then "" else "s"
  let head := s!"{c.total} {noun}{plural}"
  match c.parts with
  | [] => head
  | parts => head ++ " (" ++ ", ".intercalate (parts.map fun p => s!"{p.1} {p.2}") ++ ")"

namespace ProgressLog

/-- The color of a chunk on a terminal. -/
def chunkColor : String → Option Color
  | "." => some .green
  | "U" => some .yellow
  | "F" => some .red
  | _ => none

def printed (p : ProgressLog) (chunk : String) : List Emission :=
  match p.terminal with
  | some styles => [.printed (styles.paint? (chunkColor chunk) chunk)]
  | none => []

/-- Logs one chunk as it is. -/
def log (chunk : String) (p : ProgressLog) : Effect Emission ProgressLog :=
  .emit { p with logs := p.logs ++ chunk } (p.printed chunk)

def logAll : List String → ProgressLog → Effect Emission ProgressLog
  | [], p => .quiet p
  | chunk :: rest, p => (p.log chunk).andThen (logAll rest)

theorem logAll_eq (chunks : List String) (p : ProgressLog) :
    logAll chunks p =
      .emit { p with logs := p.logs ++ String.join chunks } (chunks.flatMap p.printed) := by
  induction chunks generalizing p with
  | nil => simp [logAll, Effect.quiet, Effect.emit]
  | cons chunk rest ih =>
    have hone : (p.log chunk).state = { p with logs := p.logs ++ chunk } := rfl
    rw [logAll, Effect.andThen_of_no_panic (p.log chunk) (logAll rest) rfl, hone, ih,
      String.join_cons, ← String.append_assoc, List.flatMap_cons]
    rfl

def failures (p : ProgressLog) : List (String × StepError) :=
  p.problems.filterMap fun (step, r) => r.error?.map (step, ·)

def undefinedSteps (p : ProgressLog) : List String :=
  p.problems.filterMap fun (step, r) => if r.error?.isNone then some step else none

/-- A section of the summary: nothing at all if it has no entries. -/
def listing (title : String) : List String → List String
  | [] => []
  | entries => s!"\n(::) {title} steps (::)\n\n" :: entries

/-- The chunk of a summary that tells how many scenarios and steps there were. -/
def totals (p : ProgressLog) : String :=
  let scenarios := p.statistics.scenarios.summary "scenario"
  let steps := p.statistics.steps.summary "step"
  s!"\n\n{scenarios}\n{steps}\n"

/-- The chunks of a summary that tell of the problems. -/
def sections (p : ProgressLog) : List String :=
  listing "failed" (p.failures.map fun (step, e) => s!"{step}\n  {e.display}\n")
    ++ listing "undefined" (p.undefinedSteps.map fun step => s!"{step}\n")

/-- The chunks of a summary. -/
def summary (p : ProgressLog) : List String := p.totals :: p.sections

/-- Logs a summary. The problems are taken out while the sections that tell of them are logged, and
put back behind. -/
def logSummary (p : ProgressLog) : Effect Emission ProgressLog :=
  (p.log p.totals).andThen fun q =>
    (logAll q.sections { q with problems := [] }).andThen fun r =>
      .quiet { r with problems := q.problems }

/-- Logging a summary is no more than logging its chunks. -/
theorem logSummary_eq (p : ProgressLog) : p.logSummary = logAll p.summary p := by
  have hsections (q : ProgressLog) :
      ((logAll q.sections { q with problems := [] }).andThen fun r =>
        .quiet { r with problems := q.problems }) = logAll q.sections q := by
    rw [logAll_eq, logAll_eq, Effect.andThen_of_no_panic _ _ rfl]
    simp only [Effect.emit, Effect.quiet, List.append_nil]
    rfl
  rw [logSummary, funext hsections]
  rfl

def hasFailed (p : ProgressLog) : Bool := p.statistics.hasFailed

def count (n : Notice) (p : ProgressLog) : ProgressLog :=
  { p with statistics := Statistics.take n p.statistics }

/-- Remembers a result that is no pass under the label of the step heard last. -/
def remember (r : StepResult) (p : ProgressLog) : ProgressLog :=
  if r.isSuccessful then p
  else { p with problems := p.problems ++ [(p.currentStep.getD "", r)] }

def take : Notice → ProgressLog → Effect Emission ProgressLog
  | .afterFeatures, p => p.logSummary
  | .afterFeature f, p => .quiet (p.count (.afterFeature f))
  | .beforeScenario s, p => .emit (p.count (.beforeScenario s)) (hookCalls p.hooks s)
  | .afterScenario s, p => .quiet (p.count (.afterScenario s))
  | .beforeStep s, p => .quiet { p with currentStep := some s.label }
  | .stepResult r, p =>
    ((p.count (.stepResult r)).log r.character).andThen fun p => .quiet (p.remember r)
  | _, p => .quiet p

instance : Listener ProgressLog where
  notice := take

end ProgressLog

end FeatureRun
