import FeatureRun.Text.Lines
import FeatureRun.Listener
import FeatureRun.Listener.Styles
import FeatureRun.Overflow

/-!
The outline log: headings of features and scenarios and the steps with their doc strings, indented
by their level. A step is logged when its result is heard.
-/

namespace FeatureRun

structure OutlineLog where
  logs : String := ""
  failed : Bool := false
  currentStep : Option Step := none
  /-- Styles of the terminal that the log is printed to, if there is one. -/
  terminal : Option Styles := none
  /-- Whether every entry is passed to a function. -/
  forwarded : Bool := false
  hooks : Nat := 0
  deriving DecidableEq, Repr, Inhabited

/-- A text to be logged at a level, with the color it has on a terminal. -/
structure OutlineEntry where
  text : String
  level : Nat
  color : Option Color := none
  deriving DecidableEq, Repr, Inhabited

namespace OutlineEntry

def indented (e : OutlineEntry) : String := Text.indent e.text e.level

def ofFeature (f : Feature) : List OutlineEntry :=
  ⟨f.heading, 0, none⟩ :: if f.description.isEmpty then [] else [⟨f.description, 1, none⟩]

def ofScenario (s : Scenario) : List OutlineEntry := [⟨"", 0, none⟩, ⟨s.heading, 1, none⟩]

/-- The line that a doc string stands between. -/
def fence : OutlineEntry := ⟨"\"\"\"", 3, none⟩

def ofStep (s : Step) (r : StepResult) : List OutlineEntry :=
  ⟨s.label, 2, some r.color⟩ ::
    match s.docString with
    | some content => [fence, ⟨content, 3, none⟩, fence]
    | none => []

end OutlineEntry

namespace OutlineLog

def emissions (p : OutlineLog) (e : OutlineEntry) : List Emission :=
  (match p.terminal with
    | some styles => [.printed (styles.paint? e.color e.indented ++ "\n")]
    | none => []) ++
  if p.forwarded then [.linePassed e.indented] else []

def logEntry (e : OutlineEntry) (p : OutlineLog) : Effect Emission OutlineLog :=
  .emit { p with logs := p.logs ++ e.indented ++ "\n" } (p.emissions e)

def logEntries : List OutlineEntry → OutlineLog → Effect Emission OutlineLog
  | [], p => .quiet p
  | e :: rest, p => (p.logEntry e).andThen (logEntries rest)

/-- Logs a text at a level, without color. -/
def log (text : String) (level : Nat) (p : OutlineLog) : Effect Emission OutlineLog :=
  p.logEntry ⟨text, level, none⟩

/-- The same, unless the blanks of that level alone are more than a text can hold. -/
def log? (text : String) (level : Nat) (p : OutlineLog) :
    Except Overflow (Effect Emission OutlineLog) :=
  if Text.indentWidth * level < Overflow.lengthLimit then .ok (p.log text level)
  else .error .capacity

theorem log?_of_level_lt (text : String) (level : Nat) (p : OutlineLog)
    (h : Text.indentWidth * level < Overflow.lengthLimit) :
    p.log? text level = .ok (p.log text level) :=
  if_pos h

def allPassed (p : OutlineLog) : Bool := !p.failed

def take : Notice → OutlineLog → Effect Emission OutlineLog
  | .beforeFeature f, p => logEntries (OutlineEntry.ofFeature f) p
  | .beforeScenario s, p =>
    (Effect.emit p (hookCalls p.hooks s)).andThen (logEntries (OutlineEntry.ofScenario s))
  | .beforeStep s, p => .quiet { p with currentStep := some s }
  | .stepResult r, p =>
    let p := { p with failed := p.failed || !r.isSuccessful }
    match p.currentStep with
    | some s => logEntries (OutlineEntry.ofStep s r) { p with currentStep := none }
    | none => .quiet p
  | _, p => .quiet p

instance : Listener OutlineLog where
  notice := take

end OutlineLog

end FeatureRun
