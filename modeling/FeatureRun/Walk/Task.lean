import FeatureRun.Agenda
import FeatureRun.Walk.Occurrence

/-!
The tasks of a walk. Executing a step ends in its result, or in waiting for the completion its
callback has kept, or, once that is dropped, in waiting for ever.
-/

namespace FeatureRun

universe u

inductive Task
  | enter (n : Node)
  | leave (n : Node)
  | execute (s : Step)
  | await (ticket : Nat) (standing : Standing)
  | stuck
  /-- Blocks a number of times before it finishes, or always. -/
  | pause (polls : Option Nat)
  deriving Repr, Inhabited

namespace Task

/-- The tasks of a node around the tasks of what it holds. -/
def around (n : Node) (inner : List Task) : List Task := .enter n :: inner ++ [.leave n]

def ofStep (s : Step) : List Task := around (.step s) [.execute s]

def ofScenario (s : Scenario) : List Task := around (.scenario s) (s.steps.flatMap ofStep)

def ofFeature (f : Feature) : List Task := around (.feature f) (f.scenarios.flatMap ofScenario)

def ofFeatures (all : List Feature) : List Task := around (.features all) (all.flatMap ofFeature)

end Task

/-- The tasks of walking a node. -/
def Node.agenda : Node → List Task
  | .features all => Task.ofFeatures all
  | .feature f => Task.ofFeature f
  | .scenario s => Task.ofScenario s
  | .step s => Task.ofStep s

structure Visitor (W : Type u) where
  enter : Node → W → Effect Occurrence W
  leave : Node → W → Effect Occurrence W
  /-- The definition a step name is executed by, and what looking it up leaves behind. -/
  lookup : String → Option StepDefinition × List Occurrence
  conclude : StepResult → W → Effect Occurrence W

/-- What a walk works on: the world of its visitor, the number of callbacks called, and the tickets
of the completions that callbacks have kept, the oldest first. Every call has a ticket of its own,
the number of calls before it. -/
structure Desk (W : Type u) where
  world : W
  calls : Nat := 0
  held : List Nat := []
  deriving Repr, Inhabited

abbrev Move (W : Type u) := Turn Task Occurrence (Desk W)

namespace Desk

variable {W : Type u}

/-- A finished task, unless the visitor panicked over it. -/
def finish (d : Desk W) (e : Effect Occurrence W) : Move W :=
  { world := { d with world := e.state }
    log := e.log
    attempt := match e.panic with
      | some m => .crashed m
      | none => .finished }

def block (d : Desk W) (log : List Occurrence) (t : Task) : Move W :=
  { world := d, log, attempt := .blocked t }

/-- Takes up the call with the given ticket as its step stands. -/
def settle (v : Visitor W) (ticket : Nat) (s : Standing) (d : Desk W) : Move W :=
  match s with
  | .settled r => d.finish (v.conclude r d.world)
  | .waiting => d.block [] (.await ticket .waiting)
  | .lost => d.block [.traced .completionDropped] .stuck

/-- The desk after a call that reacted as given. -/
def recordCall (r : Reaction) (d : Desk W) : Desk W :=
  { d with
    calls := d.calls + 1
    held := if r.keepsCompletion then d.held ++ [d.calls] else d.held }

def execute (v : Visitor W) (s : Step) (d : Desk W) : Move W :=
  let (found, looked) := v.lookup s.name
  match found with
  | none =>
    let move := d.finish (v.conclude .undefined d.world)
    { move with log := looked ++ .traced (.unmatched s.name s.line) :: move.log }
  | some definition =>
    let reaction := definition.invoke s.name s.docString
    let move := (d.recordCall reaction).settle v d.calls reaction.standing
    { move with log := looked ++ definition.invokingLog s.name s.docString ++ move.log }

def perform (v : Visitor W) : Task → Desk W → Move W
  | .enter n, d => d.finish (v.enter n d.world)
  | .leave n, d => d.finish (v.leave n d.world)
  | .execute s, d => d.execute v s
  | .await ticket standing, d => d.settle v ticket standing
  | .stuck, d => d.block [] .stuck
  | .pause (some 0), d => d.finish (.quiet d.world)
  | .pause (some (n + 1)), d => d.block [] (.pause (some n))
  | .pause none, d => d.block [] (.pause none)

end Desk

end FeatureRun
