import FeatureRun.Tree

/-!
A tree under construction. Entries are added one at a time, each to the node added last of the
kind that encloses it, and an entry without such a node is an orphan.
-/

namespace FeatureRun

/-- Replaces the last item of a list. -/
def amendLast {α : Type} (f : α → α) : List α → List α
  | [] => []
  | [a] => [f a]
  | a :: b :: rest => a :: amendLast f (b :: rest)

@[simp] theorem amendLast_append_singleton {α : Type} (f : α → α) (xs : List α) (x : α) :
    amendLast f (xs ++ [x]) = xs ++ [f x] := by
  induction xs with
  | nil => rfl
  | cons y ys ih => cases ys <;> simp_all [amendLast]

inductive Entry
  | feature (keyword name description : String)
  | scenario (keyword name : String) (line : Nat)
  | step (keyword name : String) (line : Nat)
  | docString (content : String) (line : Nat)
  deriving DecidableEq, Repr, Inhabited

/-- An entry that had no node to belong to. -/
structure Orphan where
  node : String
  line : Nat
  deriving DecidableEq, Repr, Inhabited

def Orphan.message (o : Orphan) : String :=
  s!"{o.node} at line {o.line} doesn't belong to any parent"

structure Draft where
  features : List Feature := []
  deriving DecidableEq, Repr, Inhabited

namespace Scenario

def addStep (step : Step) (s : Scenario) : Scenario := { s with steps := s.steps ++ [step] }

def lastStep? (s : Scenario) : Option Step := s.steps.getLast?

def amendLastStep (f : Step → Step) (s : Scenario) : Scenario :=
  { s with steps := amendLast f s.steps }

end Scenario

namespace Feature

def addScenario (scenario : Scenario) (f : Feature) : Feature :=
  { f with scenarios := f.scenarios ++ [scenario] }

def lastScenario? (f : Feature) : Option Scenario := f.scenarios.getLast?

def amendLastScenario (g : Scenario → Scenario) (f : Feature) : Feature :=
  { f with scenarios := amendLast g f.scenarios }

end Feature

namespace Draft

def addFeature (f : Feature) (d : Draft) : Draft := ⟨d.features ++ [f]⟩

def extend (fs : List Feature) (d : Draft) : Draft := ⟨d.features ++ fs⟩

def lastFeature? (d : Draft) : Option Feature := d.features.getLast?

def lastScenario? (d : Draft) : Option Scenario := d.lastFeature?.bind Feature.lastScenario?

def lastStep? (d : Draft) : Option Step := d.lastScenario?.bind Scenario.lastStep?

def amendLastFeature (g : Feature → Feature) (d : Draft) : Draft := ⟨amendLast g d.features⟩

/-- The draft with a scenario added to its last feature, if it has one. -/
def addScenario? (s : Scenario) (d : Draft) : Option Draft :=
  d.lastFeature?.map fun _ => d.amendLastFeature (Feature.addScenario s)

/-- The draft with a step added to its last scenario, if it has one. -/
def addStep? (s : Step) (d : Draft) : Option Draft :=
  d.lastScenario?.map fun _ =>
    d.amendLastFeature (Feature.amendLastScenario (Scenario.addStep s))

/-- The draft with a doc string attached to its last step, if it has one. A doc string that was
there already is replaced. -/
def attachDocString? (content : String) (d : Draft) : Option Draft :=
  d.lastStep?.map fun _ =>
    d.amendLastFeature (Feature.amendLastScenario (Scenario.amendLastStep
      fun s => { s with docString := some content }))

/-- What a draft becomes with a change that may have no node to be made to. -/
def orElseOrphan (d : Draft) (node : String) (line : Nat) :
    Option Draft → Draft × Except Orphan Unit
  | some changed => (changed, .ok ())
  | none => (d, .error ⟨node, line⟩)

/-- What a draft becomes with an entry, and whether the entry belongs to a node. -/
def add (d : Draft) : Entry → Draft × Except Orphan Unit
  | .feature keyword name description => (d.addFeature { keyword, name, description }, .ok ())
  | .scenario keyword name line => d.orElseOrphan "Scenario" line (d.addScenario? { keyword, name })
  | .step keyword name line => d.orElseOrphan "Step" line (d.addStep? { keyword, name, line })
  | .docString content line => d.orElseOrphan "DocString" line (d.attachDocString? content)

end Draft

end FeatureRun
