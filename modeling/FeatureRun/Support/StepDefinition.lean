import FeatureRun.Pattern
import FeatureRun.Support.Completion

/-!
A step definition: a pattern and the callback for the steps whose name it matches. The label is
what calls of the callback are counted under.
-/

namespace FeatureRun

structure StepDefinition where
  pattern : Pattern
  label : Nat
  callback : List String → Reaction

namespace StepDefinition

def isMatch (d : StepDefinition) (name : String) : Bool := d.pattern.isMatch name

/-- The texts of the groups, an empty one for a group that took no part, and then the doc string.
The whole match is left out, and a name without captures has no arguments but the doc string. -/
def arguments (d : StepDefinition) (name : String) (docString : Option String) : List String :=
  let groups := (d.pattern.captures? name).map fun captures => (captures.drop 1).map (·.getD "")
  groups.getD [] ++ docString.toList

def invoke (d : StepDefinition) (name : String) (docString : Option String) : Reaction :=
  d.callback (d.arguments name docString)

end StepDefinition

end FeatureRun
