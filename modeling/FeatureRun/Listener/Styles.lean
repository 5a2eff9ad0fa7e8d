import FeatureRun.StepResult

/-!
Terminal styles. Colored text stands between the code of its color and the code that ends all
colors.
-/

namespace FeatureRun

inductive Coloring
  | auto
  | always
  | never
  deriving DecidableEq, Repr, Inhabited

/-- Names of policies are recognised in any mixture of cases. -/
def Coloring.ofText? (s : String) : Option Coloring :=
  match s.toLower with
  | "auto" => some .auto
  | "always" => some .always
  | "never" => some .never
  | _ => none

def Coloring.refusal : String := "possible options: auto, always, never"

def Coloring.enabled (supported : Bool) : Coloring → Bool
  | .auto => supported
  | .always => true
  | .never => false

inductive Color
  | green
  | yellow
  | red
  deriving DecidableEq, Repr, Inhabited

def Color.code : Color → String
  | .green => "\x1b[32m"
  | .yellow => "\x1b[33m"
  | .red => "\x1b[31m"

def Color.reset : String := "\x1b[0m"

/-- The color a result is shown in. -/
def StepResult.color : StepResult → Color
  | .passed => .green
  | .undefined => .yellow
  | .failed _ => .red

structure Styles where
  enabled : Bool
  deriving DecidableEq, Repr, Inhabited

namespace Styles

/-- Styles of a terminal before any policy is applied. -/
def ofTerminal (supported : Bool) : Styles := ⟨supported⟩

def withColoring (supported : Bool) (c : Coloring) (_ : Styles) : Styles := ⟨c.enabled supported⟩

def paint (s : Styles) (c : Color) (text : String) : String :=
  if s.enabled then c.code ++ text ++ Color.reset else text

/-- A text painted in a color, or left plain if none is given. -/
def paint? (s : Styles) (c : Option Color) (text : String) : String :=
  match c with
  | some c => s.paint c text
  | none => text

end Styles

end FeatureRun
