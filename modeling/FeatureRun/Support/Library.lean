import FeatureRun.Support.StepDefinition

/-!
The library of step definitions that support code registers. The role of a definition plays no part
in the look-up.
-/

namespace FeatureRun

inductive StepRole
  | context
  | action
  | outcome
  | any
  deriving DecidableEq, Repr, Inhabited

structure Registration where
  role : StepRole
  definition : StepDefinition

structure Library where
  definitions : List StepDefinition := []

namespace Library

def register (l : Library) (r : Registration) : Library := ⟨l.definitions ++ [r.definition]⟩

def define (code : List Registration) : Library := code.foldl register {}

def lookup? (l : Library) (name : String) : Option StepDefinition :=
  l.definitions.find? (·.isMatch name)

def size (l : Library) : Nat := l.definitions.length

def isEmpty (l : Library) : Bool := l.definitions.isEmpty

theorem definitions_foldl_register (l : Library) (code : List Registration) :
    (code.foldl register l).definitions = l.definitions ++ code.map (·.definition) := by
  induction code generalizing l with
  | nil => simp
  | cons r rest ih => simp [ih, register]

theorem definitions_define (code : List Registration) :
    (define code).definitions = code.map (·.definition) := by
  simp [define, definitions_foldl_register]

end Library

end FeatureRun
