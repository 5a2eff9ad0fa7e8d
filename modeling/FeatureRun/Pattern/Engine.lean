import FeatureRun.Pattern
import FeatureRun.Pattern.Reader
import FeatureRun.Pattern.Search

/-!
Patterns that are searched for by a program. The whole match is group zero of the program, and a
group captures the text between its two marks.
-/

namespace FeatureRun.Pattern

/-- The part of a text between the two ends of a group, once both are marked. -/
def capture (slots : List (Option Nat)) (text : List Char) (group : Nat) : Option String :=
  match slots[beginSlot group]?.join, slots[beginSlot group + 1]?.join with
  | some a, some b => some (String.ofList ((text.drop a).take (b - a)))
  | _, _ => none

def ofProgram (text : String) (groups : Nat) (code : Array Instruction) : Pattern where
  text
  groups
  isMatch name := (search code (2 * (groups + 1)) name.toList).isSome
  captures? name := (search code (2 * (groups + 1)) name.toList).map fun slots =>
    (List.range (groups + 1)).map (capture slots name.toList)

/-- The pattern a text stands for, if it is well formed. -/
def ofText? (text : String) : Option Pattern :=
  (readExpr text).map fun e => ofProgram text e.lastGroup e.program

theorem matchesCaptured_ofProgram (text : String) (groups : Nat) (code : Array Instruction) :
    (ofProgram text groups code).MatchesCaptured := by
  intro name
  rw [ofProgram, Option.isSome_map]

theorem capturesGroups_ofProgram (text : String) (groups : Nat) (code : Array Instruction) :
    (ofProgram text groups code).CapturesGroups := by
  intro name captures h
  obtain ⟨slots, -, rfl⟩ := Option.map_eq_some_iff.mp h
  rw [List.length_map, List.length_range]
  rfl

/-- Every pattern that is written down answers both questions alike and captures all its groups. -/
theorem lawful_of_ofText? {text : String} {p : Pattern} (h : ofText? text = some p) :
    p.MatchesCaptured ∧ p.CapturesGroups := by
  obtain ⟨e, -, rfl⟩ := Option.map_eq_some_iff.mp h
  exact ⟨matchesCaptured_ofProgram text e.lastGroup e.program,
    capturesGroups_ofProgram text e.lastGroup e.program⟩

end FeatureRun.Pattern
