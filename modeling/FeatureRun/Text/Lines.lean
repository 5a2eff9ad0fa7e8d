/-!
Lines of a text, which line feeds part, and their indentation. A text always has one line more
than it has line feeds, so an empty text has one line and a trailing line feed starts an empty one.
-/

namespace FeatureRun.Text

def lines : List Char → List (List Char)
  | [] => [[]]
  | c :: cs =>
    if c = '\n' then [] :: lines cs
    else
      match lines cs with
      | [] => [[c]]
      | l :: ls => (c :: l) :: ls

def unlines : List (List Char) → List Char
  | [] => []
  | [l] => l
  | l :: m :: rest => l ++ '\n' :: unlines (m :: rest)

/-- The width of one level of indentation. -/
def indentWidth : Nat := 2

def margin (level : Nat) : List Char := List.replicate (indentWidth * level) ' '

/-- A text with every line moved `level` levels to the right. -/
def indent (text : String) (level : Nat) : String :=
  String.ofList (unlines ((lines text.toList).map (margin level ++ ·)))

theorem lines_ne_nil (cs : List Char) : lines cs ≠ [] := by
  induction cs with
  | nil => simp [lines]
  | cons c cs ih =>
    by_cases h : c = '\n'
    · simp [lines, h]
    · simp only [lines, h, if_false]
      split <;> simp

theorem unlines_lines (cs : List Char) : unlines (lines cs) = cs := by
  induction cs with
  | nil => rfl
  | cons c cs ih =>
    rcases hl : lines cs with _ | ⟨l, ls⟩
    · exact absurd hl (lines_ne_nil cs)
    · rw [hl] at ih
      by_cases h : c = '\n'
      · simp [lines, h, hl, unlines, ih]
      · cases ls with
        | nil => simp_all [lines, unlines]
        | cons m ls => simp_all [lines, unlines]

end FeatureRun.Text
