import FeatureRun.Text.Blank

/-!
The margin of a doc string is the white space that starts the first line with other characters in
it, cut down where a later line departs from it. Lines that do not have it become empty.
-/

namespace FeatureRun.DocString

/-- Lines without their ends: a carriage return right before a line feed belongs to the end, and no
line follows the last line feed. -/
def splitLines : List Char → List (List Char)
  | [] => []
  | '\n' :: cs => [] :: splitLines cs
  | '\r' :: '\n' :: cs => [] :: splitLines cs
  | c :: cs =>
    match cs with
    | [] => [[c]]
    | _ =>
      match splitLines cs with
      | [] => [[c]]
      | l :: ls => (c :: l) :: ls

def isBlankLine (l : List Char) : Bool := l.all Text.isBlank

/-- How far a line agrees with a margin, in the shorter of the two; a line that agrees to there
counts in full. -/
def agreement (line margin : List Char) : Nat :=
  let pairs := line.zip margin
  let same := (pairs.takeWhile fun (a, b) => a == b).length
  if same < pairs.length then same else line.length

def narrow (margin line : List Char) : List Char :=
  let w := agreement line margin
  if w < line.length ∧ w < margin.length then margin.take w else margin

/-- The margin of some lines. -/
def margin (ls : List (List Char)) : List Char :=
  match ls.dropWhile isBlankLine with
  | [] => []
  | first :: rest => rest.foldl narrow (first.takeWhile Text.isBlank)

def unindentLine (margin line : List Char) : List Char :=
  if margin.isPrefixOf line && !isBlankLine line then line.drop margin.length else []

/-- A text without its margin. It ends with a line feed if it did before. -/
def unindent (text : List Char) : List Char :=
  let ls := splitLines text
  let out := ls.map (unindentLine (margin ls))
  List.intercalate ['\n'] out ++ if text.getLast? = some '\n' then ['\n'] else []

end FeatureRun.DocString
