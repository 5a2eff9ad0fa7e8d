/-!
A place in a feature text: what is left of it, how much that is, and the line it starts on. What
can be skipped is measured on the characters that are left, and every loop goes on only if the
place moved forward, so it ends.
-/

namespace FeatureRun

structure Cursor where
  rest : List Char
  left : Nat
  line : Nat
  deriving Repr, Inhabited

namespace Cursor

def ofText (cs : List Char) : Cursor := ⟨cs, cs.length, 1⟩

def atEnd (c : Cursor) : Bool := c.rest.isEmpty

def drop (n : Nat) (c : Cursor) : Cursor :=
  ⟨c.rest.drop n, c.left - n, c.line + (c.rest.take n).count '\n'⟩

def isSpace (c : Char) : Bool := c == ' ' || c == '\t'

/-- The length of the line end here: a line feed, perhaps with a carriage return before it. -/
def breakLength : List Char → Nat
  | '\n' :: _ => 1
  | '\r' :: '\n' :: _ => 2
  | _ => 0

def spaceLength (cs : List Char) : Nat := (cs.takeWhile isSpace).length

/-- How many characters come before the next line end that are not `stop`. -/
def lengthTo (stop : Option Char) : Nat → List Char → Nat
  | n, [] => n
  | n, c :: cs =>
    if some c = stop ∨ breakLength (c :: cs) ≠ 0 then n else lengthTo stop (n + 1) cs

def lineLength (cs : List Char) : Nat := lengthTo none 0 cs

/-- The length of a comment up to its line end, the blanks before it included. -/
def commentLength (cs : List Char) : Nat :=
  let n := spaceLength cs
  match cs.drop n with
  | '#' :: rest => n + 1 + lineLength rest
  | _ => 0

/-- The length of a line end, a comment before it included. -/
def newlineLength (cs : List Char) : Nat :=
  let n := commentLength cs
  match breakLength (cs.drop n) with
  | 0 => 0
  | b => n + b

/-- Moves on as long as there is something of the given length here. -/
def skipWhile (length : List Char → Nat) (c : Cursor) : Cursor :=
  let d := c.drop (length c.rest)
  if _h : d.left < c.left then skipWhile length d else c
  termination_by c.left

def spaces (c : Cursor) : Cursor := c.drop (spaceLength c.rest)

def newlines (c : Cursor) : Cursor := c.skipWhile newlineLength

/-- Skips blanks and line ends, but no comments. -/
def blankLines (c : Cursor) : Cursor :=
  c.skipWhile fun cs => if spaceLength cs = 0 then breakLength cs else spaceLength cs

/-- Skips blanks, line ends and comments. -/
def gap (c : Cursor) : Cursor :=
  c.skipWhile fun cs => if newlineLength cs = 0 then spaceLength cs else newlineLength cs

/-- What follows the last thing on a line: at least a blank, a line end or a comment, or the end of
the text. -/
def lineEnd? (c : Cursor) : Option Cursor :=
  let d := c.gap
  if d.left < c.left then some d else if c.atEnd then some c else none

/-- Skips comments, each up to where the next thing starts. -/
def comments (c : Cursor) : Cursor :=
  match commentLength c.rest with
  | 0 => c
  | n =>
    match (c.drop n).lineEnd? with
    | some d => if _h : d.left < c.left then comments d else c
    | none => c
  termination_by c.left

end Cursor

end FeatureRun
