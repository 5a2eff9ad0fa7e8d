import FeatureRun.Pattern.CharSet

/-!
Pattern expressions. Alternatives are ordered: the first is preferred. An expression is a sequence
of factors and, seen the other way, a choice between branches.
-/

namespace FeatureRun.Pattern

inductive Look
  | textStart
  | textEnd
  | lineStart
  | lineEnd
  | wordEdge
  | noWordEdge
  deriving DecidableEq, Repr, Inhabited

/-- Whether an assertion holds between two neighbouring characters; the ends of the text have no
neighbour. -/
def Look.holds (before after : Option Char) : Look → Bool
  | .textStart => before.isNone
  | .textEnd => after.isNone
  | .lineStart => before.isNone || before == some '\n'
  | .lineEnd => after.isNone || after == some '\n'
  | .wordEdge => before.any isWordChar != after.any isWordChar
  | .noWordEdge => before.any isWordChar == after.any isWordChar

inductive Expr
  | empty
  | read (s : CharSet)
  | look (l : Look)
  | group (number : Nat) (e : Expr)
  | seq (a b : Expr)
  | alt (a b : Expr)
  | loop (e : Expr) (min : Nat) (max : Option Nat) (greedy : Bool)
  deriving DecidableEq, Repr, Inhabited

namespace Expr

def concat : List Expr → Expr
  | [] => .empty
  | [e] => e
  | e :: rest => .seq e (concat rest)

/-- The parts of an expression that follow one another. -/
def factors : Expr → List Expr
  | .empty => []
  | .seq a b => a.factors ++ b.factors
  | e => [e]

/-- The alternatives of an expression, the preferred one first. -/
def branches : Expr → List Expr
  | .alt a b => a.branches ++ b.branches
  | e => [e]

def ordered : List Expr → Expr
  | [] => .empty
  | [e] => e
  | e :: rest => .alt e (ordered rest)

/-- The longest list that both lists begin with. -/
def sharedStart : List Expr → List Expr → List Expr
  | a :: as, b :: bs => if a = b then a :: sharedStart as bs else []
  | _, _ => []

/-- A choice between expressions. When every branch has several factors, those that all of them
begin with are read once, ahead of the choice. -/
def choice (es : List Expr) : Expr :=
  let parts := (es.flatMap branches).map factors
  let shared := match parts with
    | first :: second :: rest => (second :: rest).foldl sharedStart first
    | _ => []
  if shared.isEmpty || parts.any (·.length < 2) then ordered es
  else
    let rests := parts.map fun p => concat (p.drop shared.length)
    concat (shared ++ [ordered rests])

/-- At least `min` times, and at most `max` times if there is a bound. What is not to be read at
all leaves nothing of itself, its groups included. -/
def times (e : Expr) (min : Nat) (max : Option Nat) (greedy : Bool) : Expr :=
  match min, max with
  | 0, some 0 => .empty
  | 1, some 1 => e
  | _, _ => .loop e min max greedy

/-- Whether every match takes at least one character. -/
def consumes : Expr → Bool
  | .empty => false
  | .read _ => true
  | .look _ => false
  | .group _ e => e.consumes
  | .seq a b => a.consumes || b.consumes
  | .alt a b => a.consumes && b.consumes
  | .loop e min _ _ => 0 < min && e.consumes

/-- The greatest number of a group, or zero if there is none. -/
def lastGroup : Expr → Nat
  | .group n e => max n e.lastGroup
  | .seq a b => max a.lastGroup b.lastGroup
  | .alt a b => max a.lastGroup b.lastGroup
  | .loop e _ _ _ => e.lastGroup
  | _ => 0

end Expr

end FeatureRun.Pattern
