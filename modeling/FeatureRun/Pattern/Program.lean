import FeatureRun.Pattern.Expr

/-!
A pattern expression as a flat list of instructions. A fork tries its first target before its
second. A loop whose body always takes a character comes back to the fork it was entered by; any
other loop has a fork of its own behind the body, so that coming back is never mistaken for coming
in.
-/

namespace FeatureRun.Pattern

inductive Instruction
  | read (s : CharSet)
  | look (l : Look)
  | mark (slot : Nat)
  | fork (first second : Nat)
  | jump (target : Nat)
  | stop
  deriving Repr, Inhabited

/-- The slot a group writes its beginning into. The next one takes its end. -/
def beginSlot (group : Nat) : Nat := 2 * group

/-- A fork between a body and what comes behind it. -/
def Instruction.enter (greedy : Bool) (body behind : Nat) : Instruction :=
  if greedy then .fork body behind else .fork behind body

/-- Code to be placed from a given address on. -/
abbrev Placed := Nat → List Instruction

namespace Placed

def exactly (body : Placed) : Nat → Placed
  | 0, _ => []
  | n + 1, start =>
    let first := body start
    first ++ exactly body n (start + first.length)

/-- At most `n` times, each further time behind the one before. -/
def atMost (body : Placed) (greedy : Bool) : Nat → Placed
  | 0, _ => []
  | n + 1, start =>
    let first := body (start + 1)
    let inner := first ++ atMost body greedy n (start + 1 + first.length)
    .enter greedy (start + 1) (start + 1 + inner.length) :: inner

/-- Once or more; a fork behind the body goes back to its beginning. -/
def onceOrMore (body : Placed) (greedy : Bool) : Placed := fun start =>
  let code := body start
  code ++ [.enter greedy start (start + code.length + 1)]

/-- Any number of times, the fork in front of the body being passed before each of them. -/
def anyNumber (body : Placed) (greedy : Bool) : Placed := fun start =>
  let code := body (start + 1)
  .enter greedy (start + 1) (start + 1 + code.length + 1) :: code ++ [.jump start]

end Placed

namespace Expr

/-- The instructions of an expression, to be placed from address `start` on. -/
def code : Expr → Placed
  | .empty, _ => []
  | .read s, _ => [.read s]
  | .look l, _ => [.look l]
  | .group n e, start =>
    .mark (beginSlot n) :: e.code (start + 1) ++ [.mark (beginSlot n + 1)]
  | .seq a b, start =>
    let first := a.code start
    first ++ b.code (start + first.length)
  | .alt a b, start =>
    let first := a.code (start + 1)
    let middle := start + 1 + first.length + 1
    let second := b.code middle
    .fork (start + 1) middle :: first ++ .jump (middle + second.length) :: second
  | .loop e min (some max) greedy, start =>
    let first := Placed.exactly e.code min start
    first ++ Placed.atMost e.code greedy (max - min) (start + first.length)
  | .loop e 0 none greedy, start =>
    if e.consumes then Placed.anyNumber e.code greedy start
    else Placed.atMost (Placed.onceOrMore e.code greedy) greedy 1 start
  | .loop e (n + 1) none greedy, start =>
    let first := Placed.exactly e.code n start
    first ++ Placed.onceOrMore e.code greedy (start + first.length)

/-- The program of an expression, the whole of which is marked as group zero. -/
def program (e : Expr) : Array Instruction :=
  ((Expr.group 0 e).code 0 ++ [Instruction.stop]).toArray

end Expr

end FeatureRun.Pattern
