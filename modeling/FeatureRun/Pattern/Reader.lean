import FeatureRun.Pattern.Expr
import FeatureRun.Pattern.Token

/-!
Reading a pattern: tokens become an expression by way of the groups that are still open. Groups
are numbered in the order in which they open. A change of flags lasts until its group closes.
-/

namespace FeatureRun.Pattern

structure Flags where
  ignoreCase : Bool := false
  multiLine : Bool := false
  dotAll : Bool := false
  deriving DecidableEq, Repr, Inhabited

namespace Flags

def set (value : Bool) (f : Flags) : Flag → Flags
  | .ignoreCase => { f with ignoreCase := value }
  | .multiLine => { f with multiLine := value }
  | .dotAll => { f with dotAll := value }

def apply (f : Flags) (c : FlagChange) : Flags :=
  c.off.foldl (set false) (c.on.foldl (set true) f)

end Flags

/-- An open group: its number if it captures, the flags to return to when it closes, its finished
alternatives and the items of the current one, the latest first. -/
structure OpenGroup where
  number : Option Nat
  outer : Flags
  finished : List Expr := []
  items : List Expr := []
  deriving Inhabited

namespace OpenGroup

def addItem (g : OpenGroup) (e : Expr) : OpenGroup := { g with items := e :: g.items }

def endBranch (g : OpenGroup) : OpenGroup :=
  { g with finished := Expr.concat g.items.reverse :: g.finished, items := [] }

def expr (g : OpenGroup) : Expr :=
  let e := Expr.choice g.endBranch.finished.reverse
  match g.number with
  | some n => .group n e
  | none => e

end OpenGroup

structure ReaderState where
  top : OpenGroup
  below : List OpenGroup := []
  flags : Flags := {}
  groups : Nat := 0
  deriving Inhabited

namespace ReaderState

def addItem (s : ReaderState) (e : Expr) : ReaderState := { s with top := s.top.addItem e }

def openGroup (s : ReaderState) (captures : Bool) (change : FlagChange) : ReaderState :=
  { top := { number := if captures then some (s.groups + 1) else none, outer := s.flags }
    below := s.top :: s.below
    flags := s.flags.apply change
    groups := if captures then s.groups + 1 else s.groups }

def closeGroup? (s : ReaderState) : Option ReaderState :=
  match s.below with
  | [] => none
  | g :: rest => some { s with top := g.addItem s.top.expr, below := rest, flags := s.top.outer }

def repeatLast? (s : ReaderState) (min : Nat) (max : Option Nat) (greedy : Bool) :
    Option ReaderState :=
  match s.top.items with
  | [] => none
  | e :: rest => some { s with top := { s.top with items := e.times min max greedy :: rest } }

/-- Reads tokens into the groups that are open; a repetition that a question mark follows is not
greedy. -/
def read : List Token → ReaderState → Option ReaderState
  | [], s => some s
  | .times min max :: .question :: rest, s => do read rest (← s.repeatLast? min max false)
  | .question :: .question :: rest, s => do read rest (← s.repeatLast? 0 (some 1) false)
  | .times min max :: rest, s => do read rest (← s.repeatLast? min max true)
  | .question :: rest, s => do read rest (← s.repeatLast? 0 (some 1) true)
  | .set c :: rest, s =>
    read rest (s.addItem (.read (if s.flags.ignoreCase then c.ignoringCase else c)))
  | .dot :: rest, s =>
    read rest (s.addItem (.read (.allBut (if s.flags.dotAll then [] else ['\n']))))
  | .caret :: rest, s =>
    read rest (s.addItem (.look (if s.flags.multiLine then .lineStart else .textStart)))
  | .dollar :: rest, s =>
    read rest (s.addItem (.look (if s.flags.multiLine then .lineEnd else .textEnd)))
  | .wordEdge negated :: rest, s =>
    read rest (s.addItem (.look (if negated then .noWordEdge else .wordEdge)))
  | .textEdge atEnd :: rest, s =>
    read rest (s.addItem (.look (if atEnd then .textEnd else .textStart)))
  | .openCapture :: rest, s => read rest (s.openGroup true {})
  | .openPlain c :: rest, s => read rest (s.openGroup false c)
  | .change c :: rest, s => read rest { s with flags := s.flags.apply c }
  | .close :: rest, s => do read rest (← s.closeGroup?)
  | .bar :: rest, s => read rest { s with top := s.top.endBranch }

end ReaderState

/-- The expression a pattern is written for. -/
def readExpr (text : String) : Option Expr := do
  let tokens ← Token.scan text.toList
  let s ← ReaderState.read tokens { top := { number := none, outer := {} } }
  if s.below.isEmpty then return s.top.expr else none

end FeatureRun.Pattern
