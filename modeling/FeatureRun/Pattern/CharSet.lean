import FeatureRun.Text.Blank
import FeatureRun.Pattern.Ranges
import FeatureRun.Pattern.Case

namespace FeatureRun.Pattern

inductive CharClass
  | digit
  | word
  | space
  deriving DecidableEq, Repr, Inhabited

def CharClass.contains : CharClass → Char → Bool
  | .digit, c => Text.Ranges.mem c.toNat Ranges.digits
  | .word, c => Text.Ranges.mem c.toNat Ranges.words
  | .space, c => Text.isBlank c

inductive SetItem
  | range (lo hi : Char)
  | oneOf (cls : CharClass) (negated : Bool)
  | among (ranges : List (Char × Char)) (negated : Bool)
  deriving DecidableEq, Repr, Inhabited

def SetItem.contains : SetItem → Char → Bool
  | .range lo hi, c => lo ≤ c && c ≤ hi
  | .oneOf cls negated, c => cls.contains c != negated
  | .among ranges negated, c => (ranges.any fun (lo, hi) => lo ≤ c && c ≤ hi) != negated

/-- The classes of ASCII characters that have a name. -/
def asciiClass? (name : String) : Option (List (Char × Char)) :=
  match name with
  | "alnum" => some [('0', '9'), ('A', 'Z'), ('a', 'z')]
  | "alpha" => some [('A', 'Z'), ('a', 'z')]
  | "ascii" => some [('\x00', '\x7f')]
  | "blank" => some [('\t', '\t'), (' ', ' ')]
  | "cntrl" => some [('\x00', '\x1f'), ('\x7f', '\x7f')]
  | "digit" => some [('0', '9')]
  | "graph" => some [('!', '~')]
  | "lower" => some [('a', 'z')]
  | "print" => some [(' ', '~')]
  | "punct" => some [('!', '/'), (':', '@'), ('[', '`'), ('\x7b', '~')]
  | "space" => some [('\t', '\r'), (' ', ' ')]
  | "upper" => some [('A', 'Z')]
  | "word" => some [('0', '9'), ('A', 'Z'), ('_', '_'), ('a', 'z')]
  | "xdigit" => some [('0', '9'), ('A', 'F'), ('a', 'f')]
  | _ => none

inductive CharSet
  | nothing
  | item (i : SetItem)
  /-- What an item holds, and all case variants of it. -/
  | anyCase (i : SetItem)
  | either (a b : CharSet)
  | both (a b : CharSet)
  | other (s : CharSet)
  deriving DecidableEq, Repr, Inhabited

namespace CharSet

def singleton (c : Char) : CharSet := .item (.range c c)

/-- Every character but the given ones. -/
def allBut (cs : List Char) : CharSet :=
  .other (cs.foldr (fun c s => .either (singleton c) s) .nothing)

def without (a b : CharSet) : CharSet := .both a (.other b)

/-- What is in one of two sets only. -/
def apart (a b : CharSet) : CharSet := .without (.either a b) (.both a b)

/-- The same set, with each of its items ignoring case. -/
def ignoringCase : CharSet → CharSet
  | .nothing => .nothing
  | .item i => .anyCase i
  | .anyCase i => .anyCase i
  | .either a b => .either a.ignoringCase b.ignoringCase
  | .both a b => .both a.ignoringCase b.ignoringCase
  | .other s => .other s.ignoringCase

def contains : CharSet → Char → Bool
  | .nothing, _ => false
  | .item i, c => i.contains c
  | .anyCase i, c =>
    i.contains c || (caseVariants c.toNat).any fun n => i.contains (Char.ofNat n)
  | .either a b, c => a.contains c || b.contains c
  | .both a b, c => a.contains c && b.contains c
  | .other s, c => !(s.contains c)

end CharSet

def isWordChar (c : Char) : Bool := CharClass.word.contains c

end FeatureRun.Pattern
