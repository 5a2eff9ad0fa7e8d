namespace FeatureRun

inductive Overflow
  | sum
  | capacity
  deriving DecidableEq, Repr, Inhabited

namespace Overflow

def message : Overflow → String
  | .sum => "attempt to add with overflow"
  | .capacity => "capacity overflow"

/-- Every number in a counter is below this. -/
def counterLimit : Nat := 0x10000000000000000

/-- The length of every text in octets is below this. -/
def lengthLimit : Nat := 0x8000000000000000

end Overflow

end FeatureRun
