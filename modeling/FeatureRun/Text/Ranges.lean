namespace FeatureRun.Text.Ranges

/-- Membership in ascending ranges; the search ends at the first range that starts later. -/
def mem (n : Nat) : List (Nat × Nat) → Bool
  | [] => false
  | (lo, hi) :: rest => if n < lo then false else if n ≤ hi then true else mem n rest

end FeatureRun.Text.Ranges
