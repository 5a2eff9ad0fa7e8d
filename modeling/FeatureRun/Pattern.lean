/-!
Patterns, as step definitions carry them. How a pattern finds its matches is left to whoever makes
it: it answers whether a name matches, and, asked for it apart, what the preferred match captures.
-/

namespace FeatureRun

/-- A pattern with a number of groups. The captures of a match are the text of the whole of it and
then that of every group, or nothing for a group that took no part. -/
structure Pattern where
  text : String
  groups : Nat
  isMatch : String → Bool
  captures? : String → Option (List (Option String))
  deriving Inhabited

namespace Pattern

/-- The two questions are answered alike: just a name that matches has captures. -/
def MatchesCaptured (p : Pattern) : Prop :=
  ∀ name, p.isMatch name = true ↔ (p.captures? name).isSome = true

/-- Captures list the whole match and all groups, those that took no part included. -/
def CapturesGroups (p : Pattern) : Prop :=
  ∀ name captures, p.captures? name = some captures → captures.length = p.groups + 1

theorem CapturesGroups.length_groups {p : Pattern} (h : p.CapturesGroups) {name : String}
    {whole : Option String} {groups : List (Option String)}
    (hcaptures : p.captures? name = some (whole :: groups)) : groups.length = p.groups :=
  Nat.succ.inj (h name (whole :: groups) hcaptures)

/-- A name that matches has captures, and the first of them is the whole match. -/
theorem exists_captures {p : Pattern} (hmatch : p.MatchesCaptured) (hgroups : p.CapturesGroups)
    (name : String) (h : p.isMatch name = true) :
    ∃ whole groups, p.captures? name = some (whole :: groups) := by
  obtain ⟨captures, hcaptures⟩ := Option.isSome_iff_exists.mp ((hmatch name).mp h)
  obtain ⟨whole, groups, rfl⟩ :=
    List.exists_cons_of_length_eq_add_one (hgroups name captures hcaptures)
  exact ⟨whole, groups, hcaptures⟩

end Pattern

end FeatureRun
