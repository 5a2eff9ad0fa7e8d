import FeatureRun.Agenda

/-!
Visiting the items of a collection one at a time, by the documented contract of such a visit: what
an item is started for is awaited before the next one is started, and the visit is over with its
last item, at once if there is none. An item waits for a gate, which blocks a number of polls, or
for ever.
-/

namespace FeatureRun

universe u

structure Traversal (α : Type u) where
  started : List α := []
  finished : Nat := 0
  deriving Repr, Inhabited

namespace Traversal

inductive Stop (α : Type u)
  | start (item : α)
  | gate (polls : Option Nat)
  | finish
  deriving Repr, Inhabited

variable {α : Type u}

def perform : Stop α → Traversal α → Turn (Stop α) Empty (Traversal α)
  | .start item, t => ⟨{ t with started := t.started ++ [item] }, [], .finished⟩
  | .gate (some 0), t => ⟨t, [], .finished⟩
  | .gate (some (n + 1)), t => ⟨t, [], .blocked (.gate (some n))⟩
  | .gate none, t => ⟨t, [], .blocked (.gate none)⟩
  | .finish, t => ⟨{ t with finished := t.finished + 1 }, [], .finished⟩

/-- The stops of a traversal whose `n`-th item has the `n`-th gate; a gate that is not given is
open. -/
def stops (gates : List (Option Nat)) (items : List α) : List (Stop α) :=
  items.zipIdx.flatMap fun (item, i) =>
    [.start item, .gate (gates[i]?.getD (some 0)), .finish]

/-- Polls at most `n` times, until the traversal is ready, and tells after each poll how far it
has come and whether it is ready. -/
def pollUpTo : Nat → List (Stop α) → Traversal α → List (Traversal α × Bool)
  | 0, _, _ => []
  | n + 1, todo, t =>
    let round := Agenda.resume perform todo t
    match round.ending with
    | .pending todo => (round.world, false) :: pollUpTo n todo round.world
    | _ => [(round.world, true)]

end Traversal

end FeatureRun
