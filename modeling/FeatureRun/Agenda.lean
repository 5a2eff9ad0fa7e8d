/-!
An agenda is a list of tasks performed in order. A task finishes, blocks, or crashes. A blocked task
stays at the head of the agenda, in the form in which it is to be taken up again.
-/

namespace FeatureRun

universe u v w

inductive Attempt (T : Type u)
  | finished
  | blocked (t : T)
  | crashed (message : String)
  deriving Inhabited

/-- What performing one task did to the world, and how far it got. -/
structure Turn (T : Type u) (ε : Type v) (W : Type w) where
  world : W
  log : List ε
  attempt : Attempt T

/-- How a round of work ended. -/
inductive Ending (T : Type u)
  | ready
  | pending (todo : List T)
  | crashed (message : String)
  deriving Inhabited

structure Round (T : Type u) (ε : Type v) (W : Type w) where
  world : W
  log : List ε
  ending : Ending T

namespace Agenda

variable {T : Type u} {ε : Type v} {W : Type w}

/-- Performs tasks until the agenda is empty or one of them does not finish. -/
def resume (perform : T → W → Turn T ε W) : List T → W → Round T ε W
  | [], world => ⟨world, [], .ready⟩
  | t :: rest, world =>
    let turn := perform t world
    match turn.attempt with
    | .finished =>
      let round := resume perform rest turn.world
      ⟨round.world, turn.log ++ round.log, round.ending⟩
    | .blocked t' => ⟨turn.world, turn.log, .pending (t' :: rest)⟩
    | .crashed m => ⟨turn.world, turn.log, .crashed m⟩

end Agenda

end FeatureRun
