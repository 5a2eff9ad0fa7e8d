import FeatureRun.Walk.Task

/-!
The walk that broadcasts. All listeners hear a message, in the order of their attachment, before the
walk goes on; a listener that panics ends the broadcast.
-/

namespace FeatureRun

universe u

variable {L : Type u} [Listener L]

/-- Hands a message to listeners, the first of which has the given number. -/
def tell (m : Message) : Nat → List L → Effect Occurrence (List L)
  | _, [] => .quiet []
  | i, l :: rest =>
    let heard := Listener.hear m l
    let log := .handed i m :: heard.log.map (.emitted i)
    match heard.panic with
    | some p => ⟨heard.state :: rest, log, some p⟩
    | none =>
      let others := tell m (i + 1) rest
      ⟨heard.state :: others.state, log ++ others.log, others.panic⟩

def broadcast (m : Message) (listeners : List L) : Effect Occurrence (List L) :=
  let told := tell m 0 listeners
  { told with log := .traced (.broadcasting m) :: told.log }

/-- Announces the result of a step, an error being reported first. -/
def announceResult (r : StepResult) (listeners : List L) : Effect Occurrence (List L) :=
  let told := broadcast (.result r) listeners
  match r.error? with
  | some e => { told with log := .traced (.stepFailed e) :: told.log }
  | none => told

/-- The visitor that executes steps by a library and broadcasts to listeners. -/
def Library.visitor (library : Library) : Visitor (List L) where
  enter n := broadcast (.before n.event)
  leave n := broadcast (.after n.event)
  lookup name := (library.lookup? name, [])
  conclude := announceResult

end FeatureRun
