import FeatureRun.Walk.Broadcast
import FeatureRun.RunError

/-!
A session: a run together with the completions its callbacks have kept. The environment polls the
run, signals or drops kept completions, and may abandon the run. A completion matters only to the
step that waits for it; nothing happens between polls.
-/

namespace FeatureRun

universe u

inductive Stage
  /-- The run cannot be started; the first poll tells why. -/
  | refused (e : RunError)
  | underway (todo : List Task)
  | over
  deriving Repr, Inhabited

/-- Tells the step that waits for a call, if one does, how it stands now. -/
def Stage.inform (ticket : Nat) (now : Standing) : Stage → Stage
  | .underway (.await t .waiting :: rest) =>
    .underway (.await t (if t = ticket then now else .waiting) :: rest)
  | stage => stage

structure Session (W : Type u) where
  visitor : Visitor W
  /-- What the first poll brings about before anything else. -/
  opening : List Occurrence := []
  stage : Stage
  desk : Desk W

inductive Action
  | poll
  | signal (position : Nat) (s : Signal)
  | discard (position : Nat)
  | discardAll
  | abandon
  deriving DecidableEq, Repr, Inhabited

inductive Outcome
  | pending
  | ready
  | refused (e : RunError)
  | panicked (message : String)
  | gone
  | signalled
  | nothingHeld
  | dropped
  deriving DecidableEq, Repr, Inhabited

/-- What an action led to. -/
structure Reply (W : Type u) where
  session : Session W
  outcome : Outcome
  log : List Occurrence

namespace Session

variable {W : Type u}

/-- Goes on with the run as far as it gets. -/
def poll (s : Session W) : Reply W :=
  match s.stage with
  | .refused e => ⟨{ s with opening := [], stage := .over }, .refused e, s.opening⟩
  | .over => ⟨s, .gone, []⟩
  | .underway todo =>
    let round := Agenda.resume (Desk.perform s.visitor) todo s.desk
    let (stage, outcome) : Stage × Outcome := match round.ending with
      | .ready => (.over, .ready)
      | .pending todo => (.underway todo, .pending)
      | .crashed m => (.over, .panicked m)
    ⟨{ s with opening := [], stage, desk := round.world }, outcome, s.opening ++ round.log⟩

/-- Parts with the completion of a call: it is held no longer, and the step that waits for it, if
there is one, now stands as given. -/
def release (ticket : Nat) (now : Standing) (s : Session W) : Session W :=
  { s with
    stage := s.stage.inform ticket now
    desk := { s.desk with held := s.desk.held.erase ticket } }

/-- Parts with the completion at a position among those held. -/
def releaseAt (position : Nat) (now : Standing) (outcome : Outcome) (s : Session W) : Reply W :=
  match s.desk.held[position]? with
  | some ticket => ⟨s.release ticket now, outcome, []⟩
  | none => ⟨s, .nothingHeld, []⟩

def releaseAll (now : Standing) (s : Session W) : Session W :=
  s.desk.held.foldl (fun s ticket => s.release ticket now) s

def act (s : Session W) : Action → Reply W
  | .poll => s.poll
  | .signal position signal => s.releaseAt position (.settled signal.result) .signalled
  | .discard position => s.releaseAt position .lost .dropped
  | .discardAll => ⟨s.releaseAll .lost, .dropped, []⟩
  | .abandon => ⟨{ s with stage := .over }, .dropped, []⟩

/-- The replies to actions taken one after another. -/
def actAll (s : Session W) : List Action → List (Reply W)
  | [] => []
  | a :: rest =>
    let reply := s.act a
    reply :: reply.session.actAll rest

/-- A run that has tasks to perform and nothing to open. -/
def ofTasks (v : Visitor W) (todo : List Task) (world : W) : Session W :=
  { visitor := v, stage := .underway todo, desk := { world } }

/-- The walk of a node that broadcasts to listeners. -/
def ofNode {L : Type u} [Listener L] (library : Library) (n : Node) (listeners : List L) :
    Session (List L) :=
  ofTasks library.visitor n.agenda listeners

end Session

end FeatureRun
