import FeatureRun.Proofs.Script
import FeatureRun.Proofs.Listing
import FeatureRun.Walk.Session

/-!
Plans. Given a ledger of what becomes of kept completions, the script of a list of tasks is known
before anything is performed. Performing the tasks is playing the script, and a ledger that tells
more only goes on with the script from where the other left off.
-/

namespace FeatureRun

universe u

/-- What has become of the completion of each call, if its callback has kept it. -/
abbrev Ledger := Nat → Standing

namespace Ledger

/-- Nothing has become of any completion. -/
def blank : Ledger := fun _ => .waiting

def enter (F : Ledger) (ticket : Nat) (now : Standing) : Ledger :=
  fun t => if t = ticket then now else F t

/-- The second ledger tells whatever the first tells. -/
def Extends (F F' : Ledger) : Prop := ∀ t, F t ≠ .waiting → F' t = F t

theorem Extends.refl (F : Ledger) : F.Extends F := fun _ _ => rfl

theorem Extends.trans {F F' F'' : Ledger} (h : F.Extends F') (h' : F'.Extends F'') :
    F.Extends F'' := by
  intro t ht
  have hF' : F' t = F t := h t ht
  rw [← hF']
  exact h' t (by rwa [hF'])

theorem extends_enter (F : Ledger) (ticket : Nat) (now : Standing) (h : F ticket = .waiting) :
    F.Extends (F.enter ticket now) := by
  intro t ht
  have hne : t ≠ ticket := fun he => ht (he ▸ h)
  exact if_neg hne

end Ledger

/-- How a step stands, once it is known what has become of its completion. -/
def Standing.given (s now : Standing) : Standing :=
  match s with
  | .waiting => now
  | s => s

@[simp] theorem Standing.given_waiting (s : Standing) : s.given .waiting = s := by
  cases s <;> rfl

/-- How a step stands by its definition alone; without one it is undefined. -/
def Library.standing (library : Library) (name : String) (docString : Option String) : Standing :=
  match library.lookup? name with
  | none => .settled .undefined
  | some d => (d.invoke name docString).standing

/-- What one task comes to: its part of the script, the calls it makes, and the task that it is
blocked at, if it is. -/
structure Part where
  cues : List Cue := []
  calls : Nat := 0
  blocked : Option Task := none

namespace Part

/-- A step whose call has the given ticket, as it stands. -/
def conclude (ticket : Nat) : Standing → Part
  | .settled r => { cues := Cue.ofResult r }
  | .waiting => { blocked := some (.await ticket .waiting) }
  | .lost => { cues := [.dropped], blocked := some .stuck }

/-- The part of a task, `c` calls having been made before. A pause is not part of any tree. -/
def ofTask (library : Library) (F : Ledger) (c : Nat) : Task → Part
  | .enter n => { cues := [.announce (.before n.event)] }
  | .leave n => { cues := [.announce (.after n.event)] }
  | .execute s =>
    match library.lookup? s.name with
    | none => { cues := .unmatched s :: Cue.ofResult .undefined }
    | some d =>
      let p := conclude c ((d.invoke s.name s.docString).standing.given (F c))
      { p with cues := .invoke d s :: p.cues, calls := 1 }
  | .await ticket standing => conclude ticket standing
  | .stuck => { blocked := some .stuck }
  | .pause polls => { blocked := some (.pause polls) }

@[simp] theorem conclude_calls (ticket : Nat) (s : Standing) : (conclude ticket s).calls = 0 := by
  cases s <;> rfl

end Part

/-- What a list of tasks comes to: its script, the calls it makes, and the tasks left to do, unless
it comes to its end. -/
structure Plan where
  cues : List Cue := []
  calls : Nat := 0
  todo : Option (List Task) := none

/-- The same plan after other cues and calls. -/
def Plan.after (cues : List Cue) (calls : Nat) (p : Plan) : Plan :=
  { p with cues := cues ++ p.cues, calls := calls + p.calls }

theorem Plan.after_after (a b : List Cue) (m n : Nat) (p : Plan) :
    (p.after b n).after a m = p.after (a ++ b) (m + n) := by
  simp only [Plan.after, List.append_assoc, Nat.add_assoc]

/-- The plan of tasks, `c` calls having been made before. -/
def Library.plan (library : Library) (F : Ledger) : Nat → List Task → Plan
  | _, [] => {}
  | c, t :: rest =>
    let p := Part.ofTask library F c t
    match p.blocked with
    | some t' => { cues := p.cues, calls := p.calls, todo := some (t' :: rest) }
    | none => (library.plan F (c + p.calls) rest).after p.cues p.calls

theorem Library.plan_of_blocked (library : Library) (F : Ledger) (c : Nat) (t t' : Task)
    (rest : List Task) (h : (Part.ofTask library F c t).blocked = some t') :
    library.plan F c (t :: rest) =
      ⟨(Part.ofTask library F c t).cues, (Part.ofTask library F c t).calls, some (t' :: rest)⟩ := by
  rw [Library.plan]
  simp only [h]

theorem Library.plan_of_not_blocked (library : Library) (F : Ledger) (c : Nat) (t : Task)
    (rest : List Task) (h : (Part.ofTask library F c t).blocked = none) :
    library.plan F c (t :: rest) =
      (library.plan F (c + (Part.ofTask library F c t).calls) rest).after
        (Part.ofTask library F c t).cues (Part.ofTask library F c t).calls := by
  rw [Library.plan]
  simp only [h]

section Performing

variable {L : Type u} [Listener L]

theorem play_ofResult (r : StepResult) (ls : List L) :
    play (Cue.ofResult r) ls = announceResult r ls := by
  have hone : play [.announce (.result r)] ls = broadcast (.result r) ls :=
    Effect.andThen_quiet (broadcast (.result r) ls)
  cases he : r.error? with
  | none =>
    have hcues : Cue.ofResult r = [.announce (.result r)] := by simp [Cue.ofResult, he]
    rw [hcues, hone]
    simp only [announceResult, he]
  | some e =>
    have hcues : Cue.ofResult r = [.failure e, .announce (.result r)] := by simp [Cue.ofResult, he]
    rw [hcues, play_silent _ _ _ rfl, hone]
    simp only [announceResult, he]
    rfl

/-- How a turn ends: by a panic, or else blocked or finished. -/
def Part.attempt (p : Part) (panic : Option String) : Attempt Task :=
  match panic with
  | some m => .crashed m
  | none =>
    match p.blocked with
    | some t => .blocked t
    | none => .finished

theorem Desk.settle_eq_conclude (library : Library) (ticket : Nat) (standing : Standing)
    (d : Desk (List L)) :
    d.settle library.visitor ticket standing =
      let p := Part.conclude ticket standing
      let e := play p.cues d.world
      ⟨{ d with world := e.state }, e.log, p.attempt e.panic⟩ := by
  cases standing with
  | settled r =>
    simp only [Desk.settle, Part.conclude, play_ofResult]
    rfl
  | waiting => rfl
  | lost => rfl

/-- Performing a task is playing its part. -/
theorem Desk.perform_eq_part (library : Library) (F : Ledger) (t : Task) (d : Desk (List L))
    (hF : F d.calls = .waiting) (ht : ∀ polls, t ≠ .pause polls) :
    let p := Part.ofTask library F d.calls t
    let e := play p.cues d.world
    ∃ held, Desk.perform library.visitor t d =
      ⟨⟨e.state, d.calls + p.calls, held⟩, e.log, p.attempt e.panic⟩ := by
  have hone (m : Message) : play [.announce m] d.world = broadcast m d.world :=
    Effect.andThen_quiet (broadcast m d.world)
  cases t with
  | enter n =>
    simp only [Part.ofTask, hone]
    exact ⟨d.held, rfl⟩
  | leave n =>
    simp only [Part.ofTask, hone]
    exact ⟨d.held, rfl⟩
  | execute s =>
    cases hl : library.lookup? s.name with
    | none =>
      simp only [Part.ofTask, hl, Desk.perform, Desk.execute, Library.visitor,
        play_silent (.unmatched s) _ _ rfl, play_ofResult]
      exact ⟨d.held, rfl⟩
    | some definition =>
      simp only [Part.ofTask, hl, hF, Standing.given_waiting, Desk.perform, Desk.execute,
        play_silent (.invoke definition s) _ _ rfl]
      have hv : library.visitor.lookup (W := List L) s.name = (some definition, []) := by
        simp only [Library.visitor, hl]
      simp only [hv, Desk.settle_eq_conclude]
      exact ⟨_, rfl⟩
  | await ticket standing =>
    simp only [Part.ofTask, Desk.perform, Desk.settle_eq_conclude, Part.conclude_calls]
    exact ⟨d.held, rfl⟩
  | stuck => exact ⟨d.held, rfl⟩
  | pause polls => exact absurd rfl (ht polls)

/-- How a round ends: by a panic, or else with tasks left, or with none. -/
def Plan.ending (p : Plan) (panic : Option String) : Ending Task :=
  match panic with
  | some m => .crashed m
  | none =>
    match p.todo with
    | some todo => .pending todo
    | none => .ready

/-- Working on tasks is playing their plan. -/
theorem Library.resume_eq_plan (library : Library) (F : Ledger) (tasks : List Task)
    (d : Desk (List L)) (hF : ∀ t, d.calls ≤ t → F t = .waiting)
    (ht : ∀ polls, .pause polls ∉ tasks) :
    let p := library.plan F d.calls tasks
    let e := play p.cues d.world
    let round := Agenda.resume (Desk.perform library.visitor) tasks d
    round.world.world = e.state ∧ round.log = e.log ∧ round.ending = p.ending e.panic ∧
      (e.panic = none → round.world.calls = d.calls + p.calls) := by
  -- the desk is left free, as each task leaves another one to the rest
  induction tasks generalizing d with
  | nil => exact ⟨rfl, rfl, rfl, fun _ => rfl⟩
  | cons t rest ih =>
    have hpause (polls : Option Nat) : t ≠ .pause polls := by
      intro he
      exact ht polls (he ▸ List.mem_cons_self ..)
    obtain ⟨held, hturn⟩ := Desk.perform_eq_part library F t d (hF d.calls (Nat.le_refl _)) hpause
    intro p e
    simp only [Agenda.resume, hturn]
    cases hb : (Part.ofTask library F d.calls t).blocked with
    | some t' =>
      have hp : p = _ := library.plan_of_blocked F d.calls t t' rest hb
      simp only [e, hp, Part.attempt, Plan.ending, hb]
      cases (play (Part.ofTask library F d.calls t).cues d.world).panic <;>
        exact ⟨rfl, rfl, rfl, fun _ => rfl⟩
    | none =>
      have hp : p = _ := library.plan_of_not_blocked F d.calls t rest hb
      simp only [e, hp, Part.attempt, hb, Plan.after]
      cases hpanic : (play (Part.ofTask library F d.calls t).cues d.world).panic with
      | some m =>
        rw [play_append_of_panic _ _ _ m hpanic, hpanic]
        exact ⟨rfl, rfl, rfl, fun h => absurd h (by simp)⟩
      | none =>
        obtain ⟨hworld, hlog, hending, hcalls⟩ := ih
          ⟨(play (Part.ofTask library F d.calls t).cues d.world).state,
            d.calls + (Part.ofTask library F d.calls t).calls, held⟩
          (fun u hu => hF u (Nat.le_trans (Nat.le_add_right _ _) hu))
          (fun polls h => ht polls (List.mem_cons_of_mem _ h))
        rw [play_append_of_no_panic _ _ _ hpanic]
        refine ⟨hworld, congrArg (_ ++ ·) hlog, hending, fun h => ?_⟩
        rw [hcalls h, Nat.add_assoc]

def Ending.outcome : Ending Task → Outcome
  | .ready => .ready
  | .pending _ => .pending
  | .crashed m => .panicked m

def Ending.stage : Ending Task → Stage
  | .ready => .over
  | .pending todo => .underway todo
  | .crashed _ => .over

/-- Polling a run is playing the plan of the tasks left. -/
theorem Session.poll_eq_plan (library : Library) (F : Ledger) (todo : List Task)
    (s : Session (List L)) (hvisitor : s.visitor = library.visitor) (hopening : s.opening = [])
    (hstage : s.stage = .underway todo) (hF : ∀ t, s.desk.calls ≤ t → F t = .waiting)
    (ht : ∀ polls, .pause polls ∉ todo) :
    let p := library.plan F s.desk.calls todo
    let e := play p.cues s.desk.world
    s.poll.outcome = (p.ending e.panic).outcome ∧ s.poll.log = e.log ∧
      s.poll.session.stage = (p.ending e.panic).stage ∧ s.poll.session.desk.world = e.state ∧
      (e.panic = none → s.poll.session.desk.calls = s.desk.calls + p.calls) := by
  obtain ⟨hworld, hlog, hending, hcalls⟩ := library.resume_eq_plan F todo s.desk hF ht
  intro p e
  have hround : p.ending e.panic =
      (Agenda.resume (Desk.perform s.visitor) todo s.desk).ending := by
    rw [hvisitor]
    exact hending.symm
  rw [← hvisitor] at hworld hlog hcalls
  rw [hround]
  simp only [Session.poll, hstage, hopening, List.nil_append]
  cases (Agenda.resume (Desk.perform s.visitor) todo s.desk).ending with
  | ready => exact ⟨rfl, hlog, rfl, hworld, hcalls⟩
  | pending rest => exact ⟨rfl, hlog, rfl, hworld, hcalls⟩
  | crashed m => exact ⟨rfl, hlog, rfl, hworld, hcalls⟩

end Performing

/-- The task as it is to be taken up when the ledger is known. -/
def Task.informed (F : Ledger) : Task → Task
  | .await ticket _ => .await ticket (F ticket)
  | t => t

theorem Task.informed_informed (F F' : Ledger) (t : Task) :
    (t.informed F).informed F' = t.informed F' := by
  cases t <;> rfl

theorem Task.map_informed_map (F F' : Ledger) (tasks : List Task) :
    (tasks.map (Task.informed F)).map (Task.informed F') = tasks.map (Task.informed F') := by
  rw [List.map_map]
  exact List.map_congr_left fun t _ => Task.informed_informed F F' t

/-- A part and the one that its blocked task comes to later. -/
def Part.then (p q : Part) : Part := ⟨p.cues ++ q.cues, p.calls + q.calls, q.blocked⟩

/-- A part of which the blocked task is taken up again when more is known. -/
def Part.resumed (library : Library) (F : Ledger) (c : Nat) (p : Part) : Part :=
  match p.blocked with
  | some t => p.then (ofTask library F (c + p.calls) (t.informed F))
  | none => p

/-- A plan of which the tasks left are taken up again when more is known. -/
def Plan.resumed (library : Library) (F : Ledger) (c : Nat) (p : Plan) : Plan :=
  match p.todo with
  | some todo => (library.plan F (c + p.calls) (todo.map (Task.informed F))).after p.cues p.calls
  | none => p

theorem Plan.resumed_after (library : Library) (F : Ledger) (c : Nat) (cues : List Cue)
    (calls : Nat) (p : Plan) :
    (p.after cues calls).resumed library F c =
      (p.resumed library F (c + calls)).after cues calls := by
  cases h : p.todo with
  | none => simp only [Plan.resumed, Plan.after, h]
  | some todo =>
    have hafter : (p.after cues calls).todo = some todo := h
    simp only [Plan.resumed, hafter, h, Plan.after_after]
    simp only [Plan.after, Nat.add_assoc]

theorem Plan.cues_resumed (library : Library) (F : Ledger) (c : Nat) (p : Plan) :
    ∃ more, (p.resumed library F c).cues = p.cues ++ more := by
  cases h : p.todo with
  | none => exact ⟨[], by simp only [Plan.resumed, h, List.append_nil]⟩
  | some todo =>
    refine ⟨(library.plan F (c + p.calls) (todo.map (Task.informed F))).cues, ?_⟩
    simp only [Plan.resumed, h, Plan.after]

theorem Standing.given_extends (F F' : Ledger) (h : F.Extends F') (s : Standing) (t : Nat) :
    s.given (F' t) = (s.given (F t)).given (F' t) := by
  cases s with
  | settled r => rfl
  | lost => rfl
  | waiting =>
    by_cases hw : F t = .waiting
    · rw [hw, Standing.given_waiting]
    · have hF' : F' t = F t := h t hw
      rw [hF']
      cases F t <;> rfl

theorem Part.conclude_given (library : Library) (F : Ledger) (c t : Nat) (s : Standing) :
    conclude t (s.given (F t)) = (conclude t s).resumed library F c := by
  cases s with
  | settled r => rfl
  | lost => rfl
  | waiting =>
    simp only [Standing.given, conclude, resumed, Part.then, Task.informed, ofTask,
      List.nil_append, Nat.zero_add]

theorem Part.ofTask_extends (library : Library) (F F' : Ledger) (h : F.Extends F') (c : Nat)
    (t : Task) :
    ofTask library F' c (t.informed F') =
      (ofTask library F c (t.informed F)).resumed library F' c := by
  cases t with
  | enter n => rfl
  | leave n => rfl
  | stuck => rfl
  | pause polls => rfl
  | await ticket standing =>
    have hF' : F' ticket = (F ticket).given (F' ticket) :=
      Standing.given_extends F F' h .waiting ticket
    simp only [Task.informed, ofTask]
    rw [hF', conclude_given library]
  | execute s =>
    cases hl : library.lookup? s.name with
    | none => simp only [Task.informed, ofTask, hl, resumed]
    | some d =>
      simp only [Task.informed, ofTask, hl]
      rw [Standing.given_extends F F' h, conclude_given library F' (c + 1)]
      cases (d.invoke s.name s.docString).standing.given (F c) with
      | settled r => rfl
      | waiting =>
        have hcalls : (conclude c (F' c)).calls = 0 := conclude_calls c (F' c)
        simp only [resumed, Part.then, Task.informed, ofTask, List.cons_append, conclude]
        simp only [conclude] at hcalls
        rw [hcalls]
      | lost => rfl

theorem Library.plan_extends (library : Library) (F F' : Ledger) (h : F.Extends F') (c : Nat)
    (tasks : List Task) :
    library.plan F' c (tasks.map (Task.informed F')) =
      (library.plan F c (tasks.map (Task.informed F))).resumed library F' c := by
  induction tasks generalizing c with
  | nil => rfl
  | cons t rest ih =>
    have hpart := Part.ofTask_extends library F F' h c t
    rw [List.map_cons, List.map_cons]
    cases hb : (Part.ofTask library F c (t.informed F)).blocked with
    | none =>
      rw [Part.resumed, hb] at hpart
      rw [library.plan_of_not_blocked F c _ _ hb, Plan.resumed_after, ← ih,
        library.plan_of_not_blocked F' c _ _ (by rw [hpart, hb]), hpart]
    | some t' =>
      rw [Part.resumed, hb] at hpart
      rw [library.plan_of_blocked F c _ t' _ hb]
      simp only [Plan.resumed, List.map_cons, Task.map_informed_map]
      cases hb' : (Part.ofTask library F' (c + (Part.ofTask library F c (t.informed F)).calls)
          (t'.informed F')).blocked with
      | some t'' =>
        rw [library.plan_of_blocked F' _ _ t'' _ hb',
          library.plan_of_blocked F' _ _ t'' _ (by rw [hpart]; exact hb'), hpart]
        rfl
      | none =>
        rw [library.plan_of_not_blocked F' _ _ _ hb',
          library.plan_of_not_blocked F' _ _ _ (by rw [hpart]; exact hb'), hpart,
          Plan.after_after]
        simp only [Part.then, Nat.add_assoc]

/-- A task of a walk that has not been taken up. -/
def Task.Fresh : Task → Prop
  | .enter _ | .leave _ | .execute _ => True
  | _ => False

/-- A task in the form that the ledger gives it. -/
def Task.Current (F : Ledger) (t : Task) : Prop := t.informed F = t ∧ ∀ polls, t ≠ .pause polls

theorem Task.Fresh.current (F : Ledger) (t : Task) (h : t.Fresh) : t.Current F := by
  cases t with
  | enter n => exact ⟨rfl, fun _ => Task.noConfusion⟩
  | leave n => exact ⟨rfl, fun _ => Task.noConfusion⟩
  | execute s => exact ⟨rfl, fun _ => Task.noConfusion⟩
  | await ticket standing => exact h.elim
  | stuck => exact h.elim
  | pause polls => exact h.elim

theorem Task.map_informed_of_current (F : Ledger) (tasks : List Task)
    (h : ∀ t ∈ tasks, t.Current F) : tasks.map (Task.informed F) = tasks := by
  calc tasks.map (Task.informed F) = tasks.map id := List.map_congr_left fun t ht => (h t ht).1
    _ = tasks := List.map_id tasks

theorem Task.map_informed_of_fresh (F : Ledger) (tasks : List Task)
    (h : ∀ t ∈ tasks, t.Fresh) : tasks.map (Task.informed F) = tasks :=
  Task.map_informed_of_current F tasks fun t ht => (h t ht).current F t

/-- Only the first of the tasks left can be one that waits for a completion. -/
theorem Stage.inform_eq_map (F : Ledger) (todo : List Task) (ticket : Nat) (now : Standing)
    (current : ∀ t ∈ todo, t.Current F) (fresh : ∀ t ∈ todo.tail, t.Fresh)
    (hF : F ticket = .waiting) :
    (Stage.underway todo).inform ticket now =
      .underway (todo.map (Task.informed (F.enter ticket now))) := by
  cases todo with
  | nil => rfl
  | cons t rest =>
    rw [List.map_cons, Task.map_informed_of_fresh _ rest fresh]
    cases t with
    | enter n => rfl
    | leave n => rfl
    | execute s => rfl
    | stuck => rfl
    | pause polls => rfl
    | await t standing =>
      have hstanding : F t = standing :=
        (Task.await.inj (current _ (List.mem_cons_self ..)).1).2
      by_cases ht : t = ticket
      · have hwaiting : standing = .waiting := by rw [← hstanding, ht, hF]
        subst hwaiting
        simp only [Stage.inform, Task.informed, Ledger.enter, if_pos ht]
      · simp only [Task.informed, Ledger.enter, if_neg ht, hstanding]
        cases standing with
        | settled r => rfl
        | waiting => simp only [Stage.inform, if_neg ht]
        | lost => rfl

theorem Node.fresh_agenda (n : Node) : ∀ t ∈ n.agenda, t.Fresh := by
  intro t ht
  rw [n.agenda_eq_scenes] at ht
  obtain ⟨scene, _, hscene⟩ := List.mem_flatMap.mp ht
  cases scene with
  | border side b =>
    obtain rfl := List.mem_singleton.mp hscene
    cases side <;> exact trivial
  | step s =>
    have htask : t = .enter (.step s) ∨ t = .execute s ∨ t = .leave (.step s) := by
      simpa [Scene.tasks, Task.ofStep, Task.around] using hscene
    rcases htask with rfl | rfl | rfl <;> exact trivial

theorem Part.blocked_conclude (F : Ledger) (ticket : Nat) (s : Standing) (t : Task)
    (hs : s = .waiting → F ticket = .waiting) (h : (conclude ticket s).blocked = some t) :
    t.Current F := by
  cases s with
  | settled r => exact absurd h (by simp [conclude])
  | waiting =>
    have ht : Task.await ticket .waiting = t := Option.some.inj h
    subst ht
    exact ⟨congrArg _ (hs rfl), fun _ => Task.noConfusion⟩
  | lost =>
    have ht : Task.stuck = t := Option.some.inj h
    subst ht
    exact ⟨rfl, fun _ => Task.noConfusion⟩

/-- What blocks a task of a walk is told by the ledger. -/
theorem Part.blocked_current (library : Library) (F : Ledger) (c : Nat) (t t' : Task)
    (ht : t.Current F) (h : (ofTask library F c t).blocked = some t') : t'.Current F := by
  cases t with
  | enter n => exact absurd h (by simp [ofTask])
  | leave n => exact absurd h (by simp [ofTask])
  | execute s =>
    cases hl : library.lookup? s.name with
    | none => exact absurd h (by simp [ofTask, hl])
    | some d =>
      simp only [ofTask, hl] at h
      apply blocked_conclude F c _ t' _ h
      intro hs
      cases hd : (d.invoke s.name s.docString).standing with
      | settled r => exact absurd hs (by simp [hd, Standing.given])
      | waiting => rwa [hd] at hs
      | lost => exact absurd hs (by simp [hd, Standing.given])
  | await ticket standing =>
    have hF : F ticket = standing := (Task.await.inj ht.1).2
    exact blocked_conclude F ticket standing t' (fun hs => hF.trans hs) h
  | stuck =>
    have hstuck : Task.stuck = t' := Option.some.inj h
    exact hstuck ▸ ht
  | pause polls => exact absurd rfl (ht.2 polls)

theorem Library.plan_todo (library : Library) (F : Ledger) (c : Nat) (tasks todo : List Task)
    (ht : ∀ t ∈ tasks, t.Current F) (h : (library.plan F c tasks).todo = some todo) :
    (∀ t ∈ todo, t.Current F) ∧ todo.tail ⊆ tasks.tail := by
  induction tasks generalizing c with
  | nil => exact absurd h (by simp [Library.plan])
  | cons t rest ih =>
    have hhead : t.Current F := ht t (List.mem_cons_self ..)
    have htail : ∀ u ∈ rest, u.Current F := fun u hu => ht u (List.mem_cons_of_mem _ hu)
    cases hb : (Part.ofTask library F c t).blocked with
    | some t' =>
      rw [library.plan_of_blocked F c t t' rest hb] at h
      have htodo : t' :: rest = todo := Option.some.inj h
      subst htodo
      refine ⟨?_, List.Subset.refl _⟩
      rintro u (_ | ⟨_, hu⟩)
      · exact Part.blocked_current library F c t _ hhead hb
      · exact htail u hu
    | none =>
      rw [library.plan_of_not_blocked F c t rest hb] at h
      obtain ⟨hcurrent, hsub⟩ := ih _ htail h
      exact ⟨hcurrent, fun u hu => List.mem_of_mem_tail (hsub hu)⟩

end FeatureRun
