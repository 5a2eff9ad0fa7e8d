import FeatureRun.Proofs.StaleCompletion

namespace FeatureRun

universe u

namespace Occurrence

/-- The warning of a run, not of a listener, that a completion has been dropped. -/
def warning? : Occurrence → Option Diagnostic
  | .traced .completionDropped => some .completionDropped
  | _ => none

def warnings (log : List Occurrence) : List Diagnostic := log.filterMap warning?

@[simp] theorem warnings_append (a b : List Occurrence) :
    warnings (a ++ b) = warnings a ++ warnings b :=
  List.filterMap_append

end Occurrence

namespace Cue

def warnings (cues : List Cue) : List Diagnostic :=
  cues.flatMap fun c => c.log.filterMap Occurrence.warning?

@[simp] theorem warnings_append (a b : List Cue) : warnings (a ++ b) = warnings a ++ warnings b :=
  List.flatMap_append

@[simp] theorem warnings_ofResult (r : StepResult) : warnings (ofResult r) = [] := by
  cases r <;> rfl

theorem warnings_cons_announce (m : Message) (rest : List Cue) :
    warnings (.announce m :: rest) = warnings rest := rfl

theorem warnings_cons_cue (library : Library) (s : Step) (rest : List Cue) :
    warnings (library.cue s :: rest) = warnings rest := by
  cases h : library.lookup? s.name <;> simp only [Library.cue, h] <;> rfl

theorem warnings_stepCues (library : Library) (s : Step) (r : StepResult) :
    warnings (library.stepCues s r) = [] := by
  rw [Library.stepCues, List.cons_append, List.cons_append, warnings_cons_announce,
    warnings_cons_cue, warnings_append, warnings_ofResult]
  rfl

end Cue

section

variable {L : Type u} [Listener L]

theorem warnings_tell (m : Message) (ls : List L) :
    (tell m 0 ls).log.filterMap Occurrence.warning? = [] :=
  filterMap_tell Occurrence.warning? (fun _ _ => rfl) (fun _ _ => rfl) m 0 ls

theorem warnings_play (cues : List Cue) (ls : List L) (h : (play cues ls).panic = none) :
    Occurrence.warnings (play cues ls).log = Cue.warnings cues :=
  (filterMap_play Occurrence.warning? warnings_tell cues ls).2 h

end

/-- A call leaves its step lost if it has not panicked, and the completion is dropped. -/
theorem Reaction.lost_iff (r : Reaction) (now : Standing) :
    r.standing.given now = .lost ↔ r.panic = none ∧
      match r.handling with
      | .signalled _ => False
      | .kept => now = .lost
      | .dropped => True := by
  rcases r with ⟨handling, _ | p⟩
  · cases handling <;> simp [Reaction.standing, Handling.standing, Standing.given]
  · simp [Reaction.standing, Standing.given]

/-- A completion is lost just by having been dropped. -/
theorem Deed.ledger_eq_lost_iff (deeds : List Deed) (ticket : Nat)
    (honce : (tickets deeds).Nodup) : ledger deeds ticket = .lost ↔ .drop ticket ∈ deeds := by
  constructor
  · intro h
    obtain ⟨d, hmem, hparting⟩ :=
      exists_deed deeds ticket (by rw [h]; exact Standing.noConfusion)
    rw [h] at hparting
    cases d with
    | poll => exact absurd hparting (by simp [parting?])
    | signal t s => exact absurd (Prod.mk.inj (Option.some.inj hparting)).2 Standing.noConfusion
    | drop t =>
      obtain rfl : t = ticket := (Prod.mk.inj (Option.some.inj hparting)).1
      exact hmem
  · exact fun hmem => ledger_of_mem deeds (.drop ticket) ticket .lost honce hmem rfl

namespace Library

/-- The callback of the step with `k` steps before it has been called and has returned without a
panic, and the completion it was given has been dropped, by the callback itself or later. -/
def Forsaken (library : Library) (steps : List Step) (log : List Occurrence) (deeds : List Deed)
    (k : Nat) : Prop :=
  ∃ s d, steps[k]? = some s ∧ library.lookup? s.name = some d ∧
    (Occurrence.calls log)[library.ticket steps k]? =
      some (d, d.arguments s.name s.docString) ∧
    (d.invoke s.name s.docString).panic = none ∧
      match (d.invoke s.name s.docString).handling with
      | .signalled _ => False
      | .kept => .drop (library.ticket steps k) ∈ deeds
      | .dropped => True

variable {library : Library} {steps : List Step} {log : List Occurrence} {deeds : List Deed}
  {k : Nat}

/-- What has been called and dropped stays so. -/
theorem Forsaken.later (h : library.Forsaken steps log deeds k) (log' : List Occurrence)
    (deeds' : List Deed) : library.Forsaken steps (log ++ log') (deeds ++ deeds') k := by
  obtain ⟨s, d, hs, hl, hcall, hpanic, hdropped⟩ := h
  refine ⟨s, d, hs, hl, ?_, hpanic, ?_⟩
  · rw [Occurrence.calls_append, List.getElem?_append_left, hcall]
    exact (List.getElem?_eq_some_iff.mp hcall).1
  · cases hh : (d.invoke s.name s.docString).handling with
    | signalled signal => simp only [hh] at hdropped
    | kept =>
      simp only [hh] at hdropped ⊢
      exact List.mem_append_left _ hdropped
    | dropped => trivial

theorem forsaken_of_prefix {W : Type u} (s : Session W) {run run' : List Action}
    (h : run <+: run') (hk : library.Forsaken steps (s.logAll run) (s.deedsAll run) k) :
    library.Forsaken steps (s.logAll run') (s.deedsAll run') k := by
  obtain ⟨rest, rfl⟩ := h
  rw [s.logAll_append, s.deedsAll_append]
  exact hk.later _ _

variable (library)

/-- The call of a step stands among all calls in the place of its ticket. -/
theorem calls_getElem?_ticket (steps : List Step) (k : Nat) (s : Step) (d : StepDefinition)
    (hs : steps[k]? = some s) (hl : library.lookup? s.name = some d) :
    (library.calls steps)[library.ticket steps k]? = some (d, d.arguments s.name s.docString) := by
  obtain ⟨hlt, hget⟩ := List.getElem?_eq_some_iff.mp hs
  have hsteps : steps = steps.take k ++ s :: steps.drop (k + 1) := by
    rw [← hget, List.getElem_cons_drop, List.take_append_drop]
  have hcalls : library.calls steps =
      library.calls (steps.take k) ++ library.calls (s :: steps.drop (k + 1)) := by
    rw [← library.calls_append, ← hsteps]
  rw [hcalls, ticket, List.getElem?_append_right (Nat.le_refl _), Nat.sub_self, calls_cons,
    library.callsOf_of_lookup s d hl]
  rfl

/-- A step is forsaken if it has been called, and the ledger of the deeds has it lost. -/
theorem forsaken_iff (steps : List Step) (log : List Occurrence) (deeds : List Deed) (k : Nat)
    (honce : (Deed.tickets deeds).Nodup)
    (hcalls : Occurrence.calls log <+: library.calls steps) :
    library.Forsaken steps log deeds k ↔
      (library.standings (Deed.ledger deeds) 0 steps)[k]? = some .lost ∧
        library.ticket steps k < (Occurrence.calls log).length := by
  rw [library.standings_getElem?, Nat.zero_add]
  have hlost (s : Step) (d : StepDefinition) :=
    (d.invoke s.name s.docString).lost_iff (Deed.ledger deeds (library.ticket steps k))
  simp only [Deed.ledger_eq_lost_iff deeds _ honce] at hlost
  constructor
  · rintro ⟨s, d, hs, hl, hcall, hdropped⟩
    refine ⟨?_, (List.getElem?_eq_some_iff.mp hcall).1⟩
    rw [hs, Option.map_some, standing, hl]
    exact congrArg some ((hlost s d).mpr hdropped)
  · rintro ⟨hstanding, hcalled⟩
    obtain ⟨s, hs, hgiven⟩ := Option.map_eq_some_iff.mp hstanding
    cases hl : library.lookup? s.name with
    | none => exact absurd hgiven (by simp [standing, hl, Standing.given])
    | some d =>
      rw [standing, hl] at hgiven
      refine ⟨s, d, hs, hl, ?_, (hlost s d).mp hgiven⟩
      obtain ⟨more, hmore⟩ := hcalls
      rw [← library.calls_getElem?_ticket steps k s d hs hl, ← hmore,
        List.getElem?_append_left hcalled]

variable (F : Ledger)

/-- A plan that is not held up warns of nothing. One that is ends with the call of the first step
that is not settled, and, if that is lost, with a warning, which is the only one. -/
theorem warnings_plan (c : Nat) (scenes : List Scene) :
    let steps := scenes.flatMap Scene.steps
    let first := (library.standings F c steps).findIdx? fun x => !x.isSettled
    let p := library.plan F c (scenes.flatMap Scene.tasks)
    (first = none → Cue.warnings p.cues = []) ∧
    ∀ k, first = some k → ∃ front s x, (library.standings F c steps)[k]? = some x ∧
      p.cues = front ++ library.cue s :: (Part.conclude (c + library.ticket steps k) x).cues ∧
      Cue.warnings front = [] ∧ (Cue.calls front).length = library.ticket steps k := by
  induction scenes generalizing c with
  | nil => exact ⟨fun _ => rfl, fun k h => absurd h (by simp [standings])⟩
  | cons scene rest ih =>
    cases scene with
    | border side b =>
      obtain ⟨hnone, hsome⟩ := ih c
      simp only [List.flatMap_cons, Scene.tasks, Scene.steps, List.singleton_append,
        List.nil_append, library.plan_border]
      refine ⟨hnone, fun k hk => ?_⟩
      obtain ⟨front, s, x, hx, hcues, hwarnings, hcalls⟩ := hsome k hk
      refine ⟨.announce (side.message b.node) :: front, s, x, hx, ?_, hwarnings, hcalls⟩
      rw [Plan.after, hcues]
      rfl
    | step s =>
      simp only [List.flatMap_cons, Scene.tasks, Scene.steps, List.singleton_append, standings,
        List.findIdx?_cons]
      cases hs : ((library.standing s.name s.docString).given (F c)).isSettled with
      | true =>
        obtain ⟨r, hr⟩ := Standing.exists_of_isSettled _ hs
        obtain ⟨hnone, hsome⟩ := ih (c + (library.callsOf s).length)
        simp only [library.plan_step_of_settled F c s r _ hr, Bool.not_true, Bool.false_eq_true,
          if_false, Plan.after, Cue.warnings_append, Cue.warnings_stepCues, List.nil_append]
        refine ⟨fun h => hnone (Option.map_eq_none_iff.mp h), fun k hk => ?_⟩
        obtain ⟨j, hj, rfl⟩ := Option.map_eq_some_iff.mp hk
        obtain ⟨front, t, x, hx, hcues, hwarnings, hcalls⟩ := hsome j hj
        have hticket : library.ticket (s :: rest.flatMap Scene.steps) (j + 1) =
            (library.callsOf s).length + library.ticket (rest.flatMap Scene.steps) j := by
          simp only [ticket, List.take_succ_cons, calls_cons, List.length_append]
        refine ⟨library.stepCues s r ++ front, t, x, hx, ?_, ?_, ?_⟩
        · rw [hcues, hticket, List.append_assoc, Nat.add_assoc]
        · rw [Cue.warnings_append, Cue.warnings_stepCues, hwarnings, List.nil_append]
        · rw [Cue.calls_append, library.calls_stepCues, List.length_append, hcalls, hticket]
      | false =>
        obtain ⟨_, _, t, hblocked, _⟩ := conclude_of_open c _ hs
        simp only [library.plan_step_of_blocked F c s t _ hblocked, Bool.not_false, if_true]
        refine ⟨fun h => absurd h (by simp), fun k hk => ?_⟩
        obtain rfl : 0 = k := Option.some.inj hk
        exact ⟨[.announce (.before (.step s))], s, _, rfl, rfl, rfl, rfl⟩

theorem ticket_mono (steps : List Step) {j k : Nat} (h : j ≤ k) :
    library.ticket steps j ≤ library.ticket steps k := by
  have htake : (steps.take k).take j = steps.take j := by rw [List.take_take, Nat.min_eq_left h]
  have hcalls : library.calls (steps.take k) =
      library.calls (steps.take j) ++ library.calls ((steps.take k).drop j) := by
    rw [← library.calls_append, ← htake, List.take_append_drop]
  rw [ticket, ticket, hcalls, List.length_append]
  exact Nat.le_add_right _ _

/-- A step that is left open has made its call. -/
theorem ticket_lt_of_open (steps : List Step) (k : Nat) (x : Standing)
    (hx : (library.standings F 0 steps)[k]? = some x) (hopen : x.isSettled = false) :
    library.ticket steps k < (library.calls (steps.take (k + 1))).length := by
  rw [library.standings_getElem?] at hx
  obtain ⟨s, hs, rfl⟩ := Option.map_eq_some_iff.mp hx
  obtain ⟨d, hl, _⟩ := library.exists_call_of_open s _ hopen
  rw [List.take_add_one, hs, Option.toList_some, library.calls_append, calls_cons, calls_nil,
    library.callsOf_of_lookup s d hl, List.append_nil, List.length_append, List.length_singleton]
  exact Nat.lt_succ_self _

theorem calls_plan_prefix (n : Node) :
    Cue.calls (library.plan F 0 n.agenda).cues <+: library.calls n.steps := by
  obtain ⟨hnone, hsome⟩ := library.plan_agenda F n
  cases hfirst : (library.standings F 0 n.steps).findIdx? (fun x => !x.isSettled) with
  | none => exact (hnone hfirst).2.2 ▸ List.prefix_refl _
  | some k =>
    rw [(hsome k hfirst).2.2]
    refine ⟨library.calls (n.steps.drop (k + 1)), ?_⟩
    rw [← library.calls_append, List.take_append_drop]

theorem messages_cue_dropped (s : Step) : Cue.messages [library.cue s, .dropped] = [] := by
  rw [Cue.messages_cons, library.message?_cue]
  rfl

/-- Behind the call there is nothing left, or else the warning. -/
theorem split_cue_dropped (s : Step) (past later : List Cue)
    (h : [library.cue s, .dropped] = past ++ later) (hpast : past ≠ []) :
    Cue.messages past = [] ∧ (later = [] ∨ later = [.dropped]) := by
  rcases past with _ | ⟨c, _ | ⟨c', past⟩⟩
  · exact absurd rfl hpast
  · obtain ⟨rfl, rfl⟩ := List.cons.inj h
    refine ⟨?_, Or.inr rfl⟩
    rw [Cue.messages_cons, library.message?_cue]
    rfl
  · obtain ⟨rfl, hrest⟩ := List.cons.inj h
    obtain ⟨rfl, hnil⟩ := List.cons.inj hrest
    obtain ⟨rfl, rfl⟩ := List.append_eq_nil_iff.mp hnil.symm
    exact ⟨library.messages_cue_dropped s, Or.inl rfl⟩

/-- The plan of a tree warns of nothing, or else of a lost step that holds it up. -/
theorem warnings_plan_agenda (n : Node) :
    let p := library.plan F 0 n.agenda
    Cue.warnings p.cues = [] ∨ ∃ k front s,
      (library.standings F 0 n.steps).findIdx? (fun x => !x.isSettled) = some k ∧
      (library.standings F 0 n.steps)[k]? = some .lost ∧
      p.cues = front ++ [library.cue s, .dropped] ∧ Cue.warnings front = [] := by
  obtain ⟨hnone, hsome⟩ := library.warnings_plan F 0 n.scenes
  rw [← n.agenda_eq_scenes, n.flatMap_steps_scenes] at hnone hsome
  cases hfirst : (library.standings F 0 n.steps).findIdx? (fun x => !x.isSettled) with
  | none => exact Or.inl (hnone hfirst)
  | some k =>
    obtain ⟨front, s, x, hx, hcues, hwarnings, _⟩ := hsome k hfirst
    cases x with
    | settled r =>
      obtain ⟨_, hopen, _⟩ := List.findIdx?_eq_some_iff_getElem.mp hfirst
      rw [(List.getElem?_eq_some_iff.mp hx).2] at hopen
      exact absurd hopen (by simp [Standing.isSettled])
    | waiting =>
      refine Or.inl ?_
      rw [hcues, Cue.warnings_append, hwarnings, Cue.warnings_cons_cue]
      rfl
    | lost => exact Or.inr ⟨k, front, s, rfl, hx, hcues, hwarnings⟩

end Library

section

variable {L : Type u} [Listener L]

/-- A script that shows more than its front part, and has no messages behind that, has been played
without a panic. -/
theorem no_panic_of_longer {β : Type} (f : Occurrence → Option β)
    (hf : ∀ m (ls : List L), (tell m 0 ls).log.filterMap f = []) (front tail : List Cue)
    (ls : List L) (htail : Cue.messages tail = [])
    (h : (front.flatMap fun c => c.log.filterMap f).length <
      ((play (front ++ tail) ls).log.filterMap f).length) :
    (play (front ++ tail) ls).panic = none := by
  cases hfront : (play front ls).panic with
  | some p =>
    rw [play_append_of_panic front tail ls p hfront] at h
    have hle := (filterMap_play f hf front ls).1.length_le
    omega
  | none =>
    obtain ⟨_, hquiet, _⟩ := play_of_no_panic tail (play front ls).state
      (fun l _ => by rw [htail]; rfl)
    rw [play_append_of_no_panic front tail ls hfront]
    exact hquiet

variable {library : Library} {n : Node} {listeners : List L} {F : Ledger}
  {log : List Occurrence} {outcomes : List Outcome} {deeds : List Deed} {s : Session (List L)}

/-- A walk that has made more calls than the front part of its plan has played it, and is still
underway in what comes behind, if there are tasks left and no messages. -/
theorem Course.underway_of_called (h : Course library n listeners F log outcomes s)
    (front tail : List Cue) (hcues : (library.plan F 0 n.agenda).cues = front ++ tail)
    (htail : Cue.messages tail = []) (htodo : (library.plan F 0 n.agenda).todo.isSome)
    (hcalled : (Cue.calls front).length < (Occurrence.calls log).length) :
    ∃ todo past later, Underway library n listeners F log s todo (front ++ past) ∧
      tail = past ++ later ∧ past ≠ [] ∧ (library.plan F s.desk.calls todo).cues = later := by
  cases h with
  | ended h =>
    have hlog := h.played F (.refl F)
    have hpanic : (play (library.plan F 0 n.agenda).cues listeners).panic = none := by
      rw [hcues] at hlog ⊢
      apply no_panic_of_longer Occurrence.call? (fun m ls => calls_tell m 0 ls) front tail _ htail
      rw [flatMap_calls_log, hlog]
      exact hcalled
    rw [(h.ready F (.refl F) hpanic).1] at htodo
    exact absurd htodo (by simp)
  | underway todo told h =>
    have htold := calls_play told listeners (by rw [h.played])
    rw [h.played] at htold
    have hplan : told ++ (library.plan F s.desk.calls todo).cues = front ++ tail := by
      rw [← hcues, h.plan_now]
      rfl
    rcases List.append_eq_append_iff.mp hplan with ⟨rest, hfront, _⟩ | ⟨past, hpast, hlater⟩
    · have hle : (Cue.calls told).length ≤ (Cue.calls front).length := by
        rw [hfront, Cue.calls_append, List.length_append]
        exact Nat.le_add_right _ _
      rw [htold] at hcalled
      omega
    · subst hpast
      refine ⟨todo, past, _, h, hlater, ?_, rfl⟩
      rintro rfl
      rw [htold, List.append_nil] at hcalled
      omega

namespace Sound

theorem calls_prefix (h : Sound library n listeners log outcomes deeds s) :
    Occurrence.calls log <+: Cue.calls (library.plan (Deed.ledger deeds) 0 n.agenda).cues := by
  rw [← flatMap_calls_log]
  exact h.course.filterMap_prefix Occurrence.call? fun m ls => calls_tell m 0 ls

theorem forsaken_iff (h : Sound library n listeners log outcomes deeds s) (k : Nat) :
    library.Forsaken n.steps log deeds k ↔
      (library.standings (Deed.ledger deeds) 0 n.steps)[k]? = some .lost ∧
        library.ticket n.steps k < (Occurrence.calls log).length :=
  library.forsaken_iff n.steps log deeds k h.once
    (h.calls_prefix.trans (library.calls_plan_prefix _ n))

/-- A forsaken step is the first that is not settled, so there is no other. -/
theorem findIdx?_of_forsaken (h : Sound library n listeners log outcomes deeds s) (k : Nat)
    (hk : library.Forsaken n.steps log deeds k) :
    (library.standings (Deed.ledger deeds) 0 n.steps).findIdx? (fun x => !x.isSettled) =
      some k := by
  obtain ⟨hlost, hcalled⟩ := (h.forsaken_iff k).mp hk
  obtain ⟨hlt, hget⟩ := List.getElem?_eq_some_iff.mp hlost
  cases hfirst : (library.standings (Deed.ledger deeds) 0 n.steps).findIdx?
      (fun x => !x.isSettled) with
  | none =>
    have hall := List.findIdx?_eq_none_iff.mp hfirst _ (List.mem_of_getElem? hlost)
    exact absurd hall (by simp [Standing.isSettled])
  | some j =>
    obtain ⟨_, _, hbefore⟩ := List.findIdx?_eq_some_iff_getElem.mp hfirst
    have hle : j ≤ k := by
      by_contra hlt'
      have hsettled := hbefore k (by omega)
      rw [hget] at hsettled
      exact hsettled rfl
    have hge : k ≤ j := by
      by_contra hlt'
      have hmade := h.calls_prefix.length_le
      rw [((library.plan_agenda (Deed.ledger deeds) n).2 j hfirst).2.2] at hmade
      have hmono : library.ticket n.steps (j + 1) ≤ library.ticket n.steps k :=
        library.ticket_mono n.steps (by omega)
      rw [Library.ticket] at hmono
      omega
    rw [Nat.le_antisymm hle hge]

theorem forsaken_unique (h : Sound library n listeners log outcomes deeds s) (j k : Nat)
    (hj : library.Forsaken n.steps log deeds j) (hk : library.Forsaken n.steps log deeds k) :
    j = k :=
  Option.some.inj ((h.findIdx?_of_forsaken j hj).symm.trans (h.findIdx?_of_forsaken k hk))

/-- What the plan of a walk is like that a dropped completion holds up. -/
theorem plan_of_forsaken (h : Sound library n listeners log outcomes deeds s) (k : Nat)
    (hk : library.Forsaken n.steps log deeds k) :
    let p := library.plan (Deed.ledger deeds) 0 n.agenda
    p.todo.isSome ∧
      Cue.messages p.cues =
        Message.upToStep k (n.listing (library.outcomes (Deed.ledger deeds) n.steps)) ∧
      ∃ front t, p.cues = front ++ [library.cue t, .dropped] ∧ Cue.warnings front = [] ∧
        (Cue.calls front).length = library.ticket n.steps k := by
  have hfirst := h.findIdx?_of_forsaken k hk
  obtain ⟨htodo, hmessages, _⟩ := (library.plan_agenda (Deed.ledger deeds) n).2 k hfirst
  have hplan := (library.warnings_plan (Deed.ledger deeds) 0 n.scenes).2 k
  rw [n.flatMap_steps_scenes, ← n.agenda_eq_scenes] at hplan
  obtain ⟨front, t, x, hx, hcues, hwarnings, hcalls⟩ := hplan hfirst
  obtain rfl : .lost = x := Option.some.inj (((h.forsaken_iff k).mp hk).1.symm.trans hx)
  exact ⟨htodo, hmessages, front, t, hcues, hwarnings, hcalls⟩

/-- The next poll of a walk with a forsaken step comes to no more than the warning. -/
theorem poll_of_forsaken (h : Sound library n listeners log outcomes deeds s) (k : Nat)
    (hk : library.Forsaken n.steps log deeds k) :
    Occurrence.messages log =
        Message.upToStep k (n.listing (library.outcomes (Deed.ledger deeds) n.steps)) ∧
      s.desk.world =
        listeners.map (fun l => (Listener.hearAll (Occurrence.messages log) l).state) ∧
      s.poll.outcome = .pending ∧ ∀ o ∈ s.poll.log, o = .traced .completionDropped := by
  obtain ⟨htodo, hmessages, front, t, hcues, _, hcalls⟩ := h.plan_of_forsaken k hk
  have hsilent := library.messages_cue_dropped t
  obtain ⟨todo, past, later, hunderway, hsplit, hpast, hlater⟩ :=
    h.course.underway_of_called front [library.cue t, .dropped] hcues hsilent htodo
      (by rw [hcalls]; exact ((h.forsaken_iff k).mp hk).2)
  obtain ⟨hpastSilent, hpoll⟩ := library.split_cue_dropped t past later hsplit hpast
  have htold : (play (front ++ past) listeners).panic = none := by rw [hunderway.played]
  have hlog : Occurrence.messages log = Cue.messages (front ++ past) := by
    have hplayed := messages_play (front ++ past) listeners htold
    rwa [hunderway.played] at hplayed
  have hworld := (play_of_no_panic (front ++ past) listeners
    (no_panic_of_play (front ++ past) listeners htold)).1
  rw [hunderway.played] at hworld
  obtain ⟨houtcome, hpolled, _⟩ := Session.poll_eq_plan library (Deed.ledger deeds) todo s h.visitor
    h.opening hunderway.stage h.ledger_fresh hunderway.no_pause
  have hleft : (library.plan (Deed.ledger deeds) s.desk.calls todo).todo.isSome := by
    rwa [hunderway.plan_now] at htodo
  obtain ⟨left, hleft⟩ := Option.isSome_iff_exists.mp hleft
  refine ⟨?_, by rw [hlog]; exact hworld, ?_, ?_⟩
  · rw [hlog, ← hmessages, hcues, Cue.messages_append, Cue.messages_append, hpastSilent, hsilent]
  · rw [houtcome, hlater]
    rcases hpoll with rfl | rfl <;> simp only [Plan.ending, hleft] <;> rfl
  · rw [hpolled, hlater]
    intro o ho
    rcases hpoll with rfl | rfl
    · exact absurd ho (by simp [Effect.quiet])
    · exact List.mem_singleton.mp ho

/-- A poll that leaves a step forsaken has warned of it, or an earlier one has. -/
theorem warnings_of_forsaken (h : Sound library n listeners log outcomes deeds s) (k : Nat)
    (hk : library.Forsaken n.steps (log ++ s.poll.log) (deeds ++ [.poll]) k) :
    Occurrence.warnings (log ++ s.poll.log) = [.completionDropped] := by
  have hcalled := ((h.poll.forsaken_iff k).mp hk).2
  obtain ⟨_, _, front, t, hcues, hwarnings, hcalls⟩ := h.poll.plan_of_forsaken k hk
  rw [Deed.ledger_append_poll] at hcues
  have hsilent := library.messages_cue_dropped t
  obtain ⟨hlog, _⟩ := h.course.poll_outcome h.visitor h.opening h.ledger_fresh
  rw [hcues] at hlog
  have hpanic := no_panic_of_longer Occurrence.call? (fun m ls => calls_tell m 0 ls) front
    [library.cue t, .dropped] listeners hsilent
    (by rw [flatMap_calls_log, ← hlog, hcalls]; exact hcalled)
  rw [hlog, warnings_play _ _ hpanic, Cue.warnings_append, hwarnings, Cue.warnings_cons_cue]
  rfl

theorem length_warnings_le (h : Sound library n listeners log outcomes deeds s) :
    (Occurrence.warnings log).length ≤ 1 := by
  have hle : (Occurrence.warnings log).length ≤
      (Cue.warnings (library.plan (Deed.ledger deeds) 0 n.agenda).cues).length :=
    (h.course.filterMap_prefix Occurrence.warning? warnings_tell).length_le
  refine Nat.le_trans hle ?_
  rcases library.warnings_plan_agenda (Deed.ledger deeds) n with
    hnone | ⟨k, front, t, _, _, hcues, hwarnings⟩
  · rw [hnone]
    exact Nat.zero_le 1
  · rw [hcues, Cue.warnings_append, hwarnings, Cue.warnings_cons_cue]
    exact Nat.le_refl 1

/-- A poll warns only if it finds a step forsaken. -/
theorem exists_forsaken_of_poll (h : Sound library n listeners log outcomes deeds s)
    (hw : Occurrence.warnings (log ++ s.poll.log) ≠ []) :
    ∃ k, library.Forsaken n.steps (log ++ s.poll.log) (deeds ++ [.poll]) k := by
  obtain ⟨hlog, _⟩ := h.course.poll_outcome h.visitor h.opening h.ledger_fresh
  rcases library.warnings_plan_agenda (Deed.ledger deeds) n with
    hnone | ⟨k, front, t, hfirst, hlost, hcues, hwarnings⟩
  · have hprefix := (filterMap_play Occurrence.warning? warnings_tell
      (library.plan (Deed.ledger deeds) 0 n.agenda).cues listeners).1
    have hnothing : Occurrence.warnings (log ++ s.poll.log) <+: [] := by
      rw [hlog, ← hnone]
      exact hprefix
    exact absurd (List.prefix_nil.mp hnothing) hw
  · have hlonger : 0 < (Occurrence.warnings (log ++ s.poll.log)).length :=
      List.length_pos_iff.mpr hw
    have hpanic : (play (library.plan (Deed.ledger deeds) 0 n.agenda).cues listeners).panic =
        none := by
      rw [hlog] at hlonger
      rw [hcues] at hlonger ⊢
      apply no_panic_of_longer Occurrence.warning? warnings_tell front _ listeners
        (library.messages_cue_dropped t)
      show (Cue.warnings front).length < _
      rw [hwarnings]
      exact hlonger
    have hcalls : Occurrence.calls (log ++ s.poll.log) = library.calls (n.steps.take (k + 1)) := by
      rw [hlog, calls_play _ _ hpanic]
      exact ((library.plan_agenda (Deed.ledger deeds) n).2 k hfirst).2.2
    refine ⟨k, (h.poll.forsaken_iff k).mpr ?_⟩
    rw [Deed.ledger_append_poll, hcalls]
    exact ⟨hlost, library.ticket_lt_of_open _ n.steps k .lost hlost rfl⟩

/-- After a step is forsaken, a run has nothing to report but that it is pending, and nothing
happens but the warning. -/
theorem reports_of_forsaken (h : Sound library n listeners log outcomes deeds s) (k : Nat)
    (hk : library.Forsaken n.steps log deeds k) (actions : List Action)
    (ha : .abandon ∉ actions) :
    (∀ report ∈ s.reports actions, report.1 = .pending) ∧
      ∀ o ∈ s.logAll actions, o = .traced .completionDropped := by
  induction actions generalizing log outcomes deeds s with
  | nil =>
    refine ⟨fun report hreport => ?_, fun o ho => ?_⟩
    · exact absurd hreport (by simp [Session.reports])
    · exact absurd ho (by simp [Session.logAll, Session.actAll])
  | cons a rest ih =>
    have hne : a ≠ .abandon := fun he => ha (he ▸ List.mem_cons_self ..)
    obtain ⟨hreports, hlater⟩ := ih (h.act a hne) (hk.later _ _)
      fun hmem => ha (List.mem_cons_of_mem _ hmem)
    rw [s.logAll_cons]
    by_cases hpoll : a = .poll
    · subst hpoll
      obtain ⟨_, _, houtcome, hlog⟩ := h.poll_of_forsaken k hk
      refine ⟨?_, fun o ho => (List.mem_append.mp ho).elim (hlog o) (hlater o)⟩
      rintro report (_ | ⟨_, hmem⟩)
      · exact houtcome
      · exact hreports report hmem
    · rw [s.reports_cons_of_ne_poll a rest hpoll, s.log_act a hpoll, List.nil_append]
      exact ⟨hreports, hlater⟩

end Sound

/-- A walk that has warned has done so in a poll that found a step forsaken. -/
theorem exists_forsaken_of_warning (library : Library) (n : Node) (listeners : List L)
    (run : List Action) (ha : .abandon ∉ run) :
    let walk := Session.ofNode library n listeners
    Occurrence.warnings (walk.logAll run) ≠ [] → ∃ past k, past ++ [.poll] <+: run ∧
      library.Forsaken n.steps (walk.logAll (past ++ [.poll])) (walk.deedsAll (past ++ [.poll]))
        k := by
  intro walk
  induction run using List.reverseRecOn with
  | nil => exact fun hw => absurd rfl hw
  | append_singleton run a ih =>
    intro hw
    have hrun : .abandon ∉ run := fun hmem => ha (List.mem_append_left _ hmem)
    by_cases hbefore : Occurrence.warnings (walk.logAll run) = []
    · by_cases hpoll : a = .poll
      · subst hpoll
        have hsound := sound_walk library n listeners run hrun
        rw [walk.logAll_append, Session.logAll_poll] at hw
        obtain ⟨k, hk⟩ := hsound.exists_forsaken_of_poll hw
        refine ⟨run, k, List.prefix_refl _, ?_⟩
        rw [walk.logAll_append, walk.deedsAll_append, Session.logAll_poll]
        exact hk
      · rw [walk.logAll_append, Session.logAll_cons, Session.log_act _ a hpoll,
          Occurrence.warnings_append, hbefore] at hw
        exact absurd rfl hw
    · obtain ⟨past, k, hpast, hk⟩ := ih hrun hbefore
      exact ⟨past, k, hpast.trans (List.prefix_append _ _), hk⟩

/-- A run warns at most once, and just if some poll of it has found a step forsaken. -/
theorem warned_iff (library : Library) (n : Node) (listeners : List L) (run : List Action)
    (ha : .abandon ∉ run) :
    let walk := Session.ofNode library n listeners
    (Occurrence.warnings (walk.logAll run)).length ≤ 1 ∧
      ((Occurrence.warnings (walk.logAll run)).length = 1 ↔
        ∃ past k, past ++ [.poll] <+: run ∧ library.Forsaken n.steps
          (walk.logAll (past ++ [.poll])) (walk.deedsAll (past ++ [.poll])) k) := by
  intro walk
  have hle := (sound_walk library n listeners run ha).length_warnings_le
  refine ⟨hle, fun hone => ?_, ?_⟩
  · have hwarned : Occurrence.warnings (walk.logAll run) ≠ [] := by
      rw [← List.length_pos_iff, hone]
      exact Nat.zero_lt_one
    exact exists_forsaken_of_warning library n listeners run ha hwarned
  · rintro ⟨past, k, ⟨rest, rfl⟩, hk⟩
    have hpast : .abandon ∉ past := fun hmem =>
      ha (List.mem_append_left _ (List.mem_append_left _ hmem))
    rw [walk.logAll_append, walk.deedsAll_append, Session.logAll_poll] at hk
    have hwarned := (sound_walk library n listeners past hpast).warnings_of_forsaken k hk
    have hlog : walk.logAll (past ++ [.poll] ++ rest) =
        walk.logAll past ++ (walk.after past).poll.log ++
          (walk.after (past ++ [.poll])).logAll rest := by
      rw [walk.logAll_append, walk.logAll_append, Session.logAll_poll]
    rw [hlog, Occurrence.warnings_append, hwarned, List.length_append,
      List.length_singleton] at hle ⊢
    omega

/-- A walk that has come to a step whose completion is dropped stays there. Every later poll is
pending and nobody hears or calls anything; all listeners are left as the announcement of the step
has left them. The run warns once, in the first poll that finds the completion dropped. -/
theorem dropped_completion_holds_up_walk (library : Library) (n : Node) (listeners : List L)
    (actions more : List Action) (ha : .abandon ∉ actions ++ more) :
    let walk := Session.ofNode library n listeners
    let deeds := walk.deedsAll actions
    let listing := n.listing (library.outcomes (Deed.ledger deeds) n.steps)
    let s := walk.after actions
    ∀ k, library.Forsaken n.steps (walk.logAll actions) deeds k →
      (∀ report ∈ s.reports more, report.1 = .pending) ∧
      Occurrence.messages (s.logAll more) = [] ∧
      Occurrence.deliveries (s.logAll more) = [] ∧
      Occurrence.calls (s.logAll more) = [] ∧
      Occurrence.messages (walk.logAll actions) = Message.upToStep k listing ∧
      (s.after more).desk.world =
        listeners.map (fun l => (Listener.hearAll (Message.upToStep k listing) l).state) ∧
      ∀ run, run <+: actions ++ more →
        (Occurrence.warnings (walk.logAll run)).length ≤ 1 ∧
        ((Occurrence.warnings (walk.logAll run)).length = 1 ↔
          ∃ past, past ++ [.poll] <+: run ∧
            library.Forsaken n.steps (walk.logAll (past ++ [.poll]))
              (walk.deedsAll (past ++ [.poll])) k) := by
  intro walk deeds listing s k hk
  have hactions : .abandon ∉ actions := fun hmem => ha (List.mem_append_left _ hmem)
  have hmore : .abandon ∉ more := fun hmem => ha (List.mem_append_right _ hmem)
  have hsound := sound_walk library n listeners actions hactions
  have hlater := hsound.after more hmore
  have hkLater : library.Forsaken n.steps (walk.logAll actions ++ s.logAll more)
      (deeds ++ s.deedsAll more) k := hk.later _ _
  obtain ⟨hreports, honly⟩ := hsound.reports_of_forsaken k hk more hmore
  obtain ⟨hmessages, _⟩ := hsound.poll_of_forsaken k hk
  obtain ⟨_, hworld, _⟩ := hlater.poll_of_forsaken k hkLater
  have hnothing {β : Type} (f : Occurrence → Option β)
      (hf : f (.traced .completionDropped) = none) : (s.logAll more).filterMap f = [] := by
    rw [List.filterMap_eq_nil_iff]
    intro o ho
    rw [honly o ho]
    exact hf
  have hquiet : Occurrence.messages (s.logAll more) = [] := hnothing Occurrence.message? rfl
  refine ⟨hreports, hquiet, hnothing Occurrence.delivery? rfl, hnothing Occurrence.call? rfl,
    hmessages, ?_, fun run hrun => ?_⟩
  · rw [Occurrence.messages_append, hquiet, List.append_nil, hmessages] at hworld
    rw [← hworld]
  obtain ⟨hle, hone⟩ := warned_iff library n listeners run fun hmem => ha (hrun.subset hmem)
  refine ⟨hle, hone.trans ⟨?_, fun ⟨past, hpast, hkPast⟩ => ⟨past, k, hpast, hkPast⟩⟩⟩
  rintro ⟨past, j, hpast, hj⟩
  have hjAll := Library.forsaken_of_prefix walk (hpast.trans hrun) hj
  have hkAll := Library.forsaken_of_prefix walk (List.prefix_append actions more) hk
  obtain rfl : j = k :=
    (sound_walk library n listeners (actions ++ more) ha).forsaken_unique j k hjAll hkAll
  exact ⟨past, hpast, hj⟩

end

/-- A callback that keeps its completion, unless it is told to signal it or to drop it. -/
def dropping : List String → Reaction
  | ["done"] => ⟨.signalled .done, none⟩
  | ["drop"] => ⟨.dropped, none⟩
  | _ => ⟨.kept, none⟩

def droppingLibrary : Library := ⟨[⟨.findsG, 0, dropping⟩]⟩

def droppingTree : Node :=
  .scenario {
    keyword := "Scenario", name := "one dropped"
    steps := [⟨"* ", "go", 1, some "done"⟩, ⟨"* ", "go", 2, none⟩, ⟨"* ", "go", 3, some "drop"⟩] }

/-- The second completion is dropped between the first poll and the second, which warns of it. -/
theorem droppingTree_warns_once :
    let walk := Session.ofNode droppingLibrary droppingTree [({} : Statistics)]
    let actions := [Action.poll, .discard 0]
    let more := [Action.poll, .discardAll, .poll]
    .abandon ∉ actions ++ more ∧
      droppingLibrary.Forsaken droppingTree.steps (walk.logAll actions) (walk.deedsAll actions) 1 ∧
      (∀ report ∈ (walk.after actions).reports more, report.1 = .pending) ∧
      Occurrence.calls ((walk.after actions).logAll more) = [] ∧
      (Occurrence.warnings (walk.logAll actions)).length = 0 ∧
      (Occurrence.warnings (walk.logAll (actions ++ [.poll]))).length = 1 ∧
      (Occurrence.warnings (walk.logAll (actions ++ more))).length = 1 := by
  intro walk actions more
  have ha : .abandon ∉ actions ++ more := by decide
  have hforsaken : droppingLibrary.Forsaken droppingTree.steps (walk.logAll actions)
      (walk.deedsAll actions) 1 :=
    ((sound_walk droppingLibrary droppingTree [({} : Statistics)] actions
      (by decide)).forsaken_iff 1).mpr ⟨by decide, by decide⟩
  obtain ⟨hreports, _, _, hcalls, _, _, hruns⟩ := dropped_completion_holds_up_walk
    droppingLibrary droppingTree [({} : Statistics)] actions more ha 1 hforsaken
  have hpoll := Library.forsaken_of_prefix walk (List.prefix_append actions [.poll]) hforsaken
  have hfirst := (hruns (actions ++ [.poll]) ⟨[.discardAll, .poll], rfl⟩).2.mpr
    ⟨actions, List.prefix_refl _, hpoll⟩
  have hall := (hruns (actions ++ more) (List.prefix_refl _)).2.mpr
    ⟨actions, ⟨[.discardAll, .poll], rfl⟩, hpoll⟩
  exact ⟨ha, hforsaken, hreports, hcalls, by decide, hfirst, hall⟩

end FeatureRun
