import FeatureRun.Proofs.History
import FeatureRun.Proofs.WalkOrder

namespace FeatureRun

universe u

/-- A call settles its step by its panic, by its own signal, or as its completion is signalled. -/
theorem Reaction.settled_iff (reaction : Reaction) (now : Standing) (r : StepResult) :
    reaction.standing.given now = .settled r ↔
      match reaction.panic, reaction.handling with
      | some p, _ => r = .failed (.ofPayload p)
      | none, .signalled s => r = s.result
      | none, .kept => now = .settled r
      | none, .dropped => False := by
  rcases reaction with ⟨handling, _ | p⟩
  · cases handling <;> simp [Reaction.standing, Handling.standing, Standing.given, eq_comm]
  · simp [Reaction.standing, Standing.given, eq_comm]

section

variable {L : Type u} [Listener L] {library : Library} {n : Node} {listeners : List L}

/-- What has been announced is the beginning of what the plan announces. -/
theorem Course.messages_prefix {F : Ledger} {log : List Occurrence} {outcomes : List Outcome}
    {s : Session (List L)} (h : Course library n listeners F log outcomes s) :
    Occurrence.messages log <+: Cue.messages (library.plan F 0 n.agenda).cues := by
  rw [← flatMap_messages_log]
  exact h.filterMap_prefix Occurrence.message? fun m ls => messages_tell m 0 ls

/-- A result that has been announced is that of its step, by the call and the ledger. -/
theorem Sound.standing_of_result {log : List Occurrence} {outcomes : List Outcome}
    {deeds : List Deed} {s : Session (List L)}
    (h : Sound library n listeners log outcomes deeds s) (i : Nat) (r : StepResult)
    (hr : (Message.results (Occurrence.messages log))[i]? = some r) :
    (library.standings (Deed.ledger deeds) 0 n.steps)[i]? = some (.settled r) := by
  have hplan := (library.prospect_agenda (Deed.ledger deeds) n).results
  rw [n.flatMap_steps_scenes] at hplan
  have hresults : (Message.results (Occurrence.messages log)).map .settled <+:
      (Message.results (Cue.messages (library.plan (Deed.ledger deeds) 0 n.agenda).cues)).map
        Standing.settled :=
    (h.course.messages_prefix.filterMap Message.result?).map Standing.settled
  obtain ⟨more, hmore⟩ := hresults.trans hplan
  have hlt : i < ((Message.results (Occurrence.messages log)).map Standing.settled).length := by
    rw [List.length_map]
    exact (List.getElem?_eq_some_iff.mp hr).1
  rw [← hmore, List.getElem?_append_left hlt, List.getElem?_map]
  exact congrArg (Option.map Standing.settled) hr

end

namespace Desk

variable {W : Type u}

/-- The desk without its completions. -/
def bare (d : Desk W) : Desk W := { d with held := [] }

theorem settle_bare (v : Visitor W) (ticket : Nat) (s : Standing) (d d' : Desk W)
    (h : d.bare = d'.bare) :
    (d.settle v ticket s).world.bare = (d'.settle v ticket s).world.bare ∧
      (d.settle v ticket s).log = (d'.settle v ticket s).log ∧
      (d.settle v ticket s).attempt = (d'.settle v ticket s).attempt := by
  rcases d with ⟨world, calls, held⟩
  rcases d' with ⟨world', calls', held'⟩
  obtain ⟨rfl, rfl, _⟩ := Desk.mk.inj h
  cases s <;> exact ⟨rfl, rfl, rfl⟩

/-- Which completions are held makes no difference to performing a task. -/
theorem perform_bare (v : Visitor W) (t : Task) (d d' : Desk W) (h : d.bare = d'.bare) :
    (perform v t d).world.bare = (perform v t d').world.bare ∧
      (perform v t d).log = (perform v t d').log ∧
      (perform v t d).attempt = (perform v t d').attempt := by
  rcases d with ⟨world, calls, held⟩
  rcases d' with ⟨world', calls', held'⟩
  obtain ⟨rfl, rfl, _⟩ := Desk.mk.inj h
  cases t with
  | enter n => exact ⟨rfl, rfl, rfl⟩
  | leave n => exact ⟨rfl, rfl, rfl⟩
  | execute s =>
    cases hl : (v.lookup s.name).1 with
    | none =>
      simp only [perform, execute, hl]
      exact ⟨rfl, rfl, rfl⟩
    | some definition =>
      simp only [perform, execute, hl]
      obtain ⟨hworld, hlog, hattempt⟩ := settle_bare v calls
        (definition.invoke s.name s.docString).standing
        (recordCall (definition.invoke s.name s.docString) ⟨world, calls, held⟩)
        (recordCall (definition.invoke s.name s.docString) ⟨world, calls, held'⟩) rfl
      exact ⟨hworld, congrArg (_ ++ ·) hlog, hattempt⟩
  | await ticket standing => exact settle_bare v ticket standing _ _ rfl
  | stuck => exact ⟨rfl, rfl, rfl⟩
  | pause polls => rcases polls with _ | _ | _ <;> exact ⟨rfl, rfl, rfl⟩

theorem resume_bare (v : Visitor W) (tasks : List Task) (d d' : Desk W) (h : d.bare = d'.bare) :
    let round := Agenda.resume (perform v) tasks d
    let round' := Agenda.resume (perform v) tasks d'
    round.world.bare = round'.world.bare ∧ round.log = round'.log ∧
      round.ending = round'.ending := by
  induction tasks generalizing d d' with
  | nil => exact ⟨h, rfl, rfl⟩
  | cons t rest ih =>
    obtain ⟨hworld, hlog, hattempt⟩ := perform_bare v t d d' h
    simp only [Agenda.resume, hattempt]
    cases (perform v t d').attempt with
    | finished =>
      obtain ⟨hworld', hlog', hending'⟩ := ih _ _ hworld
      refine ⟨hworld', ?_, hending'⟩
      simp only [hlog, hlog']
    | blocked t' => exact ⟨hworld, hlog, rfl⟩
    | crashed m => exact ⟨hworld, hlog, rfl⟩

end Desk

namespace Session

variable {W : Type u}

/-- The session without the completions that are held. -/
def bare (s : Session W) : Session W := { s with desk := s.desk.bare }

theorem poll_bare (s s' : Session W) (h : s.bare = s'.bare) :
    s.poll.session.bare = s'.poll.session.bare ∧ s.poll.outcome = s'.poll.outcome ∧
      s.poll.log = s'.poll.log := by
  rcases s with ⟨visitor, opening, stage, desk⟩
  rcases s' with ⟨visitor', opening', stage', desk'⟩
  obtain ⟨rfl, rfl, rfl, hdesk⟩ := Session.mk.inj h
  cases stage with
  | refused e => exact ⟨congrArg (Session.mk visitor [] .over) hdesk, rfl, rfl⟩
  | «over» => exact ⟨congrArg (Session.mk visitor opening .over) hdesk, rfl, rfl⟩
  | underway todo =>
    obtain ⟨hworld, hlog, hending⟩ := Desk.resume_bare visitor todo desk desk' hdesk
    simp only [poll, bare, hlog, hending, hworld]
    exact ⟨trivial, trivial, trivial⟩

/-- The session after a deed. -/
def undergo (s : Session W) (d : Deed) : Session W :=
  match d.parting? with
  | none => s.poll.session
  | some (ticket, now) => s.release ticket now

/-- What the polls among some actions report, each its outcome and all that happens during it. -/
def reports (s : Session W) : List Action → List (Outcome × List Occurrence)
  | [] => []
  | .poll :: rest => (s.poll.outcome, s.poll.log) :: s.poll.session.reports rest
  | a :: rest => (s.act a).session.reports rest

theorem reports_cons_of_ne_poll (s : Session W) (a : Action) (rest : List Action)
    (h : a ≠ .poll) : s.reports (a :: rest) = (s.act a).session.reports rest := by
  cases a with
  | poll => exact absurd rfl h
  | _ => rfl

/-- What the polls among some deeds report. -/
def reportsOf (s : Session W) : List Deed → List (Outcome × List Occurrence)
  | [] => []
  | d :: rest =>
    match d.parting? with
    | none => (s.poll.outcome, s.poll.log) :: s.poll.session.reportsOf rest
    | some (ticket, now) => (s.release ticket now).reportsOf rest

theorem release_bare (s s' : Session W) (ticket : Nat) (now : Standing) (h : s.bare = s'.bare) :
    (s.release ticket now).bare = (s'.release ticket now).bare := by
  have hrelease (s : Session W) : (s.release ticket now).bare =
      { s.bare with stage := s.bare.stage.inform ticket now } := rfl
  rw [hrelease, hrelease, h]

/-- Reports do not depend on what is held. -/
theorem reportsOf_bare (s s' : Session W) (deeds : List Deed) (h : s.bare = s'.bare) :
    s.reportsOf deeds = s'.reportsOf deeds := by
  induction deeds generalizing s s' with
  | nil => rfl
  | cons d rest ih =>
    cases hd : d.parting? with
    | none =>
      obtain ⟨hsession, houtcome, hlog⟩ := poll_bare s s' h
      simp only [reportsOf, hd, houtcome, hlog, ih _ _ hsession]
    | some p =>
      simp only [reportsOf, hd]
      exact ih _ _ (release_bare s s' p.1 p.2 h)

end Session

namespace Library

/-- The call with this ticket has panicked. -/
def isStale (library : Library) (steps : List Step) (ticket : Nat) : Bool :=
  match (library.calls steps)[ticket]? with
  | some call => (call.1.callback call.2).panic.isSome
  | none => false

/-- A deed that is not done to a stale completion. -/
def isLive (library : Library) (steps : List Step) (d : Deed) : Bool :=
  match d.ticket? with
  | some ticket => !library.isStale steps ticket
  | none => true

end Library

section

variable {W : Type u} (library : Library) (steps : List Step)

/-- A session in which no step waits for a stale completion. -/
def Session.Calm (s : Session W) : Prop :=
  ∀ ticket now rest, s.stage = .underway (.await ticket now :: rest) →
    library.isStale steps ticket = false

variable {library steps}

theorem Stage.inform_of_calm (stage : Stage) (ticket : Nat) (now : Standing)
    (h : ∀ t now rest, stage = .underway (.await t now :: rest) → t ≠ ticket) :
    stage.inform ticket now = stage := by
  cases stage with
  | refused e => rfl
  | «over» => rfl
  | underway todo =>
    rcases todo with _ | ⟨t, rest⟩
    · rfl
    · cases t with
      | await t standing =>
        have hne : t ≠ ticket := h t standing rest rfl
        cases standing with
        | waiting => simp only [Stage.inform, if_neg hne]
        | settled r => rfl
        | lost => rfl
      | _ => rfl

theorem Stage.await_of_inform (stage : Stage) (ticket : Nat) (now : Standing) (t : Nat)
    (standing : Standing) (rest : List Task)
    (h : stage.inform ticket now = .underway (.await t standing :: rest)) :
    ∃ before, stage = .underway (.await t before :: rest) := by
  by_cases hstage : ∃ before rest', stage = .underway (.await ticket before :: rest')
  · obtain ⟨before, rest', rfl⟩ := hstage
    cases before with
    | waiting =>
      obtain ⟨hhead, rfl⟩ := List.cons.inj (Stage.underway.inj h)
      obtain ⟨rfl, _⟩ := Task.await.inj hhead
      exact ⟨.waiting, rfl⟩
    | settled r => exact ⟨standing, h⟩
    | lost => exact ⟨standing, h⟩
  · rw [stage.inform_of_calm ticket now fun t' now' rest' he hne =>
      hstage ⟨now', rest', hne ▸ he⟩] at h
    exact ⟨standing, h⟩

namespace Session

theorem Calm.release {s : Session W} (h : s.Calm library steps) (ticket : Nat) (now : Standing) :
    (s.release ticket now).Calm library steps := by
  intro t standing rest hstage
  obtain ⟨before, hbefore⟩ := s.stage.await_of_inform ticket now t standing rest hstage
  exact h t before rest hbefore

theorem Calm.release_stale {s : Session W} (h : s.Calm library steps) (ticket : Nat)
    (now : Standing) (hstale : library.isStale steps ticket = true) :
    (s.release ticket now).bare = s.bare := by
  have hstage : s.stage.inform ticket now = s.stage := by
    apply s.stage.inform_of_calm
    rintro t standing rest hawait rfl
    exact absurd (hstale.symm.trans (h t standing rest hawait)) Bool.noConfusion
  calc (s.release ticket now).bare = { s.bare with stage := s.stage.inform ticket now } := rfl
    _ = s.bare := by rw [hstage]; rfl

/-- Partings come to no more than those of them that are not with stale completions. -/
theorem Calm.reportsOf_partings {s : Session W} (h : s.Calm library steps) (deeds rest : List Deed)
    (hdeeds : ∀ d ∈ deeds, d.parting? ≠ none) :
    (deeds.foldl undergo s).reportsOf rest =
      s.reportsOf (deeds.filter (library.isLive steps) ++ rest) := by
  induction deeds generalizing s with
  | nil => rfl
  | cons d others ih =>
    have hothers : ∀ d ∈ others, d.parting? ≠ none :=
      fun d hd => hdeeds d (List.mem_cons_of_mem _ hd)
    obtain ⟨⟨ticket, now⟩, hd⟩ := Option.ne_none_iff_exists'.mp (hdeeds d (List.mem_cons_self ..))
    have hundergo : s.undergo d = s.release ticket now := by simp only [undergo, hd]
    have hlater := ih (h.release ticket now) hothers
    have hlive : library.isLive steps d = !library.isStale steps ticket := by
      simp only [Library.isLive, Deed.ticket?, hd, Option.map_some]
    rw [List.foldl_cons, hundergo, hlater, List.filter_cons, hlive]
    cases hstale : library.isStale steps ticket with
    | true => exact reportsOf_bare _ _ _ (h.release_stale ticket now hstale)
    | false =>
      simp only [Bool.not_false, if_true, List.cons_append, reportsOf, hd]

/-- An action that is not a poll amounts to partings. -/
theorem act_eq_partings (s : Session W) (a : Action) (hpoll : a ≠ .poll) (ha : a ≠ .abandon) :
    (s.act a).session = (s.deeds a).foldl undergo s ∧ ∀ d ∈ s.deeds a, d.parting? ≠ none := by
  have hat (position : Nat) (now : Standing) (outcome : Outcome) (deed : Nat → Deed)
      (hdeed : ∀ t, (deed t).parting? = some (t, now)) :
      (s.releaseAt position now outcome).session =
          ((s.desk.held[position]?).toList.map deed).foldl undergo s ∧
        ∀ d ∈ (s.desk.held[position]?).toList.map deed, d.parting? ≠ none := by
    cases hp : s.desk.held[position]? with
    | none =>
      simp only [releaseAt, hp]
      exact ⟨rfl, fun d hd => absurd hd (by simp)⟩
    | some t =>
      simp only [releaseAt, hp, Option.toList_some, List.map_cons, List.map_nil, List.foldl_cons,
        List.foldl_nil, undergo, hdeed]
      refine ⟨trivial, fun d hd => ?_⟩
      rw [List.mem_singleton.mp hd, hdeed]
      simp
  cases a with
  | poll => exact absurd rfl hpoll
  | abandon => exact absurd rfl ha
  | signal position signal => exact hat position _ _ (.signal · signal) fun _ => rfl
  | discard position => exact hat position _ _ .drop fun _ => rfl
  | discardAll =>
    simp only [act, releaseAll, deeds, List.foldl_map]
    refine ⟨rfl, fun d hd => ?_⟩
    obtain ⟨t, _, rfl⟩ := List.mem_map.mp hd
    exact Option.some_ne_none _

end Session

end

section

variable {L : Type u} [Listener L] {library : Library} {n : Node} {listeners : List L}

theorem Sound.calm {log : List Occurrence} {outcomes : List Outcome} {deeds : List Deed}
    {s : Session (List L)} (h : Sound library n listeners log outcomes deeds s) :
    s.Calm library n.steps := by
  intro ticket now rest hstage
  cases h.course with
  | underway todo told h =>
    have htodo : todo = .await ticket now :: rest := Stage.underway.inj (h.stage.symm.trans hstage)
    obtain ⟨call, hcall, hcalm⟩ := h.awaited ticket now rest htodo
    simp only [Library.isStale, hcall, hcalm, Option.isSome_none]
  | ended h => exact absurd (h.stage.symm.trans hstage) Stage.noConfusion

/-- The reports of a run are those of its deeds, less those on stale completions. -/
theorem Sound.reports_eq {log : List Occurrence} {outcomes : List Outcome} {deeds : List Deed}
    {s : Session (List L)} (h : Sound library n listeners log outcomes deeds s)
    (actions : List Action) (ha : .abandon ∉ actions) :
    s.reports actions = s.reportsOf ((s.deedsAll actions).filter (library.isLive n.steps)) := by
  induction actions generalizing log outcomes deeds s with
  | nil => rfl
  | cons a rest ih =>
    have hne : a ≠ .abandon := fun he => ha (he ▸ List.mem_cons_self ..)
    have hrest := ih (h.act a hne) fun hmem => ha (List.mem_cons_of_mem _ hmem)
    by_cases hpoll : a = .poll
    · subst hpoll
      exact congrArg ((s.poll.outcome, s.poll.log) :: ·) hrest
    · obtain ⟨hsession, hdeeds⟩ := s.act_eq_partings a hpoll hne
      rw [s.reports_cons_of_ne_poll a rest hpoll, hrest, hsession,
        h.calm.reportsOf_partings _ _ hdeeds, ← hsession, ← List.filter_append]
      rfl

end

/-- Every result announced in a walk is that of its own step: the panic of the callback, whatever
became of the completion, or the one signal on the completion of that very call. Runs that differ
only in what is done to stale completions report the same at every poll. -/
theorem completion_settles_its_own_step {L : Type u} [Listener L] (library : Library) (n : Node)
    (listeners : List L) (actions : List Action) (ha : .abandon ∉ actions) :
    let walk := Session.ofNode library n listeners
    let deeds := walk.deedsAll actions
    (∀ i r, (Message.results (Occurrence.messages (walk.logAll actions)))[i]? = some r →
      ∃ s, n.steps[i]? = some s ∧
        match library.lookup? s.name with
        | none => r = .undefined
        | some d =>
          match (d.invoke s.name s.docString).panic, (d.invoke s.name s.docString).handling with
          | some p, _ => r = .failed (.ofPayload p)
          | none, .signalled signal => r = signal.result
          | none, .kept => ∃ signal, r = signal.result ∧
              deeds.filter (fun d => d.ticket? == some (library.ticket n.steps i)) =
                [.signal (library.ticket n.steps i) signal]
          | none, .dropped => False) ∧
    ∀ actions', .abandon ∉ actions' →
      (walk.deedsAll actions').filter (library.isLive n.steps) =
        deeds.filter (library.isLive n.steps) →
      walk.reports actions' = walk.reports actions := by
  intro walk deeds
  have hsound := sound_walk library n listeners actions ha
  refine ⟨fun i r hr => ?_, fun actions' ha' hdeeds => ?_⟩
  · have hstanding := hsound.standing_of_result i r hr
    rw [library.standings_getElem?, Nat.zero_add] at hstanding
    obtain ⟨s, hs, hsettled⟩ := Option.map_eq_some_iff.mp hstanding
    refine ⟨s, hs, ?_⟩
    cases hl : library.lookup? s.name with
    | none =>
      simp only [Library.standing, hl] at hsettled
      exact (Standing.settled.inj hsettled).symm
    | some d =>
      simp only [Library.standing, hl] at hsettled
      have hreaction := ((d.invoke s.name s.docString).settled_iff _ r).mp hsettled
      cases hp : (d.invoke s.name s.docString).panic with
      | some p => simpa only [hp] using hreaction
      | none =>
        cases hh : (d.invoke s.name s.docString).handling with
        | signalled signal => simpa only [hp, hh] using hreaction
        | kept =>
          simp only [hp, hh] at hreaction ⊢
          exact Deed.exists_signal deeds (library.ticket n.steps i) r hsound.once hreaction
        | dropped => exact absurd hreaction (by simp only [hp, hh, not_false_eq_true])
  · calc walk.reports actions'
        = walk.reportsOf ((walk.deedsAll actions').filter (library.isLive n.steps)) :=
          Sound.ofNode.reports_eq actions' ha'
      _ = walk.reportsOf (deeds.filter (library.isLive n.steps)) := by rw [hdeeds]
      _ = walk.reports actions := (Sound.ofNode.reports_eq actions ha).symm

/-- A callback that keeps its completion, and then panics if it is told to. -/
def clinging : List String → Reaction
  | ["panic"] => ⟨.kept, some (.text "as told")⟩
  | _ => ⟨.kept, none⟩

def clingingLibrary : Library := ⟨[⟨.findsG, 0, clinging⟩]⟩

def clingingTree : Node :=
  .scenario {
    keyword := "Scenario", name := "one stale"
    steps := [⟨"* ", "go", 1, some "panic"⟩, ⟨"* ", "go", 2, none⟩] }

/-- Of the two completions held after the first poll, one is stale. -/
theorem clingingTree_reports :
    let walk := Session.ofNode clingingLibrary clingingTree [({} : Statistics)]
    let actions := [Action.poll, .signal 0 .done, .signal 0 (.fail "late"), .poll]
    let actions' := [Action.poll, .signal 1 (.fail "late"), .poll, .discardAll]
    .abandon ∉ actions ∧ .abandon ∉ actions' ∧
      (walk.deedsAll actions').filter (clingingLibrary.isLive clingingTree.steps) =
        (walk.deedsAll actions).filter (clingingLibrary.isLive clingingTree.steps) ∧
      walk.reports actions' = walk.reports actions ∧
      Message.results (Occurrence.messages (walk.logAll actions)) =
        [.failed (.panicked "as told"), .failed (.failed "late")] := by
  intro walk actions actions'
  have ha : .abandon ∉ actions := by decide
  have ha' : .abandon ∉ actions' := by decide
  have hlive : (walk.deedsAll actions').filter (clingingLibrary.isLive clingingTree.steps) =
      (walk.deedsAll actions).filter (clingingLibrary.isLive clingingTree.steps) := by decide
  obtain ⟨_, hreports⟩ := completion_settles_its_own_step clingingLibrary clingingTree
    [({} : Statistics)] actions ha
  exact ⟨ha, ha', hlive, hreports actions' ha' hlive, by decide⟩

end FeatureRun
