import FeatureRun.Proofs.CompleteWalk
import FeatureRun.Proofs.ListenerPanic
import FeatureRun.Proofs.Suspension

namespace FeatureRun

universe u

namespace Session

variable {W : Type u}

theorem world_act (s : Session W) (a : Action) (h : a ≠ .poll) :
    (s.act a).session.desk.world = s.desk.world := by
  have hrelease (position : Nat) (now : Standing) (outcome : Outcome) :
      (s.releaseAt position now outcome).session.desk.world = s.desk.world := by
    simp only [releaseAt]
    cases s.desk.held[position]? <;> rfl
  cases a with
  | poll => exact absurd rfl h
  | signal position signal => exact hrelease ..
  | discard position => exact hrelease ..
  | discardAll =>
    apply releaseAll_of_release (P := fun s' => s'.desk.world = s.desk.world) .lost
    · intro s' t hs'
      exact hs'
    · rfl
  | abandon => rfl

theorem world_after (s : Session W) (actions : List Action) (h : .poll ∉ actions) :
    (s.after actions).desk.world = s.desk.world := by
  induction actions generalizing s with
  | nil => rfl
  | cons a rest ih =>
    have ha : a ≠ .poll := fun he => h (he ▸ List.mem_cons_self ..)
    have hrest := ih (s.act a).session fun hmem => h (List.mem_cons_of_mem _ hmem)
    exact hrest.trans (s.world_act a ha)

theorem after_of_over (s : Session W) (actions : List Action) (h : s.stage = .over) :
    (s.after actions).stage = .over := by
  induction actions generalizing s with
  | nil => exact h
  | cons a rest ih => exact ih _ (s.act_of_over a h).2.2

theorem after_of_abandon (s : Session W) (actions : List Action) (h : .abandon ∈ actions) :
    (s.after actions).stage = .over := by
  induction actions generalizing s with
  | nil => exact absurd h List.not_mem_nil
  | cons a rest ih =>
    rcases List.mem_cons.mp h with rfl | hrest
    · exact (s.act .abandon).session.after_of_over rest rfl
    · exact ih _ hrest

end Session

namespace Library

variable (library : Library)

/-- A plan of the whole tree announces something. -/
theorem messages_plan_ne_nil (F : Ledger) (all : List Feature) :
    Cue.messages (library.plan F 0 (Node.features all).agenda).cues ≠ [] := by
  have hplan := library.plan_border F 0 .opening (.features all)
    (all.flatMap Task.ofFeature ++ [.leave (.features all)])
  have hagenda : (Node.features all).agenda =
    Border.opening.task (Branch.features all).node ::
      (all.flatMap Task.ofFeature ++ [.leave (.features all)]) := rfl
  rw [hagenda, hplan]
  exact List.cons_ne_nil _ _

/-- Held up or not, a plan announces no more than the beginning of a listing. -/
theorem messages_plan_prefix (F : Ledger) (n : Node) :
    Cue.messages (library.plan F 0 n.agenda).cues <+:
      n.listing (library.outcomes F n.steps) := by
  obtain ⟨hnone, hsome⟩ := library.plan_agenda F n
  cases hfirst : (library.standings F 0 n.steps).findIdx? fun x => !x.isSettled with
  | none => exact (hnone hfirst).2.1 ▸ List.prefix_refl _
  | some k =>
    rw [(hsome k hfirst).2.1]
    exact Message.upToStep_prefix k _

/-- A poll that suspends a walk or brings it to its end has played a plan of the whole tree. -/
theorem play_of_poll {L : Type u} [Listener L] (n : Node) (listeners : List L)
    (actions : List Action) :
    let walk := Session.ofNode library n listeners
    let reply := (walk.after actions).poll
    reply.outcome = .pending ∨ reply.outcome = .ready → ∃ F : Ledger,
      let plan := library.plan F 0 n.agenda
      play plan.cues listeners =
        ⟨reply.session.desk.world, walk.logAll actions ++ reply.log, none⟩ ∧
      reply.outcome = (plan.ending none).outcome := by
  intro walk reply h
  have hstage : (walk.after actions).stage ≠ .over := by
    intro hover
    have hgone : reply.outcome = .gone := congrArg (·.outcome) (Session.poll_of_over _ hover)
    rw [hgone] at h
    exact h.elim Outcome.noConfusion Outcome.noConfusion
  have hsound := sound_walk library n listeners actions fun hmem =>
    hstage (walk.after_of_abandon actions hmem)
  cases hsound.course with
  | ended hended => exact absurd hended.stage hstage
  | underway todo told hunderway =>
    let F := Deed.ledger (walk.deedsAll actions)
    obtain ⟨houtcome, hlog, _, hworld, _⟩ := Session.poll_eq_plan library F todo
      (walk.after actions) hsound.visitor hsound.opening hunderway.stage hsound.ledger_fresh
      hunderway.no_pause
    have hpanic : (play (library.plan F (walk.after actions).desk.calls todo).cues
        (walk.after actions).desk.world).panic = none := by
      cases hp : (play (library.plan F (walk.after actions).desk.calls todo).cues
          (walk.after actions).desk.world).panic with
      | none => rfl
      | some m =>
        rw [hp] at houtcome
        have hpanicked : reply.outcome = .panicked m := houtcome
        rw [hpanicked] at h
        exact h.elim Outcome.noConfusion Outcome.noConfusion
    refine ⟨F, ?_, ?_⟩
    · rw [hunderway.play_now, hworld, hlog, ← hpanic]
    · rw [houtcome, hpanic, hunderway.plan_now]
      rfl

/-- Some walk of the tree, after whatever its environment has done, is polled and suspended, and
never polled again. It leaves as `s'` the listener `s` that hears it, alone or with others. -/
def Suspends {σ : Type} [Listener σ] (all : List Feature) (s s' : σ) : Prop :=
  ∃ (τ : Type) (_ : Listener τ) (listeners : List (σ ⊕ τ)) (i : Nat)
    (actions later : List Action),
    let reply := ((Session.ofNode library (.features all) listeners).after actions).poll
    reply.outcome = .pending ∧ .poll ∉ later ∧ listeners[i]? = some (.inl s) ∧
      (reply.session.after later).desk.world[i]? = some (.inl s')

/-- Some walk of the tree, after whatever its environment has done, is polled and comes to its end.
It leaves as `s'` the listener `s` that hears it, alone or with others. -/
def Completes {σ : Type} [Listener σ] (all : List Feature) (s s' : σ) : Prop :=
  ∃ (τ : Type) (_ : Listener τ) (listeners : List (σ ⊕ τ)) (i : Nat) (actions : List Action),
    let reply := ((Session.ofNode library (.features all) listeners).after actions).poll
    reply.outcome = .ready ∧ listeners[i]? = some (.inl s) ∧
      reply.session.desk.world[i]? = some (.inl s')

/-- A poll that suspends a walk has brought its listeners to the beginning of a listing. -/
theorem world_of_pending {L : Type u} [Listener L] (all : List Feature) (listeners : List L)
    (actions : List Action)
    (h : ((Session.ofNode library (.features all) listeners).after actions).poll.outcome =
      .pending) :
    ∃ (r : Results) (p : List Message), p <+: (Node.features all).listing r ∧ p ≠ [] ∧
      ((Session.ofNode library (.features all) listeners).after actions).poll.session.desk.world =
        listeners.map fun l => (Listener.hearAll p l).state := by
  obtain ⟨F, hplay, _⟩ := library.play_of_poll (.features all) listeners actions (Or.inl h)
  have hbear := no_panic_of_play _ listeners (congrArg Effect.panic hplay)
  have hstate := (play_of_no_panic _ listeners hbear).1
  rw [hplay] at hstate
  exact ⟨_, _, library.messages_plan_prefix F (.features all),
    library.messages_plan_ne_nil F all, hstate⟩

/-- A poll that brings a walk to its end has brought its listeners to the end of a listing. -/
theorem world_of_ready {L : Type u} [Listener L] (n : Node) (listeners : List L)
    (actions : List Action)
    (h : ((Session.ofNode library n listeners).after actions).poll.outcome = .ready) :
    ∃ r : Results,
      ((Session.ofNode library n listeners).after actions).poll.session.desk.world =
        listeners.map fun l => (Listener.hearAll (n.listing r) l).state := by
  obtain ⟨F, hplay, houtcome⟩ := library.play_of_poll n listeners actions (Or.inr h)
  have hbear := no_panic_of_play _ listeners (congrArg Effect.panic hplay)
  have hstate := (play_of_no_panic _ listeners hbear).1
  have htodo : (library.plan F 0 n.agenda).todo = none := by
    cases hleft : (library.plan F 0 n.agenda).todo with
    | none => rfl
    | some left =>
      simp only [Plan.ending, hleft, Ending.outcome] at houtcome
      exact absurd (h.symm.trans houtcome) Outcome.noConfusion
  obtain ⟨hnone, hsome⟩ := library.plan_agenda F n
  cases hfirst : (library.standings F 0 n.steps).findIdx? fun x => !x.isSettled with
  | none =>
    rw [hplay, (hnone hfirst).2.1] at hstate
    exact ⟨_, hstate⟩
  | some k => exact absurd (hsome k hfirst).1 (by rw [htodo]; exact Bool.false_ne_true)

theorem heard_of_suspends {σ : Type} [Listener σ] [Listener.Steady σ] (all : List Feature)
    (s s' : σ) (h : library.Suspends all s s') :
    ∃ (r : Results) (p : List Message), p <+: (Node.features all).listing r ∧ p ≠ [] ∧
      s' = Listener.after (p.filterMap Message.notice?) s := by
  obtain ⟨τ, _, listeners, i, actions, later, hpending, hlater, hs, hs'⟩ := h
  obtain ⟨r, p, hp, hsome, hworld⟩ :=
    library.world_of_pending all listeners actions hpending
  refine ⟨r, p, hp, hsome, ?_⟩
  rw [Session.world_after _ later hlater, hworld, List.getElem?_map, hs, Option.map_some,
    Listener.hearAll_inl, Effect.map, (Listener.hearAll_of_steady p s).2] at hs'
  exact (Sum.inl.inj (Option.some.inj hs')).symm

theorem heard_of_completes {σ : Type} [Listener σ] [Listener.Steady σ] (all : List Feature)
    (s s' : σ) (h : library.Completes all s s') :
    ∃ r : Results, s' =
      Listener.after (((Node.features all).listing r).filterMap Message.notice?) s := by
  obtain ⟨τ, _, listeners, i, actions, hready, hs, hs'⟩ := h
  obtain ⟨r, hworld⟩ := library.world_of_ready (.features all) listeners actions hready
  refine ⟨r, ?_⟩
  rw [hworld, List.getElem?_map, hs, Option.map_some, Listener.hearAll_inl, Effect.map,
    (Listener.hearAll_of_steady _ s).2] at hs'
  exact (Sum.inl.inj (Option.some.inj hs')).symm

end Library

end FeatureRun
