import FeatureRun.Proofs.History
import FeatureRun.Proofs.WalkOrder

namespace FeatureRun

universe u

namespace Session

variable {W : Type u}

/-- What parting with one completion preserves, parting with all of them does. -/
theorem releaseAll_of_release {P : Session W → Prop} (now : Standing)
    (h : ∀ s ticket, P s → P (s.release ticket now)) (s : Session W) (hs : P s) :
    P (s.releaseAll now) := by
  -- the session moves while the list of completions stays, so the fold is over any session
  have hfold (held : List Nat) (s : Session W) (hs : P s) :
      P (held.foldl (fun s ticket => s.release ticket now) s) := by
    induction held generalizing s with
    | nil => exact hs
    | cons t rest ih => exact ih _ (h s t hs)
  exact hfold s.desk.held s hs

theorem stage_release_of_over (s : Session W) (ticket : Nat) (now : Standing)
    (h : s.stage = .over) : (s.release ticket now).stage = .over := by
  show s.stage.inform ticket now = .over
  rw [h]
  rfl

/-- Nothing happens when a run is over, and it stays so. -/
theorem act_of_over (s : Session W) (a : Action) (h : s.stage = .over) :
    (s.act a).log = [] ∧ (s.act a).outcome ≠ .ready ∧ (s.act a).session.stage = .over := by
  have hrelease (position : Nat) (now : Standing) (outcome : Outcome) (hready : outcome ≠ .ready) :
      let reply := s.releaseAt position now outcome
      reply.outcome ≠ .ready ∧ reply.session.stage = .over := by
    simp only [releaseAt]
    cases s.desk.held[position]? with
    | none => exact ⟨Outcome.noConfusion, h⟩
    | some t => exact ⟨hready, s.stage_release_of_over t now h⟩
  cases a with
  | poll =>
    simp only [act, s.poll_of_over h]
    exact ⟨trivial, Outcome.noConfusion, h⟩
  | signal position signal =>
    exact ⟨s.log_act _ Action.noConfusion, hrelease _ _ _ Outcome.noConfusion⟩
  | discard position =>
    exact ⟨s.log_act _ Action.noConfusion, hrelease _ _ _ Outcome.noConfusion⟩
  | discardAll =>
    exact ⟨rfl, Outcome.noConfusion, releaseAll_of_release .lost
      (fun s ticket hs => s.stage_release_of_over ticket .lost hs) s h⟩
  | abandon => exact ⟨rfl, Outcome.noConfusion, rfl⟩

theorem actions_of_over (s : Session W) (actions : List Action) (h : s.stage = .over) :
    s.logAll actions = [] ∧ .ready ∉ s.outcomes actions := by
  induction actions generalizing s with
  | nil => exact ⟨rfl, by simp [outcomes, actAll]⟩
  | cons a rest ih =>
    obtain ⟨hlog, hready, hstage⟩ := s.act_of_over a h
    obtain ⟨hlater, hnever⟩ := ih (s.act a).session hstage
    rw [logAll_cons, outcomes_cons, hlog, hlater]
    exact ⟨rfl, fun hmem => (List.mem_cons.mp hmem).elim (fun he => hready he.symm) hnever⟩

theorem logAll_of_over (s : Session W) (actions : List Action) (h : s.stage = .over) :
    s.logAll actions = [] :=
  (s.actions_of_over actions h).1

end Session

section

variable {L : Type u} [Listener L]

/-- The first panic of a walk is that of a listener over the message with `j` messages before it:
those attached before it bear that message too, and all others the messages before. The walk
panics as the listener does. Only the listeners up to it have been handed the message, the callbacks
of just the steps announced before it have been called, and nothing happens later. -/
theorem listener_panic_ends_walk (library : Library) (n : Node) (before : List L) (l : L)
    (after : List L) (h : library.Settles) (j : Nat) (m : Message) (p : String)
    (hm : (n.listing library.results)[j]? = some m)
    (hbefore : Bear ((n.listing library.results).take (j + 1)) before)
    (hafter : Bear ((n.listing library.results).take j) (l :: after))
    (hpanic : (Listener.hearAll ((n.listing library.results).take (j + 1)) l).panic = some p) :
    let listing := n.listing library.results
    let reply := (Session.ofNode library n (before ++ l :: after)).poll
    reply.outcome = .panicked p ∧
      Occurrence.messages reply.log = listing.take (j + 1) ∧
      (∀ i < (before ++ l :: after).length, Occurrence.heardBy i reply.log =
        if i ≤ before.length then listing.take (j + 1) else listing.take j) ∧
      reply.session.desk.world =
        before.map (fun l' => (Listener.hearAll (listing.take (j + 1)) l').state) ++
          (Listener.hearAll (listing.take (j + 1)) l).state ::
            after.map (fun l' => (Listener.hearAll (listing.take j) l').state) ∧
      Occurrence.calls reply.log = library.calls (Message.begun (listing.take j)) ∧
      ∀ actions, reply.session.logAll actions = [] := by
  intro listing reply
  obtain ⟨_, hmessages, _⟩ := library.plan_of_settles h .blank n
  obtain ⟨houtcome, hlog, hstage, hworld⟩ := poll_ofNode library n (before ++ l :: after)
  obtain ⟨first, rest, hcues, hfirst⟩ :=
    Cue.exists_announce (library.plan .blank 0 n.agenda).cues j m (by rw [hmessages]; exact hm)
  rw [hmessages] at hfirst
  have hlast : Cue.messages first ++ [m] = listing.take (j + 1) := by
    rw [hfirst, List.take_add_one, hm]
    rfl
  have hcalls : Cue.calls first = library.calls (Message.begun (Cue.messages first)) :=
    (library.prospect_agenda .blank n).timely [] first m rest hcues
  obtain ⟨hends, hstate, hannounced, hcalled, hheard⟩ := play_of_panic first rest m before l after p
    (by rw [hlast]; exact hbefore) (by rw [hfirst]; exact hafter) (by rw [hlast]; exact hpanic)
  rw [← hcues] at hends hstate hannounced hcalled hheard
  rw [hends] at houtcome hstage
  refine ⟨houtcome, ?_, fun i hi => ?_, ?_, ?_, fun actions => ?_⟩
  · rw [hlog, hannounced, hlast]
  · rw [hlog, hheard i hi, hlast, hfirst]
  · rw [hworld, hstate, hlast, hfirst]
  · rw [hlog, hcalled, hcalls, hfirst]
  · exact reply.session.logAll_of_over actions hstage

end

/-- A listener that bears a number of messages and panics over the next. -/
structure Impatient where
  patience : Nat
  deriving DecidableEq, Repr, Inhabited

instance : Listener Impatient where
  notice _ l :=
    match l.patience with
    | 0 => ⟨l, [], some "enough"⟩
    | patience + 1 => .quiet ⟨patience⟩

/-- The third step is announced to two of three listeners, and its callback is not called. -/
theorem mixedTree_cut_short :
    let listing := mixedTree.listing obedientLibrary.results
    let reply := (Session.ofNode obedientLibrary mixedTree
      [(⟨100⟩ : Impatient), ⟨9⟩, ⟨9⟩]).poll
    obedientLibrary.Settles ∧ listing[9]? = some (.before (.step ⟨"* ", "go", 3, some "fail"⟩)) ∧
      Bear (listing.take 10) [(⟨100⟩ : Impatient)] ∧
      Bear (listing.take 9) [(⟨9⟩ : Impatient), ⟨9⟩] ∧
      (Listener.hearAll (listing.take 10) (⟨9⟩ : Impatient)).panic = some "enough" ∧
      reply.outcome = .panicked "enough" ∧
      Occurrence.messages reply.log = listing.take 10 ∧
      Occurrence.heardBy 1 reply.log = listing.take 10 ∧
      Occurrence.heardBy 2 reply.log = listing.take 9 ∧
      (Occurrence.calls reply.log).map (·.2) = [["panic"]] := by
  intro listing reply
  have hm : listing[9]? = some (.before (.step ⟨"* ", "go", 3, some "fail"⟩)) := by decide
  have hbefore : Bear (listing.take 10) [(⟨100⟩ : Impatient)] := by
    intro l hl
    obtain rfl := List.mem_singleton.mp hl
    decide
  have hafter : Bear (listing.take 9) [(⟨9⟩ : Impatient), ⟨9⟩] := by
    intro l hl
    obtain rfl : l = ⟨9⟩ := by simpa using hl
    decide
  have hpanic : (Listener.hearAll (listing.take 10) (⟨9⟩ : Impatient)).panic = some "enough" := by
    decide
  obtain ⟨houtcome, hmessages, hheard, _, hcalls, _⟩ := listener_panic_ends_walk obedientLibrary
    mixedTree [(⟨100⟩ : Impatient)] ⟨9⟩ [⟨9⟩] obedientLibrary_settles 9 _ "enough" hm hbefore
    hafter hpanic
  refine ⟨obedientLibrary_settles, hm, hbefore, hafter, hpanic, houtcome, hmessages,
    hheard 1 (by decide), hheard 2 (by decide), ?_⟩
  exact (congrArg (List.map Prod.snd) hcalls).trans (by decide)

end FeatureRun
