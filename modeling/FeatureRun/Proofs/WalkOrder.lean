import FeatureRun.Listener.Statistics
import FeatureRun.Pattern.Engine
import FeatureRun.Proofs.Prospect

namespace FeatureRun

universe u

/-- The callback has panicked, or else signalled its completion. -/
def Reaction.Settles (r : Reaction) : Prop := r.panic.isSome ∨ ∃ s, r.handling = .signalled s

/-- The result that such a callback gives its step. -/
def Reaction.result (r : Reaction) : StepResult :=
  match r.panic, r.handling with
  | some p, _ => .failed (.ofPayload p)
  | none, .signalled s => s.result
  | none, _ => .undefined

theorem Reaction.Settles.standing (r : Reaction) (h : r.Settles) :
    r.standing = .settled r.result := by
  rcases r with ⟨handling, _ | p⟩
  · rcases h with h | ⟨s, rfl⟩
    · exact absurd h (by simp)
    · rfl
  · rfl

namespace Library

/-- Every callback settles its step whenever it is called. -/
def Settles (library : Library) : Prop :=
  ∀ d ∈ library.definitions, ∀ arguments, (d.callback arguments).Settles

/-- The result of a step with the given name and doc string. -/
def result (library : Library) (name : String) (docString : Option String) : StepResult :=
  match library.lookup? name with
  | none => .undefined
  | some d => (d.invoke name docString).result

/-- The results of the steps of a walk, wherever they stand in it. -/
def results (library : Library) : Results := fun _ s => library.result s.name s.docString

variable (library : Library)

theorem standing_of_settles (h : library.Settles) (name : String) (docString : Option String) :
    library.standing name docString = .settled (library.result name docString) := by
  cases hl : library.lookup? name with
  | none => simp only [standing, result, hl]
  | some d =>
    have hd : d ∈ library.definitions := List.mem_of_find?_eq_some hl
    simp only [standing, result, hl]
    exact (h d hd _).standing

/-- A library that settles its steps makes a full plan of a tree, whatever the ledger tells. -/
theorem plan_of_settles (h : library.Settles) (F : Ledger) (n : Node) :
    let p := library.plan F 0 n.agenda
    p.todo = none ∧ Cue.messages p.cues = n.listing library.results ∧
      Cue.calls p.cues = library.calls n.steps := by
  have hgiven (s : Step) (now : Standing) :
      (library.standing s.name s.docString).given now =
        .settled (library.result s.name s.docString) := by
    rw [library.standing_of_settles h]
    rfl
  have hresults : ∀ k s x, (n.scenes.flatMap Scene.steps)[k]? = some s →
      (library.standings F 0 (n.scenes.flatMap Scene.steps))[k]? = some (.settled x) →
      library.results (0 + k) s = x := by
    intro k s x hs hx
    rw [library.standings_getElem?, hs, Option.map_some, hgiven] at hx
    exact Standing.settled.inj (Option.some.inj hx)
  have hnone : (library.standings F 0 (n.scenes.flatMap Scene.steps)).findIdx?
      (fun x => !x.isSettled) = none := by
    rw [List.findIdx?_eq_none_iff]
    intro x hx
    obtain ⟨k, hk⟩ := List.getElem?_of_mem hx
    rw [library.standings_getElem?] at hk
    obtain ⟨s, _, rfl⟩ := Option.map_eq_some_iff.mp hk
    rw [hgiven]
    rfl
  have hscenes := ((library.prospect_agenda F n).announces library.results 0 hresults).1 hnone
  rwa [n.flatMap_steps_scenes, ← n.listing_eq_scenes] at hscenes

end Library

/-- Listeners none of which panics over the messages. -/
def Bear {L : Type u} [Listener L] (ms : List Message) (listeners : List L) : Prop :=
  ∀ l ∈ listeners, (Listener.hearAll ms l).panic = none

section

variable {L : Type u} [Listener L]

/-- The first poll of a walk plays the plan of its tree. -/
theorem poll_ofNode (library : Library) (n : Node) (listeners : List L) :
    let p := library.plan .blank 0 n.agenda
    let e := play p.cues listeners
    let reply := (Session.ofNode library n listeners).poll
    reply.outcome = (p.ending e.panic).outcome ∧ reply.log = e.log ∧
      reply.session.stage = (p.ending e.panic).stage ∧ reply.session.desk.world = e.state := by
  obtain ⟨houtcome, hlog, hstage, hworld, _⟩ := Session.poll_eq_plan library .blank n.agenda
    (Session.ofNode library n listeners) rfl rfl rfl (fun _ _ => rfl)
    (fun _ hmem => n.fresh_agenda _ hmem)
  exact ⟨houtcome, hlog, hstage, hworld⟩

/-- Where every step is settled as it is called, the first poll is the last one, and is ready unless
a listener panics. -/
theorem poll_of_settles (library : Library) (h : library.Settles) (n : Node)
    (listeners : List L) :
    let e := play (library.plan .blank 0 n.agenda).cues listeners
    let reply := (Session.ofNode library n listeners).poll
    reply.session.stage = .over ∧ (reply.outcome = .ready ↔ e.panic = none) := by
  intro e reply
  obtain ⟨htodo, _⟩ := library.plan_of_settles h .blank n
  obtain ⟨houtcome, _, hstage, _⟩ := poll_ofNode library n listeners
  rw [houtcome, hstage]
  cases hpanic : e.panic with
  | none => simp only [Plan.ending, htodo, Ending.outcome, Ending.stage, true_and]
  | some p => exact ⟨rfl, iff_of_false (fun hready => Outcome.noConfusion hready) (by simp)⟩

/-- A walk whose steps are all settled as they are called ends with its first poll. It announces
the listing of its tree, every listener hears that, and no other message would be different if a
step had another result. -/
theorem walk_in_depth_first_order (library : Library) (n : Node) (listeners : List L)
    (h : library.Settles) (hbear : Bear (n.listing library.results) listeners) :
    let reply := (Session.ofNode library n listeners).poll
    reply.outcome = .ready ∧
      Occurrence.messages reply.log = n.listing library.results ∧
      (∀ i < listeners.length, Occurrence.heardBy i reply.log = n.listing library.results) ∧
      ∀ k s, n.steps[k]? = some s → ∃ before after, ∀ r : Results,
        (∀ j t, j ≠ k → n.steps[j]? = some t → r j t = library.results j t) →
          n.listing r = before ++ .result (r k s) :: after := by
  obtain ⟨_, hmessages, _⟩ := library.plan_of_settles h .blank n
  obtain ⟨_, hlog, _⟩ := poll_ofNode library n listeners
  obtain ⟨_, hpanic, hheard⟩ := play_of_no_panic (library.plan .blank 0 n.agenda).cues listeners
    (by rw [hmessages]; exact hbear)
  intro reply
  refine ⟨?_, ?_, fun i hi => ?_, fun k s hs => ?_⟩
  · exact (poll_of_settles library h n listeners).2.mpr hpanic
  · rw [hlog, messages_play _ _ hpanic, hmessages]
  · rw [hlog, hheard i hi, hmessages]
  · rw [← n.flatMap_steps_scenes] at hs ⊢
    obtain ⟨before, after, hlisting⟩ :=
      Scene.listing_isolates library.results 0 k s n.scenes hs
    refine ⟨before, after, fun r hr => ?_⟩
    have hagree := hlisting r fun j t hj ht => by
      rw [Nat.zero_add]
      exact hr j t hj ht
    rw [n.listing_eq_scenes, hagree, Nat.zero_add]

end

/-- Statistics bear whatever they hear. -/
theorem bear_statistics (ms : List Message) (all : List Statistics) : Bear ms all := by
  intro l hl
  clear hl
  induction ms generalizing l with
  | nil => rfl
  | cons m rest ih =>
    have hquiet : (Listener.hear m l).panic = none := by
      simp only [Listener.hear]
      cases m.notice? <;> rfl
    rw [Listener.hearAll_cons, Effect.andThen_of_no_panic _ _ hquiet]
    exact ih _

/-- A callback that keeps its completion and panics, or fails, if it is told to. -/
def obedient : List String → Reaction
  | ["panic"] => ⟨.kept, some (.text "as told")⟩
  | ["fail"] => ⟨.signalled (.fail "as told"), none⟩
  | _ => ⟨.signalled .done, none⟩

/-- A pattern that finds the letter g. -/
def Pattern.findsG : Pattern :=
  .ofProgram "g" 0 #[.mark 0, .read (.item (.range 'g' 'g')), .mark 1, .stop]

def obedientLibrary : Library := ⟨[⟨.findsG, 0, obedient⟩]⟩

def mixedScenario : Scenario :=
  { keyword := "Scenario", name := "mixed"
    steps := [⟨"* ", "go", 1, some "panic"⟩, ⟨"* ", "run", 2, none⟩, ⟨"* ", "go", 3, some "fail"⟩,
      ⟨"* ", "go on", 4, none⟩] }

def mixedTree : Node :=
  .features [
    { keyword := "Feature", name := "first", description := ""
      scenarios := [mixedScenario, { keyword := "Scenario", name := "empty" }] },
    { keyword := "Feature", name := "empty", description := "" }]

theorem obedientLibrary_settles : obedientLibrary.Settles := by
  intro d hd arguments
  obtain rfl := List.mem_singleton.mp hd
  show (obedient arguments).Settles
  unfold obedient
  split
  · exact Or.inl rfl
  · exact Or.inr ⟨_, rfl⟩
  · exact Or.inr ⟨_, rfl⟩

theorem mixedTree_walk :
    obedientLibrary.Settles ∧
      Bear (mixedTree.listing obedientLibrary.results) [({} : Statistics), {}] ∧
      let reply := (Session.ofNode obedientLibrary mixedTree [({} : Statistics), {}]).poll
      reply.outcome = .ready ∧
        Occurrence.messages reply.log = mixedTree.listing obedientLibrary.results ∧
        Occurrence.heardBy 1 reply.log = mixedTree.listing obedientLibrary.results ∧
        Message.results (mixedTree.listing obedientLibrary.results) =
          [.failed (.panicked "as told"), .undefined, .failed (.failed "as told"), .passed] := by
  have hbear : Bear (mixedTree.listing obedientLibrary.results) [({} : Statistics), {}] :=
    bear_statistics _ _
  obtain ⟨houtcome, hmessages, hheard, _⟩ := walk_in_depth_first_order obedientLibrary mixedTree
    [({} : Statistics), {}] obedientLibrary_settles hbear
  exact ⟨obedientLibrary_settles, hbear, houtcome, hmessages, hheard 1 (by decide), by decide⟩

end FeatureRun
