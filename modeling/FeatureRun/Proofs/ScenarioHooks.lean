import Mathlib.Data.List.Infix
import FeatureRun.Proofs.HookedLog
import FeatureRun.Proofs.Independence

namespace FeatureRun

universe v

open Hooked (hooks unhooked)

/-- A scenario that begins, or a callback that is called. -/
inductive Milestone
  | opened (s : Scenario)
  | called (d : StepDefinition) (arguments : List String)

def Milestone.opened? : Milestone → Option Scenario
  | .opened s => some s
  | .called .. => none

def Cue.milestone? : Cue → Option Milestone
  | .announce m => m.opens?.map .opened
  | .invoke d s => some (.called d (d.arguments s.name s.docString))
  | _ => none

def Cue.milestones (cues : List Cue) : List Milestone := cues.filterMap milestone?

theorem Cue.milestones_append (a b : List Cue) : milestones (a ++ b) = milestones a ++ milestones b :=
  List.filterMap_append

theorem Cue.milestones_of_silent (cues : List Cue) (hmessages : messages cues = [])
    (hcalls : calls cues = []) : milestones cues = [] := by
  rw [messages, List.filterMap_eq_nil_iff] at hmessages
  rw [calls, List.filterMap_eq_nil_iff] at hcalls
  rw [milestones, List.filterMap_eq_nil_iff]
  intro c hc
  cases c with
  | announce m => exact absurd (hmessages _ hc) (Option.some_ne_none m)
  | invoke d s => exact absurd (hcalls _ hc) (Option.some_ne_none _)
  | _ => rfl

namespace Library

variable (library : Library)

def stepMilestones (s : Step) : List Milestone :=
  (library.callsOf s).map fun call => .called call.1 call.2

def scenarioMilestones (s : Scenario) : List Milestone :=
  .opened s :: s.steps.flatMap library.stepMilestones

def sceneMilestones : Scene → List Milestone
  | .border .opening (.scenario s) => [.opened s]
  | .border .. => []
  | .step s => library.stepMilestones s

theorem milestones_border (side : Border) (b : Branch) :
    Cue.milestones [.announce (side.message b.node)] = library.sceneMilestones (.border side b) := by
  cases side <;> cases b <;> rfl

theorem milestones_cue (s : Step) : Cue.milestones [library.cue s] = library.stepMilestones s := by
  cases h : library.lookup? s.name <;>
    simp [Cue.milestones, Cue.milestone?, cue, stepMilestones, callsOf, h]

theorem milestones_stepCues (s : Step) (r : StepResult) :
    Cue.milestones (library.stepCues s r) = library.stepMilestones s := by
  have hresult : Cue.milestones (Cue.ofResult r) = [] := by cases r <;> rfl
  have hcues : library.stepCues s r =
      [.announce (.before (.step s))] ++ [library.cue s] ++ Cue.ofResult r ++
        [.announce (.after (.step s))] := rfl
  rw [hcues, Cue.milestones_append, Cue.milestones_append, Cue.milestones_append,
    library.milestones_cue, hresult, List.append_nil]
  exact List.append_nil _

theorem sceneMilestones_around (b : Branch) (inner : List Scene) :
    (Scene.around b inner).flatMap library.sceneMilestones =
      library.sceneMilestones (.border .opening b) ++ inner.flatMap library.sceneMilestones := by
  have hclosing : library.sceneMilestones (.border .closing b) = [] := by cases b <;> rfl
  simp only [Scene.around, List.cons_append, List.flatMap_cons, List.flatMap_append, hclosing,
    List.flatMap_nil, List.append_nil]

theorem flatMap_sceneMilestones (all : List Feature) :
    (Node.features all).scenes.flatMap library.sceneMilestones =
      (all.flatMap Feature.scenarios).flatMap library.scenarioMilestones := by
  have hscenario (s : Scenario) :
      (Scene.ofScenario s).flatMap library.sceneMilestones = library.scenarioMilestones s := by
    rw [Scene.ofScenario, sceneMilestones_around, List.flatMap_map]
    rfl
  have hfeature (f : Feature) : (Scene.ofFeature f).flatMap library.sceneMilestones =
      f.scenarios.flatMap library.scenarioMilestones := by
    rw [Scene.ofFeature, sceneMilestones_around, List.flatMap_assoc]
    simp only [hscenario]
    rfl
  rw [Node.scenes, sceneMilestones_around, List.flatMap_assoc, List.flatMap_assoc]
  simp only [hfeature]
  rfl

end Library

/-- A plan comes by the milestones of its scenes in their order, and by all of them if it comes to
its end. -/
theorem Prospect.milestones {library : Library} {F : Ledger} {c : Nat} {scenes : List Scene}
    {p : Plan} (hp : Prospect library F c scenes p) :
    Cue.milestones p.cues <+: scenes.flatMap library.sceneMilestones ∧
      (p.todo = none → Cue.milestones p.cues = scenes.flatMap library.sceneMilestones) := by
  induction hp with
  | nil c => exact ⟨List.nil_prefix, fun _ => rfl⟩
  | border c side b rest p _ ih =>
    rw [Plan.after, Cue.milestones_append, library.milestones_border, List.flatMap_cons]
    exact ⟨(List.prefix_append_right_inj _).mpr ih.1, fun h => by rw [ih.2 h]⟩
  | settled c s x rest p _ _ ih =>
    rw [Plan.after, Cue.milestones_append, library.milestones_stepCues, List.flatMap_cons]
    exact ⟨(List.prefix_append_right_inj _).mpr ih.1, fun h => by rw [ih.2 h]; rfl⟩
  | held c s rest cues t _ hmessages hcalls _ =>
    have hcues : Cue.announce (.before (.step s)) :: library.cue s :: cues =
        [.announce (.before (.step s))] ++ ([library.cue s] ++ cues) := rfl
    rw [hcues, Cue.milestones_append, Cue.milestones_append, library.milestones_cue,
      Cue.milestones_of_silent cues hmessages hcalls, List.append_nil, List.flatMap_cons]
    exact ⟨List.prefix_append _ _, fun h => absurd h (Option.some_ne_none _)⟩

/-- The beginning of a sequence of blocks ends behind the head of the last one it comes to. -/
theorem prefix_of_blocks {α β : Type} (head : α → β) (tail : α → List β) (xs : List α)
    (p : List β) (h : p <+: xs.flatMap fun x => head x :: tail x) :
    p = [] ∨ ∃ earlier x later t, xs = earlier ++ x :: later ∧ t <+: tail x ∧
      p = (earlier.flatMap fun x => head x :: tail x) ++ head x :: t := by
  induction xs generalizing p with
  | nil => exact Or.inl (List.prefix_nil.mp h)
  | cons x rest ih =>
    rw [List.flatMap_cons, List.cons_append, List.prefix_cons_iff] at h
    rcases h with rfl | ⟨q, rfl, hq⟩
    · exact Or.inl rfl
    refine Or.inr ?_
    rcases List.prefix_or_prefix_of_prefix hq (List.prefix_append _ _) with hin | ⟨r, rfl⟩
    · exact ⟨[], x, rest, q, rfl, hin, rfl⟩
    rcases ih r ((List.prefix_append_right_inj _).mp hq) with
      rfl | ⟨earlier, y, later, t, hrest, ht, rfl⟩
    · exact ⟨[], x, rest, tail x, rfl, List.prefix_refl _, by rw [List.append_nil]; rfl⟩
    · refine ⟨x :: earlier, y, later, t, by rw [hrest]; rfl, ht, ?_⟩
      rw [List.flatMap_cons, List.append_assoc]
      rfl

/-- A call of something the user has given: a hook, or the callback of a definition. -/
inductive UserCall
  | hook (number : Nat) (s : Scenario)
  | step (d : StepDefinition) (arguments : List String)

namespace UserCall

/-- Every hook for one scenario, in the order of registration. -/
def ofHooks (hooks : Nat) (s : Scenario) : List UserCall := (List.range hooks).map (.hook · s)

def ofMilestone (hooks : Nat) : Milestone → List UserCall
  | .opened s => ofHooks hooks s
  | .called d arguments => [.step d arguments]

end UserCall

namespace Occurrence

def userCall? (k : Nat) : Occurrence → Option UserCall
  | .called d arguments => some (.step d arguments)
  | .emitted i (.hookCalled number s) => if i = k then some (.hook number s) else none
  | _ => none

/-- The calls of the hooks of one listener and of step callbacks, in one order. -/
def userCalls (k : Nat) (log : List Occurrence) : List UserCall := log.filterMap (userCall? k)

theorem userCall?_emitted (k i : Nat) (e : Emission) :
    userCall? k (.emitted i e) =
      if i = k then e.hookCall?.map fun call => .hook call.1 call.2 else none := by
  cases e <;> simp [userCall?, Emission.hookCall?]

end Occurrence

namespace Library

variable (library : Library)

/-- The calls of a step, if a definition matches it. -/
def stepCalls (s : Step) : List UserCall := (library.callsOf s).map fun call => .step call.1 call.2

/-- The calls of a scenario: first every hook, then those of its steps. -/
def scenarioCalls (hooks : Nat) (s : Scenario) : List UserCall :=
  UserCall.ofHooks hooks s ++ s.steps.flatMap library.stepCalls

theorem flatMap_stepMilestones (hooks : Nat) (s : Step) :
    (library.stepMilestones s).flatMap (UserCall.ofMilestone hooks) = library.stepCalls s := by
  rw [stepMilestones, List.flatMap_map]
  exact (List.map_eq_flatMap ..).symm

theorem flatMap_scenarioMilestones (hooks : Nat) (s : Scenario) :
    (library.scenarioMilestones s).flatMap (UserCall.ofMilestone hooks) =
      library.scenarioCalls hooks s := by
  simp only [scenarioMilestones, List.flatMap_cons, List.flatMap_assoc, flatMap_stepMilestones]
  rfl

theorem opened?_stepMilestones (steps : List Step) :
    (steps.flatMap library.stepMilestones).filterMap Milestone.opened? = [] := by
  rw [List.filterMap_eq_nil_iff]
  intro milestone hmem
  obtain ⟨s, _, hs⟩ := List.mem_flatMap.mp hmem
  obtain ⟨call, _, rfl⟩ := List.mem_map.mp hs
  rfl

theorem opened?_scenarioMilestones (scenarios : List Scenario) :
    (scenarios.flatMap library.scenarioMilestones).filterMap Milestone.opened? = scenarios := by
  induction scenarios with
  | nil => rfl
  | cons s rest ih =>
    have hopened : (Milestone.opened s).opened? = some s := rfl
    rw [List.flatMap_cons, List.filterMap_append, ih, scenarioMilestones,
      List.filterMap_cons_some hopened, opened?_stepMilestones]
    rfl

end Library

theorem opens?_messages (cues : List Cue) :
    (Cue.messages cues).filterMap Message.opens? =
      (Cue.milestones cues).filterMap Milestone.opened? := by
  rw [Cue.messages, Cue.milestones, List.filterMap_filterMap, List.filterMap_filterMap]
  apply List.filterMap_congr
  intro c _
  cases c with
  | announce m => cases h : m.opens? <;> simp [Cue.message?, Cue.milestone?, Milestone.opened?, h]
  | _ => rfl

/-- To those who look for the calls of one listener, no other shows anything. -/
theorem userCall?_hearing {L : Type u} [Listener L] (i k : Nat) (m : Message) (l : L) :
    (hearing k m l).filterMap (Occurrence.userCall? i) =
      if k = i then
        ((Listener.hear m l).log.filterMap Emission.hookCall?).map fun call => .hook call.1 call.2
      else [] := by
  have hemitted : Occurrence.userCall? i ∘ Occurrence.emitted k = fun e : Emission =>
      if k = i then e.hookCall?.map fun call => .hook call.1 call.2 else none :=
    funext fun e => Occurrence.userCall?_emitted i k e
  rw [hearing, List.filterMap_cons_none rfl, List.filterMap_map, hemitted]
  by_cases hk : k = i
  · simp only [if_pos hk, List.map_filterMap]
  · simp only [if_neg hk]
    exact List.filterMap_eq_nil_iff.mpr fun _ _ => rfl

section

variable {τ : Type v} [Listener τ]

theorem hookCalls_hear (before : List Message) (m : Message) (l : HookedLog) :
    ((Listener.hear m (Listener.hearAll before (.inl l : HookedLog ⊕ τ)).state).log.filterMap
        Emission.hookCall?).map (fun call => UserCall.hook call.1 call.2) =
      m.opens?.toList.flatMap (UserCall.ofHooks (hooks l)) := by
  have hlog : (Listener.hear m (Listener.hearAll before (.inl l : HookedLog ⊕ τ)).state).log =
      (Listener.hear m (Listener.hearAll before l).state).log := by
    rw [Listener.hearAll_inl]
    rfl
  rw [hlog, (HookedLog.callsHooks_hear m).calls, (HookedLog.callsHooks_hearAll before).hooks_state,
    hookCallsFor, List.map_flatMap]
  simp only [List.map_map]
  rfl

/-- The calls that a script leads to are those at its milestones. -/
theorem userCalls_play (cues : List Cue) (ls : List (HookedLog ⊕ τ))
    (hbear : Bear (Cue.messages cues) ls) (i : Nat) (l : HookedLog)
    (hl : ls[i]? = some (.inl l)) :
    Occurrence.userCalls i (play cues ls).log =
      (Cue.milestones cues).flatMap (UserCall.ofMilestone (hooks l)) := by
  have hi : i < ls.length := (List.getElem?_eq_some_iff.mp hl).1
  have hshown (k : Nat) (l' : HookedLog ⊕ τ) (hl' : ls[k]? = some l') (before : List Message)
      (m : Message) (after : List Message) (_ : Cue.messages cues = before ++ m :: after) :
      (hearing k m (Listener.hearAll before l').state).filterMap (Occurrence.userCall? i) =
        if k = i then m.opens?.toList.flatMap (UserCall.ofHooks (hooks l)) else [] := by
    rw [userCall?_hearing]
    by_cases hk : k = i
    · subst hk
      obtain rfl : l' = .inl l := Option.some.inj (hl'.symm.trans hl)
      rw [if_pos rfl, if_pos rfl, hookCalls_hear]
    · rw [if_neg hk, if_neg hk]
  rw [Occurrence.userCalls, filterMap_play_of_bear _ _ cues ls hbear hshown, Cue.milestones,
    List.filterMap_eq_flatMap_toList, List.flatMap_assoc]
  apply List.flatMap_congr
  intro c _
  simp only [flatMap_range_ite _ i _ hi]
  cases c with
  | announce m =>
    cases h : m.opens? <;>
      simp [Cue.log, Cue.message?, Cue.milestone?, Occurrence.userCall?, UserCall.ofMilestone, h]
  | _ => rfl

/-- What a walk has called when it has come by some of the milestones of its scenarios. -/
theorem calls_of_milestones (library : Library) (hooks : Nat) (scenarios : List Scenario)
    (p : List Milestone) (hp : p <+: scenarios.flatMap library.scenarioMilestones) :
    let reached := p.filterMap Milestone.opened?
    let calls := p.flatMap (UserCall.ofMilestone hooks)
    reached <+: scenarios ∧
      (reached = [] ∧ calls = [] ∨
        ∃ earlier s called, reached = earlier ++ [s] ∧
          called <+: s.steps.flatMap library.stepCalls ∧
          calls = earlier.flatMap (library.scenarioCalls hooks) ++
            (UserCall.ofHooks hooks s ++ called)) := by
  rcases prefix_of_blocks Milestone.opened (fun s => s.steps.flatMap library.stepMilestones)
    scenarios p hp with rfl | ⟨earlier, s, later, t, rfl, ht, rfl⟩
  · exact ⟨List.nil_prefix, Or.inl ⟨rfl, rfl⟩⟩
  have hnone : t.filterMap Milestone.opened? = [] := by
    have hsteps := ht.filterMap Milestone.opened?
    rwa [library.opened?_stepMilestones, List.prefix_nil] at hsteps
  have hcalled : t.flatMap (UserCall.ofMilestone hooks) <+:
      s.steps.flatMap library.stepCalls := by
    have hsteps := ht.flatMap (UserCall.ofMilestone hooks)
    simpa only [List.flatMap_assoc, library.flatMap_stepMilestones] using hsteps
  have hopened : (Milestone.opened s).opened? = some s := rfl
  have hreached : ((earlier.flatMap library.scenarioMilestones) ++ .opened s :: t).filterMap
      Milestone.opened? = earlier ++ [s] := by
    rw [List.filterMap_append, library.opened?_scenarioMilestones,
      List.filterMap_cons_some hopened, hnone]
  have hcalls : ((earlier.flatMap library.scenarioMilestones) ++ .opened s :: t).flatMap
      (UserCall.ofMilestone hooks) = earlier.flatMap (library.scenarioCalls hooks) ++
        (UserCall.ofHooks hooks s ++ t.flatMap (UserCall.ofMilestone hooks)) := by
    simp only [List.flatMap_append, List.flatMap_assoc, library.flatMap_scenarioMilestones,
      List.flatMap_cons]
    rfl
  intro reached calls
  refine ⟨?_, Or.inr ⟨earlier, s, _, hreached, hcalled, hcalls⟩⟩
  rw [show reached = earlier ++ [s] from hreached]
  exact ⟨later, List.append_assoc ..⟩

/-- The calls of a walk, of the hooks of one listener and of callbacks: every scenario begun so far
has had each hook called for it once, behind all calls of the scenarios before it and in front of
those of its own steps, and no other scenario has. Without hooks, the walk is the same, and so is
all else about the listener. -/
theorem hooks_called_before_steps (library : Library) (all : List Feature)
    (listeners : List (HookedLog ⊕ τ)) (i : Nat) (l : HookedLog)
    (hl : listeners[i]? = some (.inl l))
    (hbear : ∀ r, Bear ((Node.features all).listing r) listeners) (actions : List Action)
    (ha : .abandon ∉ actions) :
    let walk := Session.ofNode library (.features all) listeners
    let log := walk.logAll actions
    let scenarios := all.flatMap Feature.scenarios
    let reached := (Occurrence.messages log).filterMap Message.opens?
    let calls := Occurrence.userCalls i log
    let walk' := Session.ofNode library (.features all) (listeners.set i (.inl (unhooked l)))
    reached <+: scenarios ∧
      (reached = [] ∧ calls = [] ∨
        ∃ earlier s called, reached = earlier ++ [s] ∧
          called <+: s.steps.flatMap library.stepCalls ∧
          calls = earlier.flatMap (library.scenarioCalls (hooks l)) ++
            (UserCall.ofHooks (hooks l) s ++ called)) ∧
      (.ready ∈ walk.outcomes actions →
        reached = scenarios ∧ calls = scenarios.flatMap (library.scenarioCalls (hooks l))) ∧
      walk.outcomes actions = walk'.outcomes actions ∧
      Occurrence.own log = Occurrence.own (walk'.logAll actions) ∧
      ∃ l', (walk.after actions).desk.world[i]? = some (.inl l') ∧
        (walk'.after actions).desk.world[i]? = some (.inl (unhooked l')) := by
  intro walk log scenarios reached calls walk'
  have hwalk := undisturbed_walk library (.features all) listeners hbear actions ha
  obtain ⟨F, told, htold, hplay, hwhole⟩ := hwalk.played
  have hpanic : (play told listeners).panic = none := by rw [hplay]
  have hreached : reached = (Cue.milestones told).filterMap Milestone.opened? := by
    have hmessages := messages_play told listeners hpanic
    rw [hplay] at hmessages
    rw [← opens?_messages, ← hmessages]
  have hcalls : calls = (Cue.milestones told).flatMap (UserCall.ofMilestone (hooks l)) := by
    have hall := userCalls_play told listeners (no_panic_of_play told listeners hpanic) i l hl
    rwa [hplay] at hall
  obtain ⟨hplan, hplanned⟩ := (library.prospect_agenda F (.features all)).milestones
  rw [library.flatMap_sceneMilestones] at hplan hplanned
  have hcome : Cue.milestones told <+: scenarios.flatMap library.scenarioMilestones :=
    (htold.filterMap Cue.milestone?).trans hplan
  obtain ⟨hscenarios, hblocks⟩ := calls_of_milestones library (hooks l) scenarios _ hcome
  rw [hreached, hcalls]
  refine ⟨hscenarios, hblocks, fun hready => ?_, ?_⟩
  · obtain ⟨hcues, htodo⟩ := hwhole hready
    rw [hcues, hplanned htodo, library.opened?_scenarioMilestones, List.flatMap_assoc]
    simp only [library.flatMap_scenarioMilestones]
    exact ⟨rfl, rfl⟩
  · have hbear' (r : Results) : Bear ((Node.features all).listing r)
        (listeners.set i (.inl (unhooked l))) := by
      intro l' hl'
      rcases List.mem_or_eq_of_mem_set hl' with hmem | rfl
      · exact hbear r l' hmem
      · rw [Listener.hearAll_inl]
        exact (HookedLog.callsHooks_hearAll _).calm _
    obtain ⟨houtcomes, hown⟩ := alike_walks library (.features all) listeners _ hbear hbear'
      actions ha
    have hmessages := Occurrence.messages_eq_of_own hown
    have hi : i < listeners.length := (List.getElem?_eq_some_iff.mp hl).1
    obtain ⟨hworld, _⟩ := hwalk.heard_inl i l hl
    obtain ⟨hworld', _⟩ := (undisturbed_walk library (.features all) _ hbear' actions ha).heard_inl
      i (unhooked l) (List.getElem?_set_self hi)
    rw [← hmessages, (HookedLog.callsHooks_hearAll _).state_unhooked] at hworld'
    exact ⟨houtcomes, hown, _, hworld, hworld'⟩

end

/-- A scenario without steps, one that is held up by its first, and one behind it. -/
def hookedFeatures : List Feature :=
  [{ keyword := "Feature", name := "hooked", description := ""
     scenarios := [{ keyword := "Scenario", name := "empty" },
       { keyword := "Scenario", name := "held up"
         steps := [⟨"* ", "go", 1, some "keep"⟩, ⟨"* ", "go", 2, none⟩] },
       { keyword := "Scenario", name := "later", steps := [⟨"* ", "go", 3, none⟩] }] }]

/-- Statistics, and behind them a progress log with two hooks. -/
def hookedListeners : List (HookedLog ⊕ Statistics) := [.inr {}, .inl (.inl { hooks := 2 })]

/-- The second poll finds the walk where the first has left it, and calls nothing. -/
theorem hookedFeatures_held_up :
    let walk := Session.ofNode keepingLibrary (.features hookedFeatures) hookedListeners
    let calls := Occurrence.userCalls 1 (walk.logAll [.poll, .poll])
    hookedListeners[1]? = some (.inl (.inl { hooks := 2 })) ∧
      (∀ r, Bear ((Node.features hookedFeatures).listing r) hookedListeners) ∧
      .abandon ∉ [Action.poll, .poll] ∧
      ((Occurrence.messages (walk.logAll [.poll, .poll])).filterMap Message.opens?).map
        (·.name) = ["empty", "held up"] ∧
      calls.map (fun call => match call with
        | .hook number s => (number, s.name)
        | .step d _ => (d.label, "callback")) =
        [(0, "empty"), (1, "empty"), (0, "held up"), (1, "held up"), (0, "callback")] ∧
      ∃ earlier s called,
        (Occurrence.messages (walk.logAll [.poll, .poll])).filterMap Message.opens? =
          earlier ++ [s] ∧
        called <+: s.steps.flatMap keepingLibrary.stepCalls ∧
        calls = earlier.flatMap (keepingLibrary.scenarioCalls 2) ++
          (UserCall.ofHooks 2 s ++ called) := by
  have hbear (r : Results) : Bear ((Node.features hookedFeatures).listing r) hookedListeners :=
    bear_of_steady _ _
  have habandon : .abandon ∉ [Action.poll, .poll] := by decide
  have hreached : ((Occurrence.messages ((Session.ofNode keepingLibrary (.features hookedFeatures)
      hookedListeners).logAll [.poll, .poll])).filterMap Message.opens?).map (·.name) =
      ["empty", "held up"] := by decide +kernel
  obtain ⟨_, hcalls, _⟩ := hooks_called_before_steps keepingLibrary hookedFeatures hookedListeners
    1 (.inl { hooks := 2 }) rfl hbear [.poll, .poll] habandon
  refine ⟨rfl, hbear, habandon, hreached, by decide +kernel, ?_⟩
  rcases hcalls with ⟨hnone, _⟩ | hsome
  · rw [hnone] at hreached
    exact absurd hreached (by decide)
  · exact hsome

end FeatureRun
