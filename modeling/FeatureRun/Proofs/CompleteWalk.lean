import FeatureRun.Listener.OutlineLog
import FeatureRun.Listener.ProgressLog
import FeatureRun.Listener.TagLog
import FeatureRun.Proofs.WalkOrder

namespace FeatureRun

universe u v

namespace Listener

class Steady (σ : Type u) [Listener σ] : Prop where
  no_panic (n : Notice) (s : σ) : (notice n s).panic = none
  hear_eq (m : Message) (s : σ) :
    hear m s = match m.notice? with
      | some n => notice n s
      | none => .quiet s

variable {σ : Type u} [Listener σ]

/-- The listener after notices taken one after another, if it does not panic over them. -/
def after (ns : List Notice) (s : σ) : σ := ns.foldl (fun s n => (notice n s).state) s

@[simp] theorem after_nil (s : σ) : after [] s = s := rfl

@[simp] theorem after_cons (n : Notice) (ns : List Notice) (s : σ) :
    after (n :: ns) s = after ns (notice n s).state := rfl

theorem after_append (a b : List Notice) (s : σ) : after (a ++ b) s = after b (after a s) :=
  List.foldl_append

/-- The notice a call amounts to, if it is one. -/
def Call.notice? : Call → Option Notice
  | .hear m => m.notice?
  | .notice n => some n

/-- The notices that calls amount to. -/
def heard (calls : List Call) : List Notice := calls.filterMap Call.notice?

theorem take_eq_of_steady [Steady σ] (c : Call) (s : σ) :
    take c s = match c.notice? with
      | some n => notice n s
      | none => .quiet s := by
  cases c with
  | notice n => rfl
  | hear m => exact Steady.hear_eq m s

theorem take_of_steady [Steady σ] (c : Call) (s : σ) :
    (take c s).panic = none ∧ (take c s).state = after c.notice?.toList s := by
  rw [take_eq_of_steady]
  cases c.notice? with
  | none => exact ⟨rfl, rfl⟩
  | some n => exact ⟨Steady.no_panic n s, rfl⟩

theorem takeAll_of_steady [Steady σ] (calls : List Call) (s : σ) :
    (takeAll calls s).panic = none ∧ (takeAll calls s).state = after (heard calls) s := by
  induction calls generalizing s with
  | nil => exact ⟨rfl, rfl⟩
  | cons c rest ih =>
    obtain ⟨hquiet, hstate⟩ := take_of_steady c s
    have hsplit : heard (c :: rest) = c.notice?.toList ++ heard rest := by
      cases h : c.notice? <;> simp [heard, h]
    rw [takeAll, Effect.andThen_of_no_panic _ _ hquiet, hstate, hsplit, after_append]
    exact ih _

theorem hearAll_of_steady [Steady σ] (ms : List Message) (s : σ) :
    (hearAll ms s).panic = none ∧
      (hearAll ms s).state = after (ms.filterMap Message.notice?) s := by
  have hheard : heard (ms.map .hear) = ms.filterMap Message.notice? := List.filterMap_map
  rw [← hheard]
  exact takeAll_of_steady _ s

/-- A listener of one kind among those of another hears as it would alone. -/
theorem hearAll_inl {τ : Type v} [Listener τ] (ms : List Message) (s : σ) :
    hearAll ms (.inl s : σ ⊕ τ) = (hearAll ms s).map .inl := by
  induction ms generalizing s with
  | nil => rfl
  | cons m rest ih =>
    have hone : hear m (.inl s : σ ⊕ τ) = (hear m s).map .inl := rfl
    have hpanic : (hear m (.inl s : σ ⊕ τ)).panic = (hear m s).panic := rfl
    rw [hearAll_cons, hearAll_cons]
    cases hp : (hear m s).panic with
    | some p =>
      rw [Effect.andThen_of_panic _ _ p (hpanic.trans hp), Effect.andThen_of_panic _ _ p hp, hone]
    | none =>
      rw [Effect.andThen_of_no_panic _ _ (hpanic.trans hp), Effect.andThen_of_no_panic _ _ hp, hone]
      simp only [Effect.map, ih]

end Listener

open Listener (Steady)

instance : Steady Statistics where
  no_panic _ _ := rfl
  hear_eq _ _ := rfl

theorem ProgressLog.logSummary_no_panic (p : ProgressLog) : p.logSummary.panic = none := by
  rw [logSummary_eq, logAll_eq]
  rfl

instance : Steady ProgressLog where
  no_panic n p := by
    cases n with
    | afterFeatures => exact p.logSummary_no_panic
    | _ => rfl
  hear_eq _ _ := rfl

theorem OutlineLog.logEntries_no_panic (es : List OutlineEntry) (p : OutlineLog) :
    (logEntries es p).panic = none := by
  induction es generalizing p with
  | nil => rfl
  | cons e rest ih =>
    rw [logEntries, Effect.andThen_of_no_panic (p.logEntry e) (logEntries rest) rfl]
    exact ih _

instance : Steady OutlineLog where
  no_panic n p := by
    cases n with
    | beforeFeature f => exact OutlineLog.logEntries_no_panic _ p
    | beforeScenario s =>
      show ((Effect.emit p (hookCalls p.hooks s)).andThen _).panic = none
      rw [Effect.andThen_of_no_panic _ _ rfl]
      exact OutlineLog.logEntries_no_panic _ p
    | stepResult r =>
      show (OutlineLog.take (.stepResult r) p).panic = none
      rw [OutlineLog.take]
      cases p.currentStep with
      | none => rfl
      | some s => exact OutlineLog.logEntries_no_panic _ _
    | _ => rfl
  hear_eq _ _ := rfl

instance : Steady TagLog where
  no_panic n t := by
    show (TagLog.take n t).panic = none
    rw [TagLog.take]
    split <;> rfl
  hear_eq _ _ := rfl

theorem filterMap_inTurn {α β γ : Type} (steps : α → List Step) (one : Nat → α → List β)
    (f : β → Option γ) (g : α → List γ) (h : ∀ i a, (one i a).filterMap f = g a) (i : Nat)
    (xs : List α) : (inTurn steps one i xs).filterMap f = xs.flatMap g := by
  induction xs generalizing i with
  | nil => rfl
  | cons a rest ih => rw [inTurn, List.filterMap_append, h, ih, List.flatMap_cons]

namespace Library

variable (library : Library)

def resultOf (s : Step) : StepResult := library.result s.name s.docString

def stepNotices (s : Step) : List Notice :=
  [.beforeStep s, .stepResult (library.resultOf s), .afterStep s]

def scenarioNotices (s : Scenario) : List Notice :=
  .beforeScenario s :: s.steps.flatMap library.stepNotices ++ [.afterScenario s]

def featureNotices (f : Feature) : List Notice :=
  .beforeFeature f :: f.scenarios.flatMap library.scenarioNotices ++ [.afterFeature f]

/-- What the messages of a walk amount to. -/
def notices (all : List Feature) : List Notice :=
  .beforeFeatures :: all.flatMap library.featureNotices ++ [.afterFeatures]

theorem filterMap_notice?_listing (all : List Feature) :
    ((Node.features all).listing library.results).filterMap Message.notice? =
      library.notices all := by
  have hstep (i : Nat) (s : Step) :
      (s.listing library.results i).filterMap Message.notice? = library.stepNotices s := rfl
  have hscenario (i : Nat) (s : Scenario) :
      (s.listing library.results i).filterMap Message.notice? = library.scenarioNotices s := by
    rw [Scenario.listing, List.cons_append, List.filterMap_cons, List.filterMap_append,
      filterMap_inTurn _ _ _ library.stepNotices hstep]
    rfl
  have hfeature (i : Nat) (f : Feature) :
      (f.listing library.results i).filterMap Message.notice? = library.featureNotices f := by
    rw [Feature.listing, List.cons_append, List.filterMap_cons, List.filterMap_append,
      filterMap_inTurn _ _ _ library.scenarioNotices hscenario]
    rfl
  rw [Node.listing, List.cons_append, List.filterMap_cons, List.filterMap_append,
    filterMap_inTurn _ _ _ library.featureNotices hfeature]
  rfl

/-- What is read off notices part by part, and off the borders of nodes not at all, is read off the
notices of features step by step. -/
theorem read_featureNotices {β : Type} (P : List Notice → List β → Prop) (g : Step → List β)
    (hnil : P [] []) (happend : ∀ a b xs ys, P a xs → P b ys → P (a ++ b) (xs ++ ys))
    (hscenario : ∀ s, P [.beforeScenario s] [] ∧ P [.afterScenario s] [])
    (hfeature : ∀ f, P [.beforeFeature f] [] ∧ P [.afterFeature f] [])
    (hstep : ∀ s, P (library.stepNotices s) (g s)) (all : List Feature) :
    P (all.flatMap library.featureNotices) ((Node.features all).steps.flatMap g) := by
  have hall {α : Type} (notices : α → List Notice) (read : α → List β)
      (h : ∀ a, P (notices a) (read a)) (xs : List α) :
      P (xs.flatMap notices) (xs.flatMap read) := by
    induction xs with
    | nil => exact hnil
    | cons a rest ih => exact happend _ _ _ _ (h a) ih
  have haround (n m : Notice) (ns : List Notice) (xs : List β) (hn : P [n] []) (hm : P [m] [])
      (h : P ns xs) : P (n :: ns ++ [m]) xs := by
    have hfront : P (n :: ns) xs := happend [n] ns [] xs hn h
    have hboth := happend _ _ _ _ hfront hm
    rwa [List.append_nil] at hboth
  have hscenarios (s : Scenario) : P (library.scenarioNotices s) (s.steps.flatMap g) :=
    haround _ _ _ _ (hscenario s).1 (hscenario s).2 (hall _ g hstep s.steps)
  have hfeatures (f : Feature) : P (library.featureNotices f) (f.steps.flatMap g) := by
    rw [Feature.steps, List.flatMap_assoc]
    exact haround _ _ _ _ (hfeature f).1 (hfeature f).2 (hall _ _ hscenarios f.scenarios)
  rw [Node.steps, List.flatMap_assoc]
  exact hall _ _ hfeatures all

/-- Some walk of the tree comes to its end with its first poll, and it leaves as `s'` the listener
`s` that hears it, alone or with others. -/
def Leaves {σ : Type} [Listener σ] (all : List Feature) (s s' : σ) : Prop :=
  ∃ (τ : Type) (_ : Listener τ) (listeners : List (σ ⊕ τ)) (i : Nat),
    let reply := (Session.ofNode library (.features all) listeners).poll
    reply.outcome = .ready ∧ listeners[i]? = some (.inl s) ∧
      reply.session.desk.world[i]? = some (.inl s')

/-- Where no listener panics, a walk is complete, and the listeners have heard the listing. -/
theorem poll_ready_iff {L : Type u} [Listener L] (h : library.Settles) (n : Node)
    (listeners : List L) :
    let reply := (Session.ofNode library n listeners).poll
    let listing := n.listing library.results
    (reply.outcome = .ready ↔ Bear listing listeners) ∧
      (Bear listing listeners →
        reply.session.desk.world = listeners.map fun l => (Listener.hearAll listing l).state) := by
  intro reply listing
  obtain ⟨_, hmessages, _⟩ := library.plan_of_settles h .blank n
  obtain ⟨_, _, _, hworld⟩ := poll_ofNode library n listeners
  obtain ⟨_, hpanic⟩ := poll_of_settles library h n listeners
  have hplay := play_of_no_panic (library.plan .blank 0 n.agenda).cues listeners
  rw [hmessages] at hplay
  refine ⟨⟨fun hready => ?_, fun hbear => ?_⟩, fun hbear => hworld.trans (hplay hbear).1⟩
  · have hbear := no_panic_of_play _ _ (hpanic.mp hready)
    rwa [hmessages] at hbear
  · exact hpanic.mpr (hplay hbear).2.1

/-- A complete walk leaves a steady listener as the notices of the tree do. -/
theorem leaves_iff {σ : Type} [Listener σ] [Steady σ] (h : library.Settles) (all : List Feature)
    (s s' : σ) : library.Leaves all s s' ↔ s' = Listener.after (library.notices all) s := by
  have hheard (τ : Type) [Listener τ] :
      (Listener.hearAll ((Node.features all).listing library.results) (.inl s : σ ⊕ τ)).state =
        .inl (Listener.after (library.notices all) s) := by
    rw [Listener.hearAll_inl, Effect.map, (Listener.hearAll_of_steady _ s).2,
      library.filterMap_notice?_listing all]
  constructor
  · rintro ⟨τ, _, listeners, i, hready, hs, hs'⟩
    obtain ⟨hiff, hworld⟩ := library.poll_ready_iff h (.features all) listeners
    rw [hworld (hiff.mp hready), List.getElem?_map, hs, Option.map_some, hheard τ] at hs'
    exact (Sum.inl.inj (Option.some.inj hs')).symm
  · rintro rfl
    have hbear : Bear ((Node.features all).listing library.results) [(.inl s : σ ⊕ σ)] := by
      intro l hl
      obtain rfl := List.mem_singleton.mp hl
      rw [Listener.hearAll_inl]
      exact (Listener.hearAll_of_steady _ s).1
    obtain ⟨hiff, hworld⟩ := library.poll_ready_iff h (.features all) [(.inl s : σ ⊕ σ)]
    refine ⟨σ, inferInstance, [.inl s], 0, hiff.mpr hbear, rfl, ?_⟩
    rw [hworld hbear, List.map_singleton, hheard σ]
    rfl

end Library

/-- Scenarios that fail, that are undefined, that have no steps and that pass, and a feature
without any. -/
def variedFeatures : List Feature :=
  [{ keyword := "Feature", name := "first", description := ""
     scenarios := [mixedScenario,
       { keyword := "Scenario", name := "vague"
         steps := [⟨"Given ", "run", 7, none⟩, ⟨"Then ", "go", 8, none⟩] },
       { keyword := "Scenario", name := "empty" }] },
    { keyword := "Feature", name := "second", description := "in two\nlines"
      scenarios := [{ keyword := "Scenario", name := "fine"
                      steps := [⟨"When ", "going", 12, some "left\n\nright"⟩] }] },
    { keyword := "Feature", name := "third", description := "" }]

end FeatureRun
