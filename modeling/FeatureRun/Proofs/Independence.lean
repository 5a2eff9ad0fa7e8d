import FeatureRun.Proofs.Audience
import FeatureRun.Proofs.Simulation

namespace FeatureRun

universe u v w

namespace Occurrence

/-- An occurrence that is not the hearing of a message. -/
def own? : Occurrence → Option Occurrence
  | .handed .. => none
  | .emitted .. => none
  | o => some o

/-- What a run does by itself, in order. -/
def own (log : List Occurrence) : List Occurrence := log.filterMap own?

theorem messages_eq_of_own {a b : List Occurrence} (h : own a = own b) :
    messages a = messages b :=
  filterMap_eq_of_view h _ fun o => by cases o <;> rfl

theorem calls_eq_of_own {a b : List Occurrence} (h : own a = own b) : calls a = calls b :=
  filterMap_eq_of_view h _ fun o => by cases o <;> rfl

end Occurrence

open Occurrence (own)

section

variable {L : Type u} [Listener L] {L' : Type v} [Listener L'] (library : Library)

theorem own_broadcast (m : Message) (ls : List L) :
    own (broadcast m ls).log = [.traced (.broadcasting m)] := by
  have htold : own (tell m 0 ls).log = [] :=
    filterMap_tell Occurrence.own? (fun _ _ => rfl) (fun _ _ => rfl) m 0 ls
  exact congrArg (.traced (.broadcasting m) :: ·) htold

theorem own_announceResult (r : StepResult) (ls : List L) (ls' : List L') :
    own (announceResult r ls).log = own (announceResult r ls').log := by
  have hsame : own (broadcast (.result r) ls).log = own (broadcast (.result r) ls').log := by
    rw [own_broadcast, own_broadcast]
  simp only [announceResult]
  cases r.error? with
  | none => exact hsame
  | some e => exact congrArg (.traced (.stepFailed e) :: ·) hsame

/-- Two walks that their listeners bear do and lead to the same. -/
theorem alike_walks (n : Node) (listeners : List L) (listeners' : List L')
    (hbear : ∀ r, Bear (n.listing r) listeners) (hbear' : ∀ r, Bear (n.listing r) listeners')
    (actions : List Action) (ha : .abandon ∉ actions) :
    let walk := Session.ofNode library n listeners
    let walk' := Session.ofNode library n listeners'
    walk.outcomes actions = walk'.outcomes actions ∧
      own (walk.logAll actions) = own (walk'.logAll actions) := by
  intro walk walk'
  have hborder (m : Message) (ls : List L) (ls' : List L') :
      own (broadcast m ls).log = own (broadcast m ls').log := by
    rw [own_broadcast, own_broadcast]
  have hvisitor : Visitor.Mirrors (fun (_ : List L) (_ : List L') => True) Occurrence.own? False
      (fun _ => True) library.visitor library.visitor :=
    { enter := fun _ ls ls' _ => ⟨trivial, hborder _ ls ls', False.elim⟩
      leave := fun _ ls ls' _ => ⟨trivial, hborder _ ls ls', False.elim⟩
      conclude := fun r ls ls' _ => ⟨trivial, own_announceResult r ls ls', False.elim⟩
      found := fun _ _ => rfl
      looked := fun _ _ => rfl }
  have hstart : Session.Mirrors _ Occurrence.own? False _ walk walk' :=
    .ofNode n hvisitor trivial fun t _ => t.within_all
  have hcalm := (undisturbed_walk library n listeners hbear actions ha).calm
  have hcalm' := (undisturbed_walk library n listeners' hbear' actions ha).calm
  obtain ⟨houtcomes, hlog, _⟩ := hstart.after actions (Or.inr ⟨hcalm, hcalm'⟩)
  exact ⟨houtcomes, hlog⟩

end

section

variable {σ : Type u} {τ : Type v} {τ' : Type w} [Listener σ] [Listener τ] [Listener τ']

/-- Two walks with different listeners, to which the same is done, do and lead to the same. A
listener that both have, wherever it is attached, comes to the same in both, which is what it makes
of the messages broadcast so far. Message by message, all are told in the order of attachment. -/
theorem walk_independent_of_listeners (library : Library) (n : Node) (listeners : List (σ ⊕ τ))
    (listeners' : List (σ ⊕ τ')) (hbear : ∀ r, Bear (n.listing r) listeners)
    (hbear' : ∀ r, Bear (n.listing r) listeners') (actions : List Action)
    (ha : .abandon ∉ actions) :
    let walk := Session.ofNode library n listeners
    let walk' := Session.ofNode library n listeners'
    let log := walk.logAll actions
    let log' := walk'.logAll actions
    let heard := Occurrence.messages log
    walk.outcomes actions = walk'.outcomes actions ∧
      Occurrence.own log = Occurrence.own log' ∧
      heard = Occurrence.messages log' ∧
      Occurrence.calls log = Occurrence.calls log' ∧
      (∀ i j l, listeners[i]? = some (.inl l) → listeners'[j]? = some (.inl l) →
        (walk.after actions).desk.world[i]? = some (.inl (Listener.hearAll heard l).state) ∧
          (walk'.after actions).desk.world[j]? = some (.inl (Listener.hearAll heard l).state) ∧
          Occurrence.heardBy i log = heard ∧ Occurrence.heardBy j log' = heard ∧
          Occurrence.emissionsOf i log = (Listener.hearAll heard l).log ∧
          Occurrence.emissionsOf j log' = (Listener.hearAll heard l).log) ∧
      Occurrence.deliveries log =
        heard.flatMap fun m => (List.range listeners.length).map (·, m) := by
  intro walk walk' log log' heard
  obtain ⟨houtcomes, hown⟩ :=
    alike_walks library n listeners listeners' hbear hbear' actions ha
  have hmessages : heard = Occurrence.messages log' := Occurrence.messages_eq_of_own hown
  have hcalls : Occurrence.calls log = Occurrence.calls log' := Occurrence.calls_eq_of_own hown
  have hwalk := undisturbed_walk library n listeners hbear actions ha
  have hwalk' := undisturbed_walk library n listeners' hbear' actions ha
  obtain ⟨_, _, hdeliveries⟩ := hwalk.heard
  refine ⟨houtcomes, hown, hmessages, hcalls, fun i j l hi hj => ?_, hdeliveries⟩
  obtain ⟨hworld, hby, hemitted⟩ := hwalk.heard_inl i l hi
  obtain ⟨hworld', hby', hemitted'⟩ := hwalk'.heard_inl j l hj
  rw [← hmessages] at hworld' hby' hemitted'
  exact ⟨hworld, hworld', hby, hby', hemitted, hemitted'⟩

end

def behindProgress : List (Statistics ⊕ ProgressLog) := [.inr {}, .inl {}]

def beforeOutline : List (Statistics ⊕ OutlineLog) := [.inl {}, .inr {}]

/-- A walk suspended for the second time: behind a progress log or before an outline log, statistics
have counted the same two steps. -/
theorem keepingTree_counted_alike :
    let actions := [Action.poll, .signal 0 (.fail "late"), .poll]
    let walk := Session.ofNode keepingLibrary keepingTree behindProgress
    let walk' := Session.ofNode keepingLibrary keepingTree beforeOutline
    let counted : Statistics :=
      { steps := { undefined := 1, failed := 1 }, current := some (.failed (.failed "late")) }
    (∀ r, Bear (keepingTree.listing r) behindProgress) ∧
      (∀ r, Bear (keepingTree.listing r) beforeOutline) ∧ .abandon ∉ actions ∧
      walk.outcomes actions = [.pending, .signalled, .pending] ∧
      walk'.outcomes actions = [.pending, .signalled, .pending] ∧
      (walk.after actions).desk.world[1]? = some (.inl counted) ∧
      (walk'.after actions).desk.world[0]? = some (.inl counted) := by
  have hbear (r : Results) : Bear (keepingTree.listing r) behindProgress := bear_of_steady _ _
  have hbear' (r : Results) : Bear (keepingTree.listing r) beforeOutline := bear_of_steady _ _
  have habandon : .abandon ∉ [Action.poll, .signal 0 (.fail "late"), .poll] := by decide
  obtain ⟨houtcomes, _, _, _, hcommon, _⟩ := walk_independent_of_listeners keepingLibrary
    keepingTree behindProgress beforeOutline hbear hbear' _ habandon
  obtain ⟨hworld, hworld', _⟩ := hcommon 1 0 {} rfl rfl
  have hends : (Session.ofNode keepingLibrary keepingTree behindProgress).outcomes
      [.poll, .signal 0 (.fail "late"), .poll] = [.pending, .signalled, .pending] := by
    decide +kernel
  have hcounted : (Listener.hearAll (Occurrence.messages
      ((Session.ofNode keepingLibrary keepingTree behindProgress).logAll
        [.poll, .signal 0 (.fail "late"), .poll])) ({} : Statistics)).state =
      { steps := { undefined := 1, failed := 1 }, current := some (.failed (.failed "late")) } := by
    decide +kernel
  rw [hcounted] at hworld hworld'
  exact ⟨hbear, hbear', habandon, hends, houtcomes.symm.trans hends, hworld, hworld'⟩

end FeatureRun
