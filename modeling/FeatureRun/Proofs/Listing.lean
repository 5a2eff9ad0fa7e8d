import FeatureRun.Walk.Task

/-!
The reference order of a walk. Results are given from outside, by the number of a step in
depth-first order and the step. A listing is also read off a flat list of scenes, and every fact
that compares a walk with its listing is an induction over the scenes.
-/

namespace FeatureRun

/-- A result for every step, given the number of steps before it and the step. -/
abbrev Results := Nat → Step → StepResult

/-- What a list of items comes to, one after another; `i` steps come before the first. -/
def inTurn {α β : Type} (steps : α → List Step) (one : Nat → α → List β) : Nat → List α → List β
  | _, [] => []
  | i, a :: rest => one i a ++ inTurn steps one (i + (steps a).length) rest

def Step.listing (r : Results) (i : Nat) (s : Step) : List Message :=
  [.before (.step s), .result (r i s), .after (.step s)]

def Scenario.listing (r : Results) (i : Nat) (s : Scenario) : List Message :=
  .before (.scenario s) :: inTurn (fun t => [t]) (Step.listing r) i s.steps
    ++ [.after (.scenario s)]

def Feature.listing (r : Results) (i : Nat) (f : Feature) : List Message :=
  .before (.feature f) :: inTurn Scenario.steps (Scenario.listing r) i f.scenarios
    ++ [.after (.feature f)]

/-- The messages of walking a node, in depth-first order. -/
def Node.listing (r : Results) : Node → List Message
  | .features all =>
    .before .features :: inTurn Feature.steps (Feature.listing r) 0 all ++ [.after .features]
  | .feature f => f.listing r 0
  | .scenario s => s.listing r 0
  | .step s => s.listing r 0

theorem inTurn_append {α β : Type} (steps : α → List Step) (one : Nat → α → List β) (i : Nat)
    (xs ys : List α) :
    inTurn steps one i (xs ++ ys) =
      inTurn steps one i xs ++ inTurn steps one (i + (xs.flatMap steps).length) ys := by
  induction xs generalizing i with
  | nil => simp [inTurn]
  | cons a rest ih =>
    have hlen : i + (steps a).length + (rest.flatMap steps).length =
        i + ((a :: rest).flatMap steps).length := by
      simp only [List.flatMap_cons, List.length_append]
      omega
    simp only [List.cons_append, inTurn, ih, hlen, List.append_assoc]

/-- Items that are taken apart into smaller ones come to the same. -/
theorem inTurn_flatMap {α γ β : Type} (steps : γ → List Step) (one : Nat → γ → List β)
    (f : α → List γ) (i : Nat) (xs : List α) :
    inTurn steps one i (xs.flatMap f) =
      inTurn (fun a => (f a).flatMap steps) (fun i a => inTurn steps one i (f a)) i xs := by
  induction xs generalizing i with
  | nil => rfl
  | cons a rest ih => rw [List.flatMap_cons, inTurn_append, ih, inTurn]

/-- A node that holds other nodes. -/
inductive Branch
  | features (all : List Feature)
  | feature (f : Feature)
  | scenario (s : Scenario)

def Branch.node : Branch → Node
  | .features all => .features all
  | .feature f => .feature f
  | .scenario s => .scenario s

/-- The two sides of a node. -/
inductive Border
  | opening
  | closing

def Border.task (n : Node) : Border → Task
  | .opening => .enter n
  | .closing => .leave n

def Border.message (n : Node) : Border → Message
  | .opening => .before n.event
  | .closing => .after n.event

/-- A stretch of a walk: a node that holds others is entered or left, or a step is gone through. -/
inductive Scene
  | border (side : Border) (b : Branch)
  | step (s : Step)

namespace Scene

def around (b : Branch) (inner : List Scene) : List Scene :=
  .border .opening b :: inner ++ [.border .closing b]

def ofScenario (s : Scenario) : List Scene := around (.scenario s) (s.steps.map .step)

def ofFeature (f : Feature) : List Scene := around (.feature f) (f.scenarios.flatMap ofScenario)

def tasks : Scene → List Task
  | .border side b => [side.task b.node]
  | .step s => Task.ofStep s

def messages (r : Results) (i : Nat) : Scene → List Message
  | .border side b => [side.message b.node]
  | .step s => s.listing r i

def steps : Scene → List Step
  | .step s => [s]
  | _ => []

/-- The messages of scenes, the first of which comes after `i` steps. -/
def listing (r : Results) (i : Nat) (scenes : List Scene) : List Message :=
  inTurn steps (messages r) i scenes

@[simp] theorem listing_nil (r : Results) (i : Nat) : listing r i [] = [] := rfl

@[simp] theorem listing_border (r : Results) (i : Nat) (side : Border) (b : Branch)
    (rest : List Scene) :
    listing r i (.border side b :: rest) = side.message b.node :: listing r i rest := rfl

@[simp] theorem listing_step (r : Results) (i : Nat) (s : Step) (rest : List Scene) :
    listing r i (.step s :: rest) =
      .before (.step s) :: .result (r i s) :: .after (.step s) :: listing r (i + 1) rest := rfl

theorem listing_around (r : Results) (i : Nat) (b : Branch) (inner : List Scene) :
    listing r i (around b inner) =
      .before b.node.event :: listing r i inner ++ [.after b.node.event] := by
  simp only [around, List.cons_append, listing_border]
  rw [listing, inTurn_append]
  rfl

theorem listing_flatMap {α : Type} (r : Results) (f : α → List Scene) (i : Nat) (xs : List α) :
    listing r i (xs.flatMap f) =
      inTurn (fun a => (f a).flatMap steps) (fun i a => listing r i (f a)) i xs :=
  inTurn_flatMap steps (messages r) f i xs

theorem listing_map_step (r : Results) (i : Nat) (xs : List Step) :
    listing r i (xs.map .step) = inTurn (fun t => [t]) (Step.listing r) i xs := by
  induction xs generalizing i with
  | nil => rfl
  | cons s rest ih =>
    rw [List.map_cons, listing_step, ih]
    rfl

theorem flatMap_steps_around (b : Branch) (inner : List Scene) :
    (around b inner).flatMap steps = inner.flatMap steps := by
  simp [around, List.flatMap_append, steps]

theorem flatMap_steps_ofScenario (s : Scenario) : (ofScenario s).flatMap steps = s.steps := by
  rw [ofScenario, flatMap_steps_around, List.flatMap_map]
  exact List.flatMap_singleton' s.steps

theorem flatMap_steps_ofFeature (f : Feature) : (ofFeature f).flatMap steps = f.steps := by
  rw [ofFeature, flatMap_steps_around, List.flatMap_assoc]
  simp only [flatMap_steps_ofScenario, Feature.steps]

theorem listing_ofScenario (r : Results) (i : Nat) (s : Scenario) :
    listing r i (ofScenario s) = s.listing r i := by
  rw [ofScenario, listing_around, listing_map_step]
  rfl

theorem listing_ofFeature (r : Results) (i : Nat) (f : Feature) :
    listing r i (ofFeature f) = f.listing r i := by
  rw [ofFeature, listing_around, listing_flatMap]
  simp only [flatMap_steps_ofScenario, listing_ofScenario]
  rfl

theorem flatMap_tasks_around (b : Branch) (inner : List Scene) :
    (around b inner).flatMap tasks = Task.around b.node (inner.flatMap tasks) := by
  simp [around, Task.around, List.flatMap_append, tasks, Border.task]

theorem flatMap_tasks_ofScenario (s : Scenario) :
    (ofScenario s).flatMap tasks = Task.ofScenario s := by
  rw [ofScenario, flatMap_tasks_around, List.flatMap_map]
  rfl

theorem flatMap_tasks_ofFeature (f : Feature) : (ofFeature f).flatMap tasks = Task.ofFeature f := by
  rw [ofFeature, flatMap_tasks_around, List.flatMap_assoc]
  simp only [flatMap_tasks_ofScenario]
  rfl

end Scene

/-- The scenes of walking a node. -/
def Node.scenes : Node → List Scene
  | .features all => Scene.around (.features all) (all.flatMap Scene.ofFeature)
  | .feature f => Scene.ofFeature f
  | .scenario s => Scene.ofScenario s
  | .step s => [.step s]

theorem Node.flatMap_steps_scenes (n : Node) : n.scenes.flatMap Scene.steps = n.steps := by
  cases n with
  | features all =>
    rw [Node.scenes, Scene.flatMap_steps_around, List.flatMap_assoc]
    simp only [Scene.flatMap_steps_ofFeature, Node.steps]
  | feature f => exact Scene.flatMap_steps_ofFeature f
  | scenario s => exact Scene.flatMap_steps_ofScenario s
  | step s => rfl

theorem Node.listing_eq_scenes (r : Results) (n : Node) :
    n.listing r = Scene.listing r 0 n.scenes := by
  cases n with
  | features all =>
    rw [Node.scenes, Scene.listing_around, Scene.listing_flatMap]
    simp only [Scene.flatMap_steps_ofFeature, Scene.listing_ofFeature]
    rfl
  | feature f => exact (Scene.listing_ofFeature r 0 f).symm
  | scenario s => exact (Scene.listing_ofScenario r 0 s).symm
  | step s => rfl

theorem Node.agenda_eq_scenes (n : Node) : n.agenda = n.scenes.flatMap Scene.tasks := by
  cases n with
  | features all =>
    rw [Node.scenes, Scene.flatMap_tasks_around, List.flatMap_assoc]
    simp only [Scene.flatMap_tasks_ofFeature]
    rfl
  | feature f => exact (Scene.flatMap_tasks_ofFeature f).symm
  | scenario s => exact (Scene.flatMap_tasks_ofScenario s).symm
  | step s => rfl

namespace Message

/-- The step whose beginning a message announces. -/
def begins? : Message → Option Step
  | ⟨.before, .step s⟩ => some s
  | _ => none

/-- The step whose end a message announces. -/
def ends? : Message → Option Step
  | ⟨.after, .step s⟩ => some s
  | _ => none

def result? : Message → Option StepResult
  | ⟨_, .stepResult r⟩ => some r
  | _ => none

def begun (ms : List Message) : List Step := ms.filterMap begins?

def ended (ms : List Message) : List Step := ms.filterMap ends?

def results (ms : List Message) : List StepResult := ms.filterMap result?

/-- The part of a sequence that ends where the step with `k` steps before it is announced. -/
def upToStep : Nat → List Message → List Message
  | _, [] => []
  | k, m :: rest =>
    match m.begins?, k with
    | none, k => m :: upToStep k rest
    | some _, 0 => [m]
    | some _, k + 1 => m :: upToStep k rest

@[simp] theorem begins?_before_step (s : Step) : (before (.step s)).begins? = some s := rfl

@[simp] theorem begins?_result (r : StepResult) : (result r).begins? = none := rfl

@[simp] theorem begins?_after_step (s : Step) : (after (.step s)).begins? = none := rfl

@[simp] theorem ends?_before_step (s : Step) : (before (.step s)).ends? = none := rfl

@[simp] theorem ends?_result (r : StepResult) : (result r).ends? = none := rfl

@[simp] theorem ends?_after_step (s : Step) : (after (.step s)).ends? = some s := rfl

@[simp] theorem begins?_border (side : Border) (b : Branch) :
    (side.message b.node).begins? = none := by
  cases side <;> cases b <;> rfl

@[simp] theorem ends?_border (side : Border) (b : Branch) :
    (side.message b.node).ends? = none := by
  cases side <;> cases b <;> rfl

@[simp] theorem result?_border (side : Border) (b : Branch) :
    (side.message b.node).result? = none := by
  cases side <;> cases b <;> rfl

end Message

namespace Scene

@[simp] theorem upToStep_border (r : Results) (i k : Nat) (side : Border) (b : Branch)
    (rest : List Scene) :
    Message.upToStep k (listing r i (.border side b :: rest)) =
      side.message b.node :: Message.upToStep k (listing r i rest) := by
  simp only [listing_border, Message.upToStep, Message.begins?_border]

/-- Only the results of the steps that occur matter to a listing. -/
theorem listing_congr (r r' : Results) (i : Nat) (scenes : List Scene)
    (h : ∀ j s, (scenes.flatMap steps)[j]? = some s → r (i + j) s = r' (i + j) s) :
    listing r i scenes = listing r' i scenes := by
  induction scenes generalizing i with
  | nil => rfl
  | cons scene rest ih =>
    cases scene with
    | border side b => rw [listing_border, listing_border, ih i h]
    | step s =>
      have hhead : r i s = r' i s := h 0 s rfl
      have htail : listing r (i + 1) rest = listing r' (i + 1) rest := by
        apply ih
        intro j t ht
        have hj : i + 1 + j = i + (j + 1) := by omega
        rw [hj]
        exact h (j + 1) t ht
      rw [listing_step, listing_step, hhead, htail]

/-- The result of a step stands in one message of a listing and has no part in any other. -/
theorem listing_isolates (r : Results) (i k : Nat) (s : Step) (scenes : List Scene)
    (hs : (scenes.flatMap steps)[k]? = some s) :
    ∃ before after, ∀ r' : Results,
      (∀ j t, j ≠ k → (scenes.flatMap steps)[j]? = some t → r' (i + j) t = r (i + j) t) →
      listing r' i scenes = before ++ .result (r' (i + k) s) :: after := by
  induction scenes generalizing i k with
  | nil => simp at hs
  | cons scene rest ih =>
    cases scene with
    | border side b =>
      obtain ⟨before, after, h⟩ := ih i k hs
      refine ⟨side.message b.node :: before, after, fun r' hr => ?_⟩
      rw [listing_border, h r' hr, List.cons_append]
    | step t =>
      cases k with
      | zero =>
        have hst : t = s := by simpa [steps] using hs
        refine ⟨[.before (.step s)], .after (.step s) :: listing r (i + 1) rest, fun r' hr => ?_⟩
        have htail : listing r' (i + 1) rest = listing r (i + 1) rest := by
          apply listing_congr
          intro j u hu
          have hj : i + 1 + j = i + (j + 1) := by omega
          rw [hj]
          exact hr (j + 1) u (by omega) hu
        rw [listing_step, htail, hst]
        rfl
      | succ k =>
        have hshift (j : Nat) : i + 1 + j = i + (j + 1) := by omega
        obtain ⟨before, after, h⟩ := ih (i + 1) k hs
        refine ⟨.before (.step t) :: .result (r i t) :: .after (.step t) :: before, after,
          fun r' hr => ?_⟩
        have htail := h r' fun j u hj hu => by
          rw [hshift]
          exact hr (j + 1) u (by omega) hu
        have hhead : r' i t = r i t := hr 0 t (by omega) rfl
        rw [listing_step, htail, hhead, hshift]
        rfl

/-- At no time more than one step of a listing has begun without having ended. -/
theorem length_begun_le (r : Results) (i : Nat) (scenes : List Scene) (p : List Message)
    (hp : p <+: listing r i scenes) :
    (Message.begun p).length ≤ (Message.ended p).length + 1 := by
  induction scenes generalizing i p with
  | nil =>
    rw [listing_nil, List.prefix_nil] at hp
    simp [hp, Message.begun]
  | cons scene rest ih =>
    cases scene with
    | border side b =>
      rw [listing_border, List.prefix_cons_iff] at hp
      rcases hp with rfl | ⟨q, rfl, hq⟩
      · simp [Message.begun]
      · simpa [Message.begun, Message.ended, List.filterMap_cons] using ih i q hq
    | step s =>
      simp only [listing_step, List.prefix_cons_iff] at hp
      rcases hp with rfl | ⟨_, rfl, rfl | ⟨_, rfl, rfl | ⟨q, rfl, hq⟩⟩⟩
      · simp [Message.begun]
      · simp [Message.begun, Message.ended, List.filterMap_cons]
      · simp [Message.begun, Message.ended, List.filterMap_cons]
      · simpa [Message.begun, Message.ended, List.filterMap_cons] using ih (i + 1) q hq

end Scene

end FeatureRun
