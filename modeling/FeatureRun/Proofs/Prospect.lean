import FeatureRun.Proofs.Plan

/-!
What a ledger makes of a tree: the plan of the tree is its listing with the results the ledger
tells, in full if every step is settled, and otherwise up to the first step that is not.
-/

namespace FeatureRun

namespace Standing

def isSettled : Standing → Bool
  | .settled _ => true
  | _ => false

def result? : Standing → Option StepResult
  | .settled r => some r
  | _ => none

theorem exists_of_isSettled (s : Standing) (h : s.isSettled = true) : ∃ r, s = .settled r := by
  cases s with
  | settled r => exact ⟨r, rfl⟩
  | waiting => exact absurd h (by simp [isSettled])
  | lost => exact absurd h (by simp [isSettled])

end Standing

namespace Library

/-- What executing a step begins with. -/
def cue (library : Library) (s : Step) : Cue :=
  match library.lookup? s.name with
  | none => .unmatched s
  | some d => .invoke d s

/-- The call that a step leads to, if a definition matches it. -/
def callsOf (library : Library) (s : Step) : List (StepDefinition × List String) :=
  match library.lookup? s.name with
  | none => []
  | some d => [(d, d.arguments s.name s.docString)]

/-- The calls of the matched steps, in order. -/
def calls (library : Library) (steps : List Step) : List (StepDefinition × List String) :=
  steps.flatMap library.callsOf

/-- The ticket of the call of the step with `k` steps before it. -/
def ticket (library : Library) (steps : List Step) (k : Nat) : Nat :=
  (library.calls (steps.take k)).length

/-- How the steps stand, `c` calls having been made before the first. -/
def standings (library : Library) (F : Ledger) : Nat → List Step → List Standing
  | _, [] => []
  | c, s :: rest =>
    (library.standing s.name s.docString).given (F c) ::
      library.standings F (c + (library.callsOf s).length) rest

/-- The results that are known of the steps of a walk. -/
def outcomes (library : Library) (F : Ledger) (steps : List Step) : Results :=
  fun i _ => ((library.standings F 0 steps)[i]?.bind Standing.result?).getD .undefined

@[simp] theorem message?_cue (library : Library) (s : Step) : (library.cue s).message? = none := by
  cases h : library.lookup? s.name <;> simp [cue, h, Cue.message?]

theorem callsOf_of_lookup (library : Library) (s : Step) (d : StepDefinition)
    (h : library.lookup? s.name = some d) :
    library.callsOf s = [(d, d.arguments s.name s.docString)] := by
  simp only [callsOf, h]

theorem call?_cue (library : Library) (s : Step) :
    (library.cue s).call?.toList = library.callsOf s := by
  cases h : library.lookup? s.name <;> simp [cue, callsOf, h, Cue.call?]

@[simp] theorem calls_nil (library : Library) : library.calls [] = [] := rfl

@[simp] theorem calls_cons (library : Library) (s : Step) (rest : List Step) :
    library.calls (s :: rest) = library.callsOf s ++ library.calls rest := rfl

theorem calls_append (library : Library) (a b : List Step) :
    library.calls (a ++ b) = library.calls a ++ library.calls b :=
  List.flatMap_append

/-- A step is told by the ledger under the number of calls before it. -/
theorem standings_getElem? (library : Library) (F : Ledger) (c k : Nat) (steps : List Step) :
    (library.standings F c steps)[k]? = steps[k]?.map fun s =>
      (library.standing s.name s.docString).given
        (F (c + (library.calls (steps.take k)).length)) := by
  induction steps generalizing c k with
  | nil => rfl
  | cons s rest ih =>
    cases k with
    | zero => rfl
    | succ k =>
      simp only [standings, List.getElem?_cons_succ, List.take_succ_cons, calls_cons,
        List.length_append, ih, Nat.add_assoc]

theorem outcomes_of_settled (library : Library) (F : Ledger) (steps : List Step) (i : Nat)
    (r : StepResult) (s : Step) (h : (library.standings F 0 steps)[i]? = some (.settled r)) :
    library.outcomes F steps i s = r := by
  simp only [outcomes, h, Option.bind_some, Standing.result?, Option.getD_some]

theorem ofTask_execute (library : Library) (F : Ledger) (c : Nat) (s : Step) :
    Part.ofTask library F c (.execute s) =
      let p := Part.conclude c ((library.standing s.name s.docString).given (F c))
      ⟨library.cue s :: p.cues, (library.callsOf s).length, p.blocked⟩ := by
  cases h : library.lookup? s.name with
  | none => simp [Part.ofTask, standing, cue, callsOf, h, Standing.given, Part.conclude]
  | some d => simp [Part.ofTask, standing, cue, callsOf, h]

/-- The script of a step with a result. -/
def stepCues (library : Library) (s : Step) (r : StepResult) : List Cue :=
  .announce (.before (.step s)) :: library.cue s :: Cue.ofResult r ++ [.announce (.after (.step s))]

theorem messages_stepCues (library : Library) (s : Step) (r : StepResult) :
    Cue.messages (library.stepCues s r) = [.before (.step s), .result r, .after (.step s)] := by
  simp only [stepCues, Cue.messages_append, Cue.messages_cons, Cue.messages_ofResult,
    message?_cue]
  rfl

theorem calls_stepCues (library : Library) (s : Step) (r : StepResult) :
    Cue.calls (library.stepCues s r) = library.callsOf s := by
  simp only [stepCues, Cue.calls_append, Cue.calls_cons, Cue.calls_ofResult, call?_cue,
    List.append_nil]
  exact List.append_nil _

theorem plan_step_of_settled (library : Library) (F : Ledger) (c : Nat) (s : Step)
    (r : StepResult) (rest : List Task)
    (h : (library.standing s.name s.docString).given (F c) = .settled r) :
    library.plan F c (Task.ofStep s ++ rest) =
      (library.plan F (c + (library.callsOf s).length) rest).after (library.stepCues s r)
        (library.callsOf s).length := by
  have htask : Part.ofTask library F c (.execute s) =
      ⟨library.cue s :: Cue.ofResult r, (library.callsOf s).length, none⟩ := by
    rw [library.ofTask_execute F c s, h]
    rfl
  have hstep : Task.ofStep s ++ rest =
      .enter (.step s) :: .execute s :: .leave (.step s) :: rest := rfl
  have hexecute := library.plan_of_not_blocked F c _ (.leave (.step s) :: rest)
    (congrArg Part.blocked htask)
  rw [hstep, library.plan_of_not_blocked F c _ _ rfl]
  simp only [Part.ofTask, Nat.add_zero]
  rw [hexecute, htask, library.plan_of_not_blocked F _ _ _ rfl]
  simp only [Part.ofTask, Plan.after_after, Nat.add_zero, Nat.zero_add, List.nil_append,
    List.cons_append]
  rfl

/-- Only a step with a definition whose callback has not panicked can be left open. -/
theorem exists_call_of_open (library : Library) (s : Step) (now : Standing)
    (h : ((library.standing s.name s.docString).given now).isSettled = false) :
    ∃ d, library.lookup? s.name = some d ∧ (d.invoke s.name s.docString).panic = none := by
  cases hl : library.lookup? s.name with
  | none => exact absurd h (by simp [standing, hl, Standing.given, Standing.isSettled])
  | some d =>
    refine ⟨d, rfl, ?_⟩
    cases hp : (d.invoke s.name s.docString).panic with
    | none => rfl
    | some payload =>
      have hsettled := (d.invoke s.name s.docString).standing_of_panic payload hp
      exact absurd h (by simp [standing, hl, hsettled, Standing.given, Standing.isSettled])

theorem conclude_of_open (ticket : Nat) (x : Standing) (h : x.isSettled = false) :
    Cue.messages (Part.conclude ticket x).cues = [] ∧
      Cue.calls (Part.conclude ticket x).cues = [] ∧
      ∃ t, (Part.conclude ticket x).blocked = some t ∧
        (t = .await ticket .waiting ∨ t = .stuck) := by
  cases x with
  | settled r => exact absurd h (by simp [Standing.isSettled])
  | waiting => exact ⟨rfl, rfl, _, rfl, Or.inl rfl⟩
  | lost => exact ⟨rfl, rfl, _, rfl, Or.inr rfl⟩

/-- A step that is left open is announced and executed, and then blocks. -/
theorem plan_step_of_blocked (library : Library) (F : Ledger) (c : Nat) (s : Step) (t : Task)
    (rest : List Task)
    (h : (Part.conclude c ((library.standing s.name s.docString).given (F c))).blocked = some t) :
    library.plan F c (Task.ofStep s ++ rest) =
      ⟨.announce (.before (.step s)) :: library.cue s ::
          (Part.conclude c ((library.standing s.name s.docString).given (F c))).cues,
        (library.callsOf s).length, some (t :: .leave (.step s) :: rest)⟩ := by
  have hstep : Task.ofStep s ++ rest =
      .enter (.step s) :: .execute s :: .leave (.step s) :: rest := rfl
  have hexecute := library.plan_of_blocked F c (.execute s) t (.leave (.step s) :: rest)
    (by rw [library.ofTask_execute F c s]; exact h)
  rw [library.ofTask_execute F c s] at hexecute
  rw [hstep, library.plan_of_not_blocked F c _ _ rfl]
  simp only [Part.ofTask, Nat.add_zero, hexecute, Plan.after, Nat.zero_add, List.cons_append,
    List.nil_append]
  rfl

theorem plan_step_of_open (library : Library) (F : Ledger) (c : Nat) (s : Step)
    (rest : List Task)
    (h : ((library.standing s.name s.docString).given (F c)).isSettled = false) :
    ∃ cues t, library.plan F c (Task.ofStep s ++ rest) =
        ⟨.announce (.before (.step s)) :: library.cue s :: cues, (library.callsOf s).length,
          some (t :: .leave (.step s) :: rest)⟩ ∧
      Cue.messages cues = [] ∧ Cue.calls cues = [] ∧ (t = .await c .waiting ∨ t = .stuck) := by
  obtain ⟨hmessages, hcalls, t, hblocked, ht⟩ := conclude_of_open c _ h
  exact ⟨_, t, library.plan_step_of_blocked F c s t rest hblocked, hmessages, hcalls, ht⟩

theorem plan_border (library : Library) (F : Ledger) (c : Nat) (side : Border) (b : Branch)
    (rest : List Task) :
    library.plan F c (side.task b.node :: rest) =
      (library.plan F c rest).after [.announce (side.message b.node)] 0 := by
  cases side <;> exact library.plan_of_not_blocked F c _ rest rfl

end Library

/-- The plan of scenes, scene by scene, `c` calls having been made before. It is held up by the
first step that is not settled. -/
inductive Prospect (library : Library) (F : Ledger) : Nat → List Scene → Plan → Prop
  | nil (c : Nat) : Prospect library F c [] {}
  | border (c : Nat) (side : Border) (b : Branch) (rest : List Scene) (p : Plan)
      (h : Prospect library F c rest p) :
      Prospect library F c (.border side b :: rest)
        (p.after [.announce (side.message b.node)] 0)
  | settled (c : Nat) (s : Step) (x : StepResult) (rest : List Scene) (p : Plan)
      (hx : (library.standing s.name s.docString).given (F c) = .settled x)
      (h : Prospect library F (c + (library.callsOf s).length) rest p) :
      Prospect library F c (.step s :: rest)
        (p.after (library.stepCues s x) (library.callsOf s).length)
  | held (c : Nat) (s : Step) (rest : List Scene) (cues : List Cue) (t : Task)
      (hopen : ((library.standing s.name s.docString).given (F c)).isSettled = false)
      (hmessages : Cue.messages cues = []) (hcalls : Cue.calls cues = [])
      (ht : t = .await c .waiting ∨ t = .stuck) :
      Prospect library F c (.step s :: rest)
        ⟨.announce (.before (.step s)) :: library.cue s :: cues, (library.callsOf s).length,
          some (t :: .leave (.step s) :: rest.flatMap Scene.tasks)⟩

namespace Library

variable (library : Library) (F : Ledger)

theorem prospect (c : Nat) (scenes : List Scene) :
    Prospect library F c scenes (library.plan F c (scenes.flatMap Scene.tasks)) := by
  induction scenes generalizing c with
  | nil => exact .nil c
  | cons scene rest ih =>
    cases scene with
    | border side b =>
      have hp := library.plan_border F c side b (rest.flatMap Scene.tasks)
      simp only [List.flatMap_cons, Scene.tasks, List.singleton_append, hp]
      exact .border c side b rest _ (ih c)
    | step s =>
      simp only [List.flatMap_cons, Scene.tasks]
      cases hs : ((library.standing s.name s.docString).given (F c)).isSettled with
      | true =>
        obtain ⟨x, hx⟩ := Standing.exists_of_isSettled _ hs
        rw [library.plan_step_of_settled F c s x _ hx]
        exact .settled c s x rest _ hx (ih _)
      | false =>
        obtain ⟨cues, t, hp, hmessages, hcalls, ht⟩ :=
          library.plan_step_of_open F c s (rest.flatMap Scene.tasks) hs
        rw [hp]
        exact .held c s rest cues t hs hmessages hcalls ht

theorem prospect_agenda (n : Node) :
    Prospect library F 0 n.scenes (library.plan F 0 n.agenda) := by
  rw [n.agenda_eq_scenes]
  exact library.prospect F 0 n.scenes

/-- Cues among which every message comes after the calls of just the steps announced before it;
`steps` have been announced and `calls` made before the first. -/
def Timely (steps : List Step) (calls : List (StepDefinition × List String))
    (cues : List Cue) : Prop :=
  ∀ before m after, cues = before ++ .announce m :: after →
    calls ++ Cue.calls before = library.calls (steps ++ Message.begun (Cue.messages before))

theorem timely_announce (steps : List Step) (m : Message) (rest : List Cue)
    (h : library.Timely (steps ++ m.begins?.toList) (library.calls steps) rest) :
    library.Timely steps (library.calls steps) (.announce m :: rest) := by
  intro before m' after heq
  cases before with
  | nil => simp [Cue.calls, Cue.messages, Message.begun]
  | cons c before =>
    obtain ⟨rfl, hrest⟩ := List.cons.inj heq
    have hbegun : Message.begun (Cue.messages (.announce m :: before)) =
        m.begins?.toList ++ Message.begun (Cue.messages before) := by
      cases hm : m.begins? <;> simp [Message.begun, Cue.messages, Cue.message?, hm]
    rw [hbegun, ← List.append_assoc]
    exact h before m' after hrest

theorem timely_silent (steps : List Step) (calls : List (StepDefinition × List String))
    (c : Cue) (rest : List Cue) (hc : c.message? = none)
    (h : library.Timely steps (calls ++ c.call?.toList) rest) :
    library.Timely steps calls (c :: rest) := by
  intro before m after heq
  cases before with
  | nil =>
    obtain ⟨rfl, _⟩ := List.cons.inj heq
    exact absurd hc (by simp [Cue.message?])
  | cons c' before =>
    obtain ⟨rfl, hrest⟩ := List.cons.inj heq
    rw [Cue.calls_cons, Cue.messages_cons, hc, ← List.append_assoc]
    exact h before m after hrest

theorem timely_of_silent (steps : List Step) (calls : List (StepDefinition × List String))
    (cues : List Cue) (h : Cue.messages cues = []) : library.Timely steps calls cues := by
  intro before m after heq
  rw [heq, Cue.messages_append, Cue.messages_cons] at h
  exact absurd h (by simp [Cue.message?])

theorem timely_ofResult (steps : List Step) (r : StepResult) (rest : List Cue)
    (h : library.Timely steps (library.calls steps) rest) :
    library.Timely steps (library.calls steps) (Cue.ofResult r ++ rest) := by
  have hresult : library.Timely steps (library.calls steps) (.announce (.result r) :: rest) := by
    apply library.timely_announce
    rwa [Message.begins?_result, Option.toList_none, List.append_nil]
  cases he : r.error? with
  | none =>
    rw [Cue.ofResult, he]
    exact hresult
  | some e =>
    have hfailure : library.Timely steps (library.calls steps)
        (.failure e :: .announce (.result r) :: rest) := by
      apply library.timely_silent _ _ _ _ rfl
      simpa only [Cue.call?, Option.toList_none, List.append_nil] using hresult
    rw [Cue.ofResult, he]
    exact hfailure

end Library

namespace Prospect

variable {library : Library} {F : Ledger} {c : Nat} {scenes : List Scene} {p : Plan}

/-- A plan announces the listing, in full if every step is settled, and otherwise up to the first
step that is not. The calls are those of the matched steps so far. -/
theorem announces (h : Prospect library F c scenes p) (r : Results) (i : Nat)
    (hr : ∀ j s x, (scenes.flatMap Scene.steps)[j]? = some s →
      (library.standings F c (scenes.flatMap Scene.steps))[j]? = some (.settled x) →
      r (i + j) s = x) :
    let steps := scenes.flatMap Scene.steps
    let first := (library.standings F c steps).findIdx? fun x => !x.isSettled
    (first = none → p.todo = none ∧ Cue.messages p.cues = Scene.listing r i scenes ∧
      Cue.calls p.cues = library.calls steps) ∧
    ∀ k, first = some k → p.todo.isSome ∧
      Cue.messages p.cues = Message.upToStep k (Scene.listing r i scenes) ∧
      Cue.calls p.cues = library.calls (steps.take (k + 1)) := by
  -- the induction is on the prospect, which has the calls made before; `i` counts the steps
  induction h generalizing i with
  | nil c => exact ⟨fun _ => ⟨rfl, rfl, rfl⟩, fun k h => absurd h (by simp [Library.standings])⟩
  | border c side b rest p h ih =>
    obtain ⟨hnone, hsome⟩ := ih i hr
    refine ⟨fun h => ?_, fun k h => ?_⟩
    · obtain ⟨htodo, hmessages, hcalls⟩ := hnone h
      exact ⟨htodo, congrArg (side.message b.node :: ·) hmessages, hcalls⟩
    · obtain ⟨htodo, hmessages, hcalls⟩ := hsome k h
      refine ⟨htodo, ?_, hcalls⟩
      rw [Scene.upToStep_border]
      exact congrArg (side.message b.node :: ·) hmessages
  | settled c s x rest p hx h ih =>
    simp only [List.flatMap_cons, Scene.steps, List.singleton_append, Library.standings, hx,
      List.findIdx?_cons, Standing.isSettled] at hr ⊢
    have hhead : r i s = x := hr 0 s x rfl rfl
    have hlater : ∀ j t y, (rest.flatMap Scene.steps)[j]? = some t →
        (library.standings F (c + (library.callsOf s).length)
          (rest.flatMap Scene.steps))[j]? = some (.settled y) → r (i + 1 + j) t = y := by
      intro j t y ht hy
      have hj : i + 1 + j = i + (j + 1) := by omega
      rw [hj]
      exact hr (j + 1) t y ht hy
    obtain ⟨hnone, hsome⟩ := ih (i + 1) hlater
    simp only [Bool.not_true, Bool.false_eq_true, if_false, Plan.after, Cue.messages_append,
      Cue.calls_append, Library.messages_stepCues, Library.calls_stepCues, Scene.listing_step,
      hhead]
    refine ⟨fun h => ?_, fun k h => ?_⟩
    · obtain ⟨htodo, hmessages, hcalls⟩ := hnone (Option.map_eq_none_iff.mp h)
      rw [hmessages, hcalls]
      exact ⟨htodo, rfl, rfl⟩
    · obtain ⟨k, hk, rfl⟩ := Option.map_eq_some_iff.mp h
      obtain ⟨htodo, hmessages, hcalls⟩ := hsome k hk
      rw [hmessages, hcalls]
      exact ⟨htodo, rfl, rfl⟩
  | held c s rest cues t hopen hmessages hcalls ht =>
    simp only [List.flatMap_cons, Scene.steps, List.singleton_append, Library.standings,
      List.findIdx?_cons, hopen, Bool.not_false, if_true, Cue.messages_cons, Cue.calls_cons,
      hmessages, hcalls, Library.message?_cue, Library.call?_cue]
    refine ⟨fun h => absurd h (by simp), fun k h => ?_⟩
    have hk : 0 = k := Option.some.inj h
    subst hk
    refine ⟨rfl, rfl, ?_⟩
    rw [List.take_succ_cons, List.take_zero, Library.calls_cons, Library.calls_nil]
    rfl

/-- The results announced are those of the settled steps up to the first that is not. -/
theorem results (h : Prospect library F c scenes p) :
    (Message.results (Cue.messages p.cues)).map .settled <+:
      library.standings F c (scenes.flatMap Scene.steps) := by
  induction h with
  | nil c => exact List.nil_prefix
  | border c side b rest p h ih =>
    have hresult : (side.message b.node).result? = none := Message.result?_border side b
    simpa only [Plan.after, Cue.messages_append, Cue.messages_cons, Message.results, Cue.message?,
      Option.toList_some, List.singleton_append, List.filterMap_cons_none hresult,
      List.flatMap_cons, Scene.steps, List.nil_append] using ih
  | settled c s x rest p hx h ih =>
    simp only [List.flatMap_cons, Scene.steps, List.singleton_append, Library.standings, hx,
      Plan.after, Cue.messages_append, Library.messages_stepCues]
    exact (List.prefix_cons_inj _).mpr ih
  | held c s rest cues t hopen hmessages hcalls ht =>
    simp only [Cue.messages_cons, Library.message?_cue, hmessages]
    exact List.nil_prefix

/-- The callback whose completion is awaited has not panicked. -/
theorem awaited (h : Prospect library F c scenes p) (ticket : Nat) (now : Standing)
    (rest : List Task) (htodo : p.todo = some (.await ticket now :: rest)) :
    ∃ k call, ticket = c + k ∧ (library.calls (scenes.flatMap Scene.steps))[k]? = some call ∧
      (call.1.callback call.2).panic = none := by
  induction h with
  | nil c => exact absurd htodo (by simp)
  | border c side b others p h ih => exact ih htodo
  | settled c s x others p hx h ih =>
    obtain ⟨k, call, hticket, hcall, hpanic⟩ := ih htodo
    simp only [List.flatMap_cons, Scene.steps, List.singleton_append, Library.calls_cons]
    refine ⟨(library.callsOf s).length + k, call, by omega, ?_, hpanic⟩
    rw [List.getElem?_append_right (by omega), Nat.add_sub_cancel_left, hcall]
  | held c s others cues t hopen hmessages hcalls ht =>
    obtain ⟨d, hd, hpanic⟩ := library.exists_call_of_open s (F c) hopen
    have hcall := library.callsOf_of_lookup s d hd
    have hhead : t = .await ticket now := (List.cons.inj (Option.some.inj htodo)).1
    rcases ht with rfl | rfl
    · refine ⟨0, (d, d.arguments s.name s.docString), (Task.await.inj hhead).1.symm, ?_, hpanic⟩
      simp only [List.flatMap_cons, Scene.steps, List.singleton_append, Library.calls_cons, hcall]
      rfl
    · exact absurd hhead Task.noConfusion

/-- Every message is announced after the calls of just the steps announced before it. -/
theorem timely (h : Prospect library F c scenes p) (steps : List Step) :
    library.Timely steps (library.calls steps) p.cues := by
  induction h generalizing steps with
  | nil c => exact library.timely_of_silent steps _ _ rfl
  | border c side b rest p h ih =>
    apply library.timely_announce
    rw [Message.begins?_border, Option.toList_none, List.append_nil]
    exact ih steps
  | settled c s x rest p hx h ih =>
    have hcall : library.calls steps ++ (library.cue s).call?.toList =
        library.calls (steps ++ [s]) := by
      rw [library.call?_cue, library.calls_append, Library.calls_cons, Library.calls_nil,
        List.append_nil]
    have hrest : library.Timely (steps ++ [s]) (library.calls (steps ++ [s]))
        (.announce (.after (.step s)) :: p.cues) := by
      apply library.timely_announce
      rw [Message.begins?_after_step, Option.toList_none, List.append_nil]
      exact ih (steps ++ [s])
    simp only [Plan.after, Library.stepCues, List.cons_append, List.append_assoc, List.nil_append]
    apply library.timely_announce
    apply library.timely_silent _ _ _ _ (library.message?_cue s)
    rw [hcall]
    exact library.timely_ofResult _ x _ hrest
  | held c s rest cues t hopen hmessages hcalls ht =>
    apply library.timely_announce
    apply library.timely_silent _ _ _ _ (library.message?_cue s)
    exact library.timely_of_silent _ _ _ hmessages

end Prospect

/-- The plan of a tree, as the first step that is not settled has it. -/
theorem Library.plan_agenda (library : Library) (F : Ledger) (n : Node) :
    let listing := n.listing (library.outcomes F n.steps)
    let p := library.plan F 0 n.agenda
    let first := (library.standings F 0 n.steps).findIdx? fun x => !x.isSettled
    (first = none → p.todo = none ∧ Cue.messages p.cues = listing ∧
      Cue.calls p.cues = library.calls n.steps) ∧
    ∀ k, first = some k → p.todo.isSome ∧
      Cue.messages p.cues = Message.upToStep k listing ∧
      Cue.calls p.cues = library.calls (n.steps.take (k + 1)) := by
  have hscenes := (library.prospect_agenda F n).announces (library.outcomes F n.steps) 0 (by
    intro j s x _ hx
    rw [Nat.zero_add]
    rw [n.flatMap_steps_scenes] at hx
    exact library.outcomes_of_settled F _ j x s hx)
  rwa [n.flatMap_steps_scenes, ← n.listing_eq_scenes] at hscenes

end FeatureRun
