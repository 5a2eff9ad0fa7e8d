import FeatureRun.Listener.TagLog
import FeatureRun.Proofs.Start
import FeatureRun.Proofs.WalkOrder

namespace FeatureRun

universe u

namespace Listener

/-- The effects of calls one after another, where a panic is caught before the next call. -/
def takeEach {σ : Type u} [Listener σ] : List Call → σ → List (Effect Emission σ)
  | [], _ => []
  | c :: rest, s => take c s :: takeEach rest (take c s).state

/-- Wrappers around a listener, each of which has the one inside it as a part. -/
inductive Nesting (σ : Type u) : Type u → Type (u + 1)
  | bare : Nesting σ σ
  | wrap {τ τ' : Type u} (inner : Nesting σ τ) (p : Part τ' τ) : Nesting σ τ'

namespace Nesting

variable {σ τ : Type u}

/-- The listener in the middle. -/
def content : {τ : Type u} → Nesting σ τ → τ → σ
  | _, .bare, s => s
  | _, .wrap inner p, t => inner.content (p.get t)

/-- Every wrapper passes on whatever it hears and whatever notice it is told. -/
@[reducible] def listener [Listener σ] : {τ : Type u} → Nesting σ τ → Listener τ
  | _, .bare => inferInstance
  | _, .wrap inner p =>
    letI := inner.listener
    through p

/-- A value of its own that holds a listener. -/
structure Boxed (σ : Type u) where
  held : σ

def box : Part (Boxed σ) σ where
  get b := b.held
  set s _ := ⟨s⟩
  get_set _ _ := rfl

/-- One of many cells, reached by its address. -/
def cell (address : Nat) : Part (Nat → σ) σ where
  get cells := cells address
  set s cells := fun i => if i = address then s else cells i
  get_set _ _ := if_pos rfl

variable [Listener σ]

/-- A call comes through all wrappers unchanged, and so does what the listener makes of it. -/
theorem map_content_take (w : Nesting σ τ) (c : Call) (t : τ) :
    (@take τ w.listener c t).map w.content = take c (w.content t) := by
  induction w with
  | bare => rfl
  | wrap inner p ih =>
    let _ := inner.listener
    have hwrapped : @take _ (wrap inner p).listener c t =
        (take c (p.get t)).map fun s => p.set s t := by
      cases c <;> rfl
    have hcontent (s) : (wrap inner p).content (p.set s t) = inner.content s :=
      congrArg inner.content (p.get_set s t)
    calc (@take _ (wrap inner p).listener c t).map (wrap inner p).content
        = ((take c (p.get t)).map fun s => p.set s t).map (wrap inner p).content := by
          rw [hwrapped]
      _ = (take c (p.get t)).map inner.content := by
          simp only [Effect.map, hcontent]
      _ = take c (inner.content (p.get t)) := ih (p.get t)

/-- Nothing is different about calls one after another, until one of them panics. -/
theorem map_content_takeAll (w : Nesting σ τ) (calls : List Call) (t : τ) :
    (@takeAll τ w.listener calls t).map w.content = takeAll calls (w.content t) := by
  let _ := w.listener
  induction calls generalizing t with
  | nil => rfl
  | cons c rest ih =>
    have hone := w.map_content_take c t
    have hstate : w.content (take c t).state = (take c (w.content t)).state :=
      congrArg Effect.state hone
    have hlog : (take c t).log = (take c (w.content t)).log := congrArg Effect.log hone
    have hpanic : (take c t).panic = (take c (w.content t)).panic := congrArg Effect.panic hone
    rw [takeAll, takeAll]
    cases hp : (take c t).panic with
    | some m =>
      rw [Effect.andThen_of_panic _ _ m hp, Effect.andThen_of_panic _ _ m (hpanic.symm.trans hp)]
      exact hone
    | none =>
      rw [Effect.andThen_of_no_panic _ _ hp, Effect.andThen_of_no_panic _ _ (hpanic.symm.trans hp),
        ← hstate, ← hlog, ← ih]
      rfl

/-- Nor if every panic is caught. -/
theorem map_content_takeEach (w : Nesting σ τ) (calls : List Call) (t : τ) :
    (@takeEach τ w.listener calls t).map (Effect.map w.content) = takeEach calls (w.content t) := by
  let _ := w.listener
  induction calls generalizing t with
  | nil => rfl
  | cons c rest ih =>
    have hone := w.map_content_take c t
    have hstate : w.content (take c t).state = (take c (w.content t)).state :=
      congrArg Effect.state hone
    rw [takeEach, takeEach, List.map_cons, ih, hstate, hone]

end Nesting

/-- A listener that hears a message by the notice it amounts to, if it amounts to one. -/
@[reducible] def ofNotices {σ : Type u} (take : Notice → σ → Effect Emission σ) : Listener σ where
  notice := take

end Listener

namespace Notice

/-- The name of the method that takes a notice. -/
def named : Notice → String
  | .beforeFeatures => "hearBeforeFeatures"
  | .afterFeatures => "hearAfterFeatures"
  | .beforeFeature _ => "hearBeforeFeature"
  | .afterFeature _ => "hearAfterFeature"
  | .beforeScenario _ => "hearBeforeScenario"
  | .afterScenario _ => "hearAfterScenario"
  | .beforeStep _ => "hearBeforeStep"
  | .afterStep _ => "hearAfterStep"
  | .stepResult _ => "hearStepResult"

/-- A notice is the one a message calls for if its method has the name that the message gives, and it
tells of the same. -/
def CalledFor (n : Notice) (m : Message) : Prop := n.named = m.method ∧ n.message.event = m.event

theorem calledFor_message (n : Notice) : n.CalledFor n.message := by
  refine ⟨?_, rfl⟩
  cases n <;> simp [named, message, Message.before, Message.after, Message.result,
    Message.method, Message.label, Notice.lead, Timing.lead, Event.name]

/-- A message calls for one notice at most. -/
theorem eq_of_calledFor {n n' : Notice} {m : Message} (h : n.CalledFor m) (h' : n'.CalledFor m) :
    n = n' := by
  obtain ⟨hnamed, hevent⟩ := h
  obtain ⟨hnamed', hevent'⟩ := h'
  have hsame : n.named = n'.named := hnamed.trans hnamed'.symm
  have htold : n.message.event = n'.message.event := hevent.trans hevent'.symm
  clear hnamed hevent hnamed' hevent'
  revert hsame htold
  cases n <;> cases n' <;> simp [named, message, Message.before, Message.after, Message.result]

end Notice

namespace Listener

/-- A call that a message may be replaced by: hearing it, or being told the notice it calls for. -/
def Call.Answers (c : Call) (m : Message) : Prop :=
  c = .hear m ∨ ∃ n : Notice, n.CalledFor m ∧ c = .notice n

section

variable {σ : Type u} (take : Notice → σ → Effect Emission σ)

theorem hear_ofNotices (n : Notice) (s : σ) : @hear σ (ofNotices take) n.message s = take n s := by
  cases n <;> rfl

/-- Hearing messages of notices is being told the notices, for as many of them as one likes. -/
theorem takeAll_of_answers (ms : List Message) (hms : ∀ m ∈ ms, ∃ n : Notice, m = n.message)
    (calls : List Call) (h : List.Forall₂ Call.Answers calls ms) (s : σ) :
    @takeAll σ (ofNotices take) calls s = @takeAll σ (ofNotices take) (ms.map .hear) s ∧
      @takeEach σ (ofNotices take) calls s = @takeEach σ (ofNotices take) (ms.map .hear) s := by
  let _ := ofNotices take
  induction h generalizing s with
  | nil => exact ⟨rfl, rfl⟩
  | @cons c m calls ms hanswers _ ih =>
    have hrest := ih fun m' hm' => hms m' (List.mem_cons_of_mem m hm')
    have hone (s : σ) : Listener.take c s = hear m s := by
      rcases hanswers with rfl | ⟨n, hcalled, rfl⟩
      · rfl
      · obtain ⟨n', rfl⟩ := hms m (List.mem_cons_self ..)
        obtain rfl := Notice.eq_of_calledFor hcalled n'.calledFor_message
        exact (hear_ofNotices take n s).symm
    have hcall (s : σ) : Listener.take (.hear m) s = hear m s := rfl
    have hfollowing : takeAll calls = takeAll (ms.map .hear) := funext fun s => (hrest s).1
    simp only [List.map_cons, takeAll, takeEach, hone, hcall, hfollowing, (hrest _).2, and_self]

end

end Listener

/-- However a listener is wrapped, calls do to it what they do to it alone. One without a way of its
own to hear makes of every message that a walk broadcasts what it makes of the one notice that the
message calls for, and so of all of them, whichever are replaced by their notices. Besides, it hears
a result at any timing, and nothing else that comes at no definite side. -/
theorem wrappers_and_notices_are_heard_alike {σ τ L : Type u} [Listener L] (library : Library)
    (n : Node) (listeners : List L) (actions : List Action) :
    (∀ [Listener σ] (w : Listener.Nesting σ τ) (calls : List Listener.Call) (t : τ),
      (@Listener.takeAll τ w.listener calls t).map w.content =
          Listener.takeAll calls (w.content t) ∧
        (@Listener.takeEach τ w.listener calls t).map (Effect.map w.content) =
          Listener.takeEach calls (w.content t)) ∧
    ∀ take : Notice → σ → Effect Emission σ,
      let hear := @Listener.hear σ (.ofNotices take)
      let takeAll := @Listener.takeAll σ (.ofNotices take)
      let takeEach := @Listener.takeEach σ (.ofNotices take)
      let heard := Occurrence.messages ((Session.ofNode library n listeners).logAll actions)
      (∀ m ∈ heard, (∃! notice : Notice, notice.CalledFor m) ∧
        ∀ notice : Notice, notice.CalledFor m → ∀ s, hear m s = take notice s) ∧
      (∀ calls, List.Forall₂ Listener.Call.Answers calls heard → ∀ s,
        takeAll calls s = takeAll (heard.map .hear) s ∧
          takeEach calls s = takeEach (heard.map .hear) s) ∧
      (∀ (timing : Timing) (r : StepResult) (s : σ),
        hear ⟨timing, .stepResult r⟩ s = take (.stepResult r) s) ∧
      ∀ (e : Event) (s : σ), (∀ r, e ≠ .stepResult r) → hear ⟨.instant, e⟩ s = .quiet s := by
  refine ⟨fun w calls t => ⟨w.map_content_takeAll calls t, w.map_content_takeEach calls t⟩, ?_⟩
  intro take hear takeAll takeEach heard
  have hnotices : ∀ m ∈ heard, ∃ n : Notice, m = n.message :=
    Session.exists_notice_of_mem_messages library _ actions rfl rfl
  refine ⟨fun m hm => ?_, fun calls h s => ?_, fun timing r s => ?_, fun e s he => ?_⟩
  · obtain ⟨notice, rfl⟩ := hnotices m hm
    have hunique (n' : Notice) (h : n'.CalledFor notice.message) : n' = notice :=
      Notice.eq_of_calledFor h notice.calledFor_message
    refine ⟨⟨notice, notice.calledFor_message, hunique⟩, fun n' h s => ?_⟩
    rw [hunique n' h]
    exact Listener.hear_ofNotices take notice s
  · exact Listener.takeAll_of_answers take heard hnotices calls h s
  · cases timing <;> rfl
  · cases e with
    | stepResult r => exact absurd rfl (he r)
    | _ => rfl

/-- A tag log without much room, in a box around cells. The middle one of three messages is heard, the
other two are replaced by their notices. -/
theorem boxedCell_heard_alike :
    let s : Step := ⟨"* ", "run", 1, none⟩
    let calls : List Listener.Call :=
      [.notice (.beforeStep s), .hear (.result .undefined), .notice (.afterStep s)]
    let w : Listener.Nesting TagLog (Listener.Nesting.Boxed (Nat → TagLog)) :=
      .wrap (.wrap .bare (Listener.Nesting.cell 1)) Listener.Nesting.box
    let held : Listener.Nesting.Boxed (Nat → TagLog) := ⟨fun _ => { room := some 20 }⟩
    let takeAll := @Listener.takeAll TagLog (.ofNotices TagLog.take)
    let heard := Occurrence.messages
      ((Session.ofNode obedientLibrary (.step s) [({} : TagLog)]).logAll [.poll])
    ((@Listener.takeAll _ w.listener calls held).map w.content).state =
        { output := "      <step>\n       ", room := some 0 } ∧
      Notice.CalledFor (.beforeStep s) (.before (.step s)) ∧ .before (.step s) ∈ heard ∧
      List.Forall₂ Listener.Call.Answers calls heard ∧
      takeAll calls {} = takeAll (heard.map .hear) {} ∧
      @Listener.hear TagLog (.ofNotices TagLog.take) (.before (.step s)) {} =
        TagLog.take (.beforeStep s) {} ∧
      (∀ r, Event.step s ≠ .stepResult r) ∧
      @Listener.hear TagLog (.ofNotices TagLog.take) ⟨.instant, .step s⟩ {} = .quiet {} := by
  intro s calls w held takeAll heard
  obtain ⟨hwrapped, hdirect⟩ := wrappers_and_notices_are_heard_alike (σ := TagLog)
    (τ := Listener.Nesting.Boxed (Nat → TagLog)) obedientLibrary (.step s) [({} : TagLog)] [.poll]
  obtain ⟨hone, hmixed, _, hnothing⟩ := hdirect TagLog.take
  have hheard : heard = [.before (.step s), .result .undefined, .after (.step s)] := by
    decide +kernel
  have hbefore : Notice.CalledFor (.beforeStep s) (.before (.step s)) :=
    Notice.calledFor_message (.beforeStep s)
  have hafter : Notice.CalledFor (.afterStep s) (.after (.step s)) :=
    Notice.calledFor_message (.afterStep s)
  have hanswers : List.Forall₂ Listener.Call.Answers calls heard := by
    rw [hheard]
    exact .cons (Or.inr ⟨_, hbefore, rfl⟩)
      (.cons (Or.inl rfl) (.cons (Or.inr ⟨_, hafter, rfl⟩) .nil))
  have hmem : .before (.step s) ∈ heard := by
    rw [hheard]
    exact List.mem_cons_self ..
  have hstep : ∀ r, Event.step s ≠ .stepResult r := fun r => Event.noConfusion
  refine ⟨?_, hbefore, hmem, hanswers, (hmixed calls hanswers {}).1,
    (hone _ hmem).2 _ hbefore {}, hstep, hnothing _ {} hstep⟩
  rw [(hwrapped w calls held).1]
  decide +kernel

end FeatureRun
