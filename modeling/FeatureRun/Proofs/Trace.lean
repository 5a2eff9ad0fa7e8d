import FeatureRun.Proofs.Audience
import FeatureRun.Proofs.Calls

namespace FeatureRun

universe u

structure TraceLine where
  level : Diagnostic.Level
  wording : String
  fields : List (String × Diagnostic.Field)
  deriving DecidableEq, Repr, Inhabited

def Diagnostic.line (d : Diagnostic) : TraceLine := ⟨d.level, d.wording, d.fields⟩

/-- The diagnostics of a run as they are written, in order. -/
def Occurrence.trace (log : List Occurrence) : List TraceLine :=
  (Occurrence.diagnostics log).map Diagnostic.line

def Message.line (m : Message) : TraceLine := ⟨.debug, "broadcasting", [("event", .text m.label)]⟩

namespace TraceLine

def unmatched (s : Step) : TraceLine :=
  ⟨.warn, "no step definition matches", [("step", .text s.name), ("line", .number s.line)]⟩

def invoking (d : StepDefinition) (s : Step) (arguments : List String) : TraceLine :=
  ⟨.trace, "invoking step definition",
    [("pattern", .text d.pattern.text), ("step", .text s.name),
      ("arguments", .number arguments.length)]⟩

def failed (e : StepError) : TraceLine := ⟨.warn, "step failed", [("error", .text e.display)]⟩

/-- The label of a message that is being broadcast. -/
def label? (l : TraceLine) : Option String :=
  if l.wording = "broadcasting" then
    match l.fields with
    | [(_, .text label)] => some label
    | _ => none
  else none

def isUnmatched (l : TraceLine) : Bool := l.wording == "no step definition matches"

def isFailed (l : TraceLine) : Bool := l.wording == "step failed"

end TraceLine

/-- What is written while a step comes to a result. -/
inductive Library.Executes (library : Library) (s : Step) : StepResult → List TraceLine → Prop
  | unmatched (h : library.NoMatch s.name) : Executes library s .undefined [.unmatched s]
  | passed (d : StepDefinition) (h : library.FirstMatch s.name d) :
      Executes library s .passed [.invoking d s (d.arguments s.name s.docString)]
  | failed (d : StepDefinition) (e : StepError) (h : library.FirstMatch s.name d) :
      Executes library s (.failed e)
        [.invoking d s (d.arguments s.name s.docString), .failed e]

namespace Library.Executes

variable {library : Library} {s : Step} {r : StepResult} {lines : List TraceLine}

theorem filterMap_label? (h : library.Executes s r lines) :
    lines.filterMap TraceLine.label? = [] := by
  cases h <;> rfl

theorem countP_isUnmatched (h : library.Executes s r lines) :
    lines.countP TraceLine.isUnmatched = if r.isUndefined then 1 else 0 := by
  cases h <;> rfl

theorem countP_isFailed (h : library.Executes s r lines) :
    lines.countP TraceLine.isFailed = if r.error?.isSome then 1 else 0 := by
  cases h <;> rfl

end Library.Executes

theorem Reaction.Settles.result_ne_undefined (r : Reaction) (h : r.Settles) :
    r.result ≠ .undefined := by
  rcases r with ⟨handling, _ | p⟩
  · rcases h with h | ⟨signal, rfl⟩
    · exact absurd h (by simp)
    · cases signal <;> exact StepResult.noConfusion
  · exact StepResult.noConfusion

/-- The diagnostics that a cue gives rise to. -/
def Cue.diagnostics (c : Cue) : List Diagnostic := c.log.filterMap Occurrence.diagnostic?

namespace Library

variable (library : Library)

/-- The diagnostics of executing a step. -/
def executing (s : Step) : List Diagnostic :=
  (library.cue s).diagnostics ++ (library.resultOf s).error?.toList.map .stepFailed

theorem executes_executing (h : library.Settles) (s : Step) :
    library.Executes s (library.resultOf s) ((library.executing s).map Diagnostic.line) := by
  cases hl : library.lookup? s.name with
  | none =>
    have hr : library.resultOf s = .undefined := by simp only [resultOf, result, hl]
    rw [executing, cue, hl, hr]
    exact .unmatched ((library.noMatch_iff s.name).mpr hl)
  | some d =>
    have hfirst := (library.firstMatch_iff s.name d).mpr hl
    have hr : library.resultOf s ≠ .undefined := by
      simp only [resultOf, result, hl]
      exact Reaction.Settles.result_ne_undefined _ (h d (List.mem_of_find?_eq_some hl) _)
    rw [executing, cue, hl]
    cases hresult : library.resultOf s with
    | passed => exact .passed d hfirst
    | undefined => exact absurd hresult hr
    | failed e => exact .failed d e hfirst

theorem diagnostics_stepCues (s : Step) :
    (library.stepCues s (library.resultOf s)).flatMap Cue.diagnostics =
      .broadcasting (.before (.step s)) :: library.executing s ++
        [.broadcasting (.result (library.resultOf s)), .broadcasting (.after (.step s))] := by
  have hresult : (Cue.ofResult (library.resultOf s)).flatMap Cue.diagnostics =
      (library.resultOf s).error?.toList.map .stepFailed ++
        [.broadcasting (.result (library.resultOf s))] := by
    cases library.resultOf s <;> rfl
  have hannounce (m : Message) : (Cue.announce m).diagnostics = [.broadcasting m] := rfl
  simp only [stepCues, executing, List.flatMap_append, List.flatMap_cons, List.flatMap_nil,
    hannounce, hresult, List.append_assoc, List.cons_append, List.nil_append, List.append_nil]

/-- What a message and the step it may begin give rise to. -/
def announcing (m : Message) : List Diagnostic :=
  .broadcasting m :: m.begins?.toList.flatMap library.executing

end Library

/-- Where every step is settled as it is called, the script goes through the listing, and executes
each step where it begins. -/
theorem Prospect.diagnostics {library : Library} {F : Ledger} {c : Nat} {scenes : List Scene}
    {p : Plan} (hp : Prospect library F c scenes p) (h : library.Settles) (i : Nat) :
    p.cues.flatMap Cue.diagnostics =
      (Scene.listing library.results i scenes).flatMap library.announcing := by
  have hgiven (s : Step) (now : Standing) : (library.standing s.name s.docString).given now =
      .settled (library.resultOf s) := by
    rw [library.standing_of_settles h]
    rfl
  induction hp generalizing i with
  | nil c => rfl
  | border c side b rest p _ ih =>
    have hborder : library.announcing (side.message b.node) =
        [.broadcasting (side.message b.node)] := by
      rw [Library.announcing, Message.begins?_border]
      rfl
    rw [Plan.after, List.flatMap_append, ih i, Scene.listing_border]
    simp only [List.flatMap_cons, hborder]
    rfl
  | settled c s x rest p hx _ ih =>
    obtain rfl : library.resultOf s = x := Standing.settled.inj ((hgiven s _).symm.trans hx)
    rw [Plan.after, List.flatMap_append, ih (i + 1), library.diagnostics_stepCues,
      Scene.listing_step]
    simp only [List.flatMap_cons, Library.announcing, Message.begins?_before_step,
      Message.begins?_result, Message.begins?_after_step, Option.toList_some, Option.toList_none,
      List.flatMap_nil, List.cons_append, List.nil_append,
      List.append_assoc]
    rfl
  | held c s rest cues t hopen _ _ _ =>
    rw [hgiven] at hopen
    exact absurd hopen (by simp [Standing.isSettled])

theorem Scene.begun_listing (r : Results) (i : Nat) (scenes : List Scene) :
    Message.begun (listing r i scenes) = scenes.flatMap steps := by
  induction scenes generalizing i with
  | nil => rfl
  | cons scene rest ih =>
    cases scene with
    | border side b =>
      rw [listing_border, Message.begun, List.filterMap_cons_none (Message.begins?_border side b)]
      exact ih i
    | step s => exact congrArg (s :: ·) (ih (i + 1))

theorem Node.begun_listing (r : Results) (n : Node) : Message.begun (n.listing r) = n.steps := by
  rw [n.listing_eq_scenes, Scene.begun_listing, n.flatMap_steps_scenes]

namespace Message

variable (execution : Step → List TraceLine)

/-- What is written of a message, and of executing the step that it may begin. -/
def written (m : Message) : List TraceLine := m.line :: m.begins?.toList.flatMap execution

theorem mem_begun {ms : List Message} {m : Message} {s : Step} (hm : m ∈ ms)
    (hs : m.begins? = some s) : s ∈ begun ms :=
  List.mem_filterMap.mpr ⟨m, hm, hs⟩

theorem label?_written (ms : List Message)
    (h : ∀ s ∈ begun ms, (execution s).filterMap TraceLine.label? = []) :
    (ms.flatMap (written execution)).filterMap TraceLine.label? = ms.map label := by
  have hone : ∀ m ∈ ms, (m.written execution).filterMap TraceLine.label? = [m.label] := by
    intro m hm
    cases hs : m.begins? with
    | none => rw [written, hs]; rfl
    | some s =>
      have hlabel : m.line.label? = some m.label := rfl
      rw [written, hs, Option.toList_some, List.flatMap_singleton,
        List.filterMap_cons_some hlabel, h s (mem_begun hm hs)]
  rw [List.filterMap_flatMap, List.flatMap_congr hone]
  exact (List.map_eq_flatMap ..).symm

/-- Lines that no message writes are counted step by step. -/
theorem countP_written (q : TraceLine → Bool) (hline : ∀ m : Message, q m.line = false)
    (P : Step → Bool) (ms : List Message)
    (h : ∀ s ∈ begun ms, (execution s).countP q = if P s then 1 else 0) :
    (ms.flatMap (written execution)).countP q = (begun ms).countP P := by
  induction ms with
  | nil => rfl
  | cons m rest ih =>
    cases hs : m.begins? with
    | none =>
      have hbegun : begun (m :: rest) = begun rest := List.filterMap_cons_none hs
      rw [hbegun] at h ⊢
      rw [List.flatMap_cons, List.countP_append, ih h, written, hs]
      simp [hline]
    | some s =>
      have hbegun : begun (m :: rest) = s :: begun rest := List.filterMap_cons_some hs
      rw [hbegun] at h ⊢
      have hhead := h s (List.mem_cons_self ..)
      have htail := ih fun t ht => h t (List.mem_cons_of_mem _ ht)
      rw [List.flatMap_cons, List.countP_append, htail, written, hs]
      simp [List.countP_cons, hline, hhead, Nat.add_comm]

end Message

/-- What a listener emits over one message is part of what it emits over all. -/
theorem Listener.log_hear_subset {σ : Type u} [Listener σ] (before : List Message) (m : Message)
    (after : List Message) (s : σ) (h : (hearAll before s).panic = none) :
    (hear m (hearAll before s).state).log ⊆ (hearAll (before ++ m :: after) s).log := by
  have hfirst (e : Effect Emission σ) (next : σ → Effect Emission σ) :
      e.log ⊆ (e.andThen next).log := by
    cases hp : e.panic with
    | some p => rw [Effect.andThen_of_panic _ _ p hp]; exact List.Subset.refl _
    | none => rw [Effect.andThen_of_no_panic _ _ hp]; exact List.subset_append_left _ _
  rw [hearAll_append, Effect.andThen_of_no_panic _ _ h, hearAll_cons]
  exact List.subset_append_of_subset_right _ (hfirst _ _)

section

variable {L : Type u} [Listener L]

/-- All that a script shows in the diagnostics is its own, if the listeners report none. -/
theorem diagnostics_play (cues : List Cue) (ls : List L) (hbear : Bear (Cue.messages cues) ls)
    (hdiscreet : ∀ l ∈ ls, ∀ d, .traced d ∉ (Listener.hearAll (Cue.messages cues) l).log) :
    Occurrence.diagnostics (play cues ls).log = cues.flatMap Cue.diagnostics := by
  have hnone (k : Nat) (l : L) (hl : ls[k]? = some l) (before : List Message) (m : Message)
      (after : List Message) (hcues : Cue.messages cues = before ++ m :: after) :
      (hearing k m (Listener.hearAll before l).state).filterMap Occurrence.diagnostic? = [] := by
    have hmem : l ∈ ls := List.mem_of_getElem? hl
    have hquiet : (Listener.hearAll before l).panic = none := by
      apply Listener.hearAll_panic_left before (m :: after) l
      rw [← hcues]
      exact hbear l hmem
    rw [hearing, List.filterMap_cons_none rfl, List.filterMap_map, List.filterMap_eq_nil_iff]
    intro e he
    cases e with
    | traced d =>
      refine absurd ?_ (hdiscreet l hmem d)
      rw [hcues]
      exact Listener.log_hear_subset before m after l hquiet he
    | _ => rfl
  have hshown := filterMap_play_of_bear Occurrence.diagnostic? (fun _ _ => []) cues ls hbear hnone
  rw [Occurrence.diagnostics, hshown]
  apply List.flatMap_congr
  intro c _
  have hempty : ((List.range ls.length).flatMap fun _ => ([] : List Diagnostic)) = [] :=
    List.flatMap_eq_nil_iff.mpr fun _ _ => rfl
  simp only [hempty, Cue.diagnostics]
  cases c.message? <;> exact List.append_nil _

/-- A walk that is ready has done so in one poll, and no listener has panicked. -/
theorem play_of_ready (library : Library) (h : library.Settles) (n : Node) (listeners : List L)
    (actions : List Action)
    (hready : .ready ∈ (Session.ofNode library n listeners).outcomes actions) :
    let e := play (library.plan .blank 0 n.agenda).cues listeners
    e.panic = none ∧ (Session.ofNode library n listeners).logAll actions = e.log := by
  intro e
  obtain ⟨_, hlog, _⟩ := poll_ofNode library n listeners
  obtain ⟨hover, hpanic⟩ := poll_of_settles library h n listeners
  rcases (Session.ofNode library n listeners).logAll_of_one_poll actions rfl hover with
    ⟨_, hnever⟩ | ⟨hpoll, hdone⟩
  · exact absurd hready hnever
  · exact ⟨hpanic.mp (hdone hready), hpoll.trans hlog⟩

/-- The trace of a complete walk goes through the listing of its tree, and tells of each step, behind
its beginning, what executing it comes to. The labels in it are those that every listener hears, and
the warnings in it are as many as the steps that are undefined and that fail. -/
theorem trace_of_complete_walk (library : Library) (n : Node) (listeners : List L)
    (h : library.Settles)
    (hdiscreet : ∀ l ∈ listeners, ∀ d,
      .traced d ∉ (Listener.hearAll (n.listing library.results) l).log) :
    let walk := Session.ofNode library n listeners
    let listing := n.listing library.results
    (Bear listing listeners → walk.poll.outcome = .ready) ∧
      ∀ actions, .ready ∈ walk.outcomes actions →
        let log := walk.logAll actions
        let trace := Occurrence.trace log
        (∃ execution : Step → List TraceLine,
          (∀ s ∈ n.steps, library.Executes s (library.resultOf s) (execution s)) ∧
            trace = listing.flatMap fun m => m.line :: m.begins?.toList.flatMap execution) ∧
        (∀ i < listeners.length,
          trace.filterMap TraceLine.label? = (Occurrence.heardBy i log).map Message.label) ∧
        trace.filterMap TraceLine.label? = listing.map Message.label ∧
        trace.countP TraceLine.isUnmatched =
          n.steps.countP (fun s => (library.resultOf s).isUndefined) ∧
        trace.countP TraceLine.isFailed =
          n.steps.countP (fun s => (library.resultOf s).error?.isSome) := by
  intro walk listing
  refine ⟨(library.poll_ready_iff h n listeners).1.mpr, fun actions hready => ?_⟩
  obtain ⟨hpanic, hlog⟩ := play_of_ready library h n listeners actions hready
  obtain ⟨_, hmessages, _⟩ := library.plan_of_settles h .blank n
  have hbear : Bear (Cue.messages (library.plan .blank 0 n.agenda).cues) listeners :=
    no_panic_of_play _ _ hpanic
  obtain ⟨_, _, hheard⟩ := play_of_no_panic _ listeners hbear
  have hexecutes : ∀ s ∈ Message.begun listing, library.Executes s (library.resultOf s)
      ((library.executing s).map Diagnostic.line) :=
    fun s _ => library.executes_executing h s
  have htrace : Occurrence.trace (walk.logAll actions) =
      listing.flatMap (Message.written fun s => (library.executing s).map Diagnostic.line) := by
    have hdiagnostics := diagnostics_play _ listeners hbear (by rw [hmessages]; exact hdiscreet)
    rw [(library.prospect_agenda .blank n).diagnostics h 0, ← n.listing_eq_scenes] at hdiagnostics
    rw [hlog, Occurrence.trace, hdiagnostics, List.map_flatMap]
    apply List.flatMap_congr
    intro m _
    rw [Library.announcing, List.map_cons, List.map_flatMap]
    rfl
  have hlabels : (Occurrence.trace (walk.logAll actions)).filterMap TraceLine.label? =
      listing.map Message.label := by
    rw [htrace]
    exact Message.label?_written _ _ fun s hs => (hexecutes s hs).filterMap_label?
  have hsteps : Message.begun listing = n.steps := n.begun_listing library.results
  refine ⟨⟨_, fun s hs => hexecutes s (hsteps ▸ hs), htrace⟩, fun i hi => ?_, hlabels, ?_, ?_⟩
  · rw [hlabels, hlog, hheard i hi, hmessages]
  · rw [htrace, ← hsteps]
    exact Message.countP_written _ _ (fun _ => rfl) _ _ fun s hs =>
      (hexecutes s hs).countP_isUnmatched
  · rw [htrace, ← hsteps]
    exact Message.countP_written _ _ (fun _ => rfl) _ _ fun s hs => (hexecutes s hs).countP_isFailed

end

/-- Behind the broadcasts, of four steps one fails by a panic, one is undefined and one fails. -/
theorem mixedTree_trace :
    let walk := Session.ofNode obedientLibrary mixedTree [({} : ProgressLog)]
    let trace := Occurrence.trace (walk.logAll [.poll])
    obedientLibrary.Settles ∧
      (∀ l ∈ [({} : ProgressLog)], ∀ d,
        .traced d ∉ (Listener.hearAll (mixedTree.listing obedientLibrary.results) l).log) ∧
      .ready ∈ walk.outcomes [.poll] ∧
      trace.filterMap TraceLine.label? =
        (Occurrence.heardBy 0 (walk.logAll [.poll])).map Message.label ∧
      trace.countP TraceLine.isUnmatched = 1 ∧ trace.countP TraceLine.isFailed = 2 ∧
      trace.filter (fun line => line.level ≠ .debug) =
        [⟨.trace, "invoking step definition",
            [("pattern", .text "g"), ("step", .text "go"), ("arguments", .number 1)]⟩,
          ⟨.warn, "step failed", [("error", .text "Step panicked: as told")]⟩,
          ⟨.warn, "no step definition matches", [("step", .text "run"), ("line", .number 2)]⟩,
          ⟨.trace, "invoking step definition",
            [("pattern", .text "g"), ("step", .text "go"), ("arguments", .number 1)]⟩,
          ⟨.warn, "step failed", [("error", .text "Step failed: as told")]⟩,
          ⟨.trace, "invoking step definition",
            [("pattern", .text "g"), ("step", .text "go on"), ("arguments", .number 0)]⟩] := by
  have hdiscreet : ∀ l ∈ [({} : ProgressLog)], ∀ d,
      .traced d ∉ (Listener.hearAll (mixedTree.listing obedientLibrary.results) l).log := by
    intro l hl d
    obtain rfl := List.mem_singleton.mp hl
    have hsilent : (Listener.hearAll (mixedTree.listing obedientLibrary.results)
        ({} : ProgressLog)).log = [] := by decide +kernel
    rw [hsilent]
    exact List.not_mem_nil
  obtain ⟨hdone, hcomplete⟩ := trace_of_complete_walk obedientLibrary mixedTree
    [({} : ProgressLog)] obedientLibrary_settles hdiscreet
  have hready : .ready ∈ (Session.ofNode obedientLibrary mixedTree
      [({} : ProgressLog)]).outcomes [.poll] := by
    rw [Session.outcomes_cons]
    exact List.mem_cons.mpr (Or.inl (hdone (bear_of_steady _ _)).symm)
  obtain ⟨_, hlabels, _, hunmatched, hfailed⟩ := hcomplete [.poll] hready
  refine ⟨obedientLibrary_settles, hdiscreet, hready, hlabels 0 (by decide), ?_, ?_, ?_⟩
  · exact hunmatched.trans (by decide)
  · exact hfailed.trans (by decide)
  · decide +kernel

end FeatureRun
