import Mathlib.Data.List.Forall2
import FeatureRun.Suite
import FeatureRun.Proofs.Hearing
import FeatureRun.Proofs.ListenerPanic
import FeatureRun.Proofs.Replay

namespace FeatureRun

universe u

section

variable (read : String → Except Malformed FeatureText)

/-- The sources can all be read, as the texts given. -/
def ReadAs (sources : List String) (texts : List FeatureText) : Prop :=
  List.Forall₂ (fun source text => read source = .ok text) sources texts

/-- The first of the sources that cannot be read is so for the cause given; those before it are
read as the texts given. -/
def FailsFirst (sources : List String) (texts : List FeatureText) (cause : Malformed) : Prop :=
  ∃ before source after, sources = before ++ source :: after ∧ ReadAs read before texts ∧
    read source = .error cause

theorem readAs_or_failsFirst (sources : List String) :
    (∃ texts, ReadAs read sources texts) ∨ ∃ texts cause, FailsFirst read sources texts cause := by
  induction sources with
  | nil => exact Or.inl ⟨[], .nil⟩
  | cons source rest ih =>
    cases hs : read source with
    | error cause => exact Or.inr ⟨[], cause, [], source, rest, rfl, .nil, hs⟩
    | ok text =>
      rcases ih with ⟨texts, h⟩ | ⟨texts, cause, before, other, after, rfl, h, hother⟩
      · exact Or.inl ⟨text :: texts, .cons hs h⟩
      · exact Or.inr ⟨text :: texts, cause, source :: before, other, after, rfl, .cons hs h, hother⟩

variable {read}

/-- Texts that can be read are replayed one after another, and then come the others. -/
theorem Draft.readAll_append (d : Draft) (before after : List String) (texts : List FeatureText)
    (h : ReadAs read before texts) :
    d.readAll read (before ++ after) =
      let rest := Draft.readAll read ⟨d.features ++ texts.map FeatureText.feature⟩ after
      (rest.1, texts.flatMap FeatureText.diagnostics ++ rest.2) := by
  induction h generalizing d with
  | nil => simp
  | cons hs _ ih =>
    rw [List.cons_append, Draft.readAll]
    simp only [hs, Draft.replay_eq, ih, List.map_cons, List.flatMap_cons, List.append_assoc,
      List.singleton_append]

theorem readFeatures_of_readAs (sources : List String) (texts : List FeatureText)
    (h : ReadAs read sources texts) :
    readFeatures read sources =
      (.ok (texts.map FeatureText.feature), texts.flatMap FeatureText.diagnostics) := by
  have hall := Draft.readAll_append {} sources [] texts h
  rw [List.append_nil] at hall
  simp [readFeatures, hall, Draft.readAll, Except.map]

theorem readFeatures_of_failsFirst (sources : List String) (texts : List FeatureText)
    (cause : Malformed) (h : FailsFirst read sources texts cause) :
    readFeatures read sources =
      (.error (.unreadable cause), texts.flatMap FeatureText.diagnostics) := by
  obtain ⟨before, source, after, rfl, hbefore, hs⟩ := h
  have hall := Draft.readAll_append {} before (source :: after) texts hbefore
  simp [readFeatures, hall, Draft.readAll, hs, Except.map]

theorem readFeatures_eq_ok_iff (sources : List String) (features : List Feature) :
    (readFeatures read sources).1 = .ok features ↔
      ∃ texts, ReadAs read sources texts ∧ features = texts.map FeatureText.feature := by
  constructor
  · intro h
    rcases readAs_or_failsFirst read sources with ⟨texts, hread⟩ | ⟨texts, cause, hfails⟩
    · rw [readFeatures_of_readAs sources texts hread] at h
      exact ⟨texts, hread, (Except.ok.inj h).symm⟩
    · rw [readFeatures_of_failsFirst sources texts cause hfails] at h
      exact absurd h (by simp)
  · rintro ⟨texts, hread, rfl⟩
    rw [readFeatures_of_readAs sources texts hread]

/-- Sources in two parts can be read if both parts can, and come to the features of both. -/
theorem readFeatures_append (xs ys : List String) (features : List Feature) :
    (readFeatures read (xs ++ ys)).1 = .ok features ↔
      ∃ first second, (readFeatures read xs).1 = .ok first ∧
        (readFeatures read ys).1 = .ok second ∧ features = first ++ second := by
  simp only [readFeatures_eq_ok_iff]
  constructor
  · rintro ⟨texts, hread, rfl⟩
    have hxs := List.forall₂_take xs.length hread
    have hys := List.forall₂_drop xs.length hread
    rw [List.take_left] at hxs
    rw [List.drop_left] at hys
    refine ⟨_, _, ⟨_, hxs, rfl⟩, ⟨_, hys, rfl⟩, ?_⟩
    rw [← List.map_append, List.take_append_drop]
  · rintro ⟨_, _, ⟨first, hxs, rfl⟩, ⟨second, hys, rfl⟩, rfl⟩
    exact ⟨first ++ second, List.rel_append hxs hys, by rw [List.map_append]⟩

end

/-- Telling a step how it stands starts no run anew, and stops none. -/
theorem Stage.inform_eq_refused_iff (stage : Stage) (ticket : Nat) (now : Standing)
    (e : RunError) : stage.inform ticket now = .refused e ↔ stage = .refused e := by
  cases stage with
  | refused e' => exact Iff.rfl
  | «over» => exact Iff.rfl
  | underway todo =>
    have hunderway : ∃ todo', (Stage.underway todo).inform ticket now = .underway todo' := by
      rcases todo with _ | ⟨t, rest⟩
      · exact ⟨_, rfl⟩
      · cases t with
        | await t standing => cases standing <;> exact ⟨_, rfl⟩
        | _ => exact ⟨_, rfl⟩
    obtain ⟨todo', h⟩ := hunderway
    rw [h]
    exact ⟨fun he => Stage.noConfusion he, fun he => Stage.noConfusion he⟩

namespace Session

section

variable {W : Type u}

theorem visitor_releaseAll (s : Session W) (now : Standing) :
    (s.releaseAll now).visitor = s.visitor ∧ (s.releaseAll now).opening = s.opening ∧
      ∀ e, (s.releaseAll now).stage = .refused e ↔ s.stage = .refused e := by
  refine releaseAll_of_release (P := fun t => t.visitor = s.visitor ∧ t.opening = s.opening ∧
    ∀ e, t.stage = .refused e ↔ s.stage = .refused e) now ?_ s ⟨rfl, rfl, fun e => Iff.rfl⟩
  intro t ticket ⟨hvisitor, hopening, hstage⟩
  refine ⟨hvisitor, hopening, fun e => Iff.trans ?_ (hstage e)⟩
  exact t.stage.inform_eq_refused_iff ticket now e

/-- An action other than a poll leaves a session with its visitor and what it is to open with. It
refuses no run. -/
theorem act_of_ne_poll (s : Session W) (a : Action) (h : a ≠ .poll) :
    (s.act a).session.visitor = s.visitor ∧ (s.act a).session.opening = s.opening ∧
      (∀ e, (s.act a).session.stage = .refused e → s.stage = .refused e) ∧
      ∀ e, (s.act a).outcome ≠ .refused e := by
  have hat (position : Nat) (now : Standing) (outcome : Outcome)
      (houtcome : ∀ e, outcome ≠ .refused e) :
      let reply := s.releaseAt position now outcome
      reply.session.visitor = s.visitor ∧ reply.session.opening = s.opening ∧
        (∀ e, reply.session.stage = .refused e → s.stage = .refused e) ∧
        ∀ e, reply.outcome ≠ .refused e := by
    simp only [releaseAt]
    cases s.desk.held[position]? with
    | none => exact ⟨rfl, rfl, fun e he => he, fun e => Outcome.noConfusion⟩
    | some ticket =>
      exact ⟨rfl, rfl, fun e => (s.stage.inform_eq_refused_iff ticket now e).mp, houtcome⟩
  cases a with
  | poll => exact absurd rfl h
  | signal position signal => exact hat position _ _ fun e => Outcome.noConfusion
  | discard position => exact hat position _ _ fun e => Outcome.noConfusion
  | discardAll =>
    obtain ⟨hvisitor, hopening, hstage⟩ := s.visitor_releaseAll .lost
    exact ⟨hvisitor, hopening, fun e => (hstage e).mp, fun e => Outcome.noConfusion⟩
  | abandon =>
    exact ⟨rfl, rfl, fun e he => Stage.noConfusion he, fun e => Outcome.noConfusion⟩

theorem refused_of_poll (s : Session W) (e : RunError)
    (h : s.poll.session.stage = .refused e ∨ s.poll.outcome = .refused e) :
    s.stage = .refused e := by
  cases hs : s.stage with
  | refused e' =>
    simp only [poll, hs] at h
    rcases h with h | h
    · exact Stage.noConfusion h
    · rw [Outcome.refused.inj h]
  | «over» =>
    simp only [poll, hs] at h
    rcases h with h | h
    · exact Stage.noConfusion h
    · exact Outcome.noConfusion h
  | underway todo =>
    simp only [poll, hs] at h
    cases hround : (Agenda.resume (Desk.perform s.visitor) todo s.desk).ending <;>
      simp [hround] at h

/-- A run is refused only if it is so from the beginning, and for the error it began with. -/
theorem refused_of_mem_outcomes (s : Session W) (actions : List Action) (e : RunError)
    (h : .refused e ∈ s.outcomes actions) : s.stage = .refused e := by
  induction actions generalizing s with
  | nil => exact absurd h (by simp [outcomes, actAll])
  | cons a rest ih =>
    have hcases : (s.act a).outcome = .refused e ∨
        .refused e ∈ (s.act a).session.outcomes rest := by
      simpa [outcomes, actAll, eq_comm] using h
    by_cases ha : a = .poll
    · subst ha
      rcases hcases with hnow | hlater
      · exact s.refused_of_poll e (Or.inr hnow)
      · exact s.refused_of_poll e (Or.inl (ih _ hlater))
    · obtain ⟨_, _, hstage, houtcome⟩ := s.act_of_ne_poll a ha
      rcases hcases with hnow | hlater
      · exact absurd hnow (houtcome e)
      · exact hstage e (ih _ hlater)

end

section

variable {L : Type u} [Listener L]

/-- What can happen in a walk. -/
inductive Walking : Occurrence → Prop
  | announced (n : Notice) : Walking (.traced (.broadcasting n.message))
  | traced (d : Diagnostic) (h : ∀ m, d ≠ .broadcasting m) : Walking (.traced d)
  | called (d : StepDefinition) (arguments : List String) : Walking (.called d arguments)
  | handed (k : Nat) (m : Message) : Walking (.handed k m)
  | emitted (k : Nat) (e : Emission) : Walking (.emitted k e)

theorem walking_broadcast (n : Notice) (ls : List L) :
    ∀ o ∈ (broadcast n.message ls).log, Walking o := by
  refine List.forall_mem_cons.mpr ⟨.announced n, fun o ho => ?_⟩
  rcases tell_log n.message 0 ls o ho with ⟨k, rfl⟩ | ⟨k, e, rfl⟩
  · exact .handed k _
  · exact .emitted k e

theorem walking_announceResult (r : StepResult) (ls : List L) :
    ∀ o ∈ (announceResult r ls).log, Walking o := by
  have hresult := walking_broadcast (.stepResult r) ls
  simp only [announceResult]
  cases r.error? with
  | none => exact hresult
  | some e => exact List.forall_mem_cons.mpr ⟨.traced _ fun _ => Diagnostic.noConfusion, hresult⟩

theorem walking_settle (library : Library) (ticket : Nat) (standing : Standing)
    (d : Desk (List L)) : ∀ o ∈ (d.settle library.visitor ticket standing).log, Walking o := by
  cases standing with
  | settled r => exact walking_announceResult r d.world
  | waiting => exact List.forall_mem_nil _
  | lost => exact List.forall_mem_singleton.mpr (.traced _ fun _ => Diagnostic.noConfusion)

/-- The messages around a node are those of notices. -/
theorem exists_notice_of_node (n : Node) :
    (∃ notice : Notice, notice.message = .before n.event) ∧
      ∃ notice : Notice, notice.message = .after n.event := by
  cases n with
  | features all => exact ⟨⟨.beforeFeatures, rfl⟩, ⟨.afterFeatures, rfl⟩⟩
  | feature f => exact ⟨⟨.beforeFeature f, rfl⟩, ⟨.afterFeature f, rfl⟩⟩
  | scenario s => exact ⟨⟨.beforeScenario s, rfl⟩, ⟨.afterScenario s, rfl⟩⟩
  | step s => exact ⟨⟨.beforeStep s, rfl⟩, ⟨.afterStep s, rfl⟩⟩

theorem walking_perform (library : Library) (t : Task) (d : Desk (List L)) :
    ∀ o ∈ (Desk.perform library.visitor t d).log, Walking o := by
  cases t with
  | enter n =>
    obtain ⟨⟨notice, hnotice⟩, _⟩ := exists_notice_of_node n
    have hbroadcast := walking_broadcast notice d.world
    rw [hnotice] at hbroadcast
    exact hbroadcast
  | leave n =>
    obtain ⟨_, ⟨notice, hnotice⟩⟩ := exists_notice_of_node n
    have hbroadcast := walking_broadcast notice d.world
    rw [hnotice] at hbroadcast
    exact hbroadcast
  | execute s =>
    cases hl : library.lookup? s.name with
    | none =>
      simp only [Desk.perform, Desk.execute, Library.visitor, hl, List.nil_append]
      exact List.forall_mem_cons.mpr
        ⟨.traced _ fun _ => Diagnostic.noConfusion, walking_announceResult .undefined d.world⟩
    | some definition =>
      have hsettle := walking_settle library d.calls
        (definition.invoke s.name s.docString).standing
        (d.recordCall (definition.invoke s.name s.docString))
      have hv : library.visitor.lookup (W := List L) s.name = (some definition, []) := by
        simp only [Library.visitor, hl]
      simp only [Desk.perform, Desk.execute, hv, List.nil_append]
      refine List.forall_mem_cons.mpr ⟨.traced _ fun _ => Diagnostic.noConfusion, ?_⟩
      exact List.forall_mem_cons.mpr ⟨.called _ _, hsettle⟩
  | await ticket standing => exact walking_settle library ticket standing d
  | stuck => exact List.forall_mem_nil _
  | pause polls => rcases polls with _ | _ | _ <;> exact List.forall_mem_nil _

theorem walking_resume (library : Library) (tasks : List Task) (d : Desk (List L)) :
    ∀ o ∈ (Agenda.resume (Desk.perform library.visitor) tasks d).log, Walking o := by
  induction tasks generalizing d with
  | nil => exact List.forall_mem_nil _
  | cons t rest ih =>
    have hturn := walking_perform library t d
    simp only [Agenda.resume]
    cases (Desk.perform library.visitor t d).attempt with
    | finished => exact fun o ho => (List.mem_append.mp ho).elim (hturn o) (ih _ o)
    | blocked t' => exact hturn
    | crashed m => exact hturn

theorem walking_logAll (library : Library) (s : Session (List L)) (actions : List Action)
    (hvisitor : s.visitor = library.visitor) (hopening : s.opening = []) :
    ∀ o ∈ s.logAll actions, Walking o := by
  induction actions generalizing s with
  | nil => exact List.forall_mem_nil _
  | cons a rest ih =>
    rw [s.logAll_cons]
    by_cases ha : a = .poll
    · subst ha
      have hpoll : ∀ o ∈ s.poll.log, Walking o := by
        cases hs : s.stage with
        | refused e => simp [poll, hs, hopening]
        | «over» => simp [poll, hs]
        | underway todo =>
          simp only [poll, hs, hopening, List.nil_append, hvisitor]
          exact walking_resume library todo s.desk
      have hrest := ih s.poll.session (s.visitor_poll.trans hvisitor) (s.opening_poll hopening)
      exact fun o ho => (List.mem_append.mp ho).elim (hpoll o) (hrest o)
    · obtain ⟨hvisitor', hopening', _⟩ := s.act_of_ne_poll a ha
      rw [s.log_act a ha, List.nil_append]
      exact ih _ (hvisitor'.trans hvisitor) (hopening'.trans hopening)

/-- No walk runs the support code. -/
theorem setUp_not_mem_logAll (library : Library) (s : Session (List L)) (actions : List Action)
    (hvisitor : s.visitor = library.visitor) (hopening : s.opening = []) :
    .setUp ∉ s.logAll actions := by
  intro hmem
  cases walking_logAll library s actions hvisitor hopening _ hmem

/-- What a walk broadcasts is the message of a notice. -/
theorem exists_notice_of_mem_messages (library : Library) (s : Session (List L))
    (actions : List Action) (hvisitor : s.visitor = library.visitor) (hopening : s.opening = []) :
    ∀ m ∈ Occurrence.messages (s.logAll actions), ∃ n : Notice, m = n.message := by
  intro m hm
  obtain ⟨o, ho, hmessage⟩ := List.mem_filterMap.mp hm
  cases walking_logAll library s actions hvisitor hopening o ho with
  | announced n =>
    cases hmessage
    exact ⟨n, rfl⟩
  | traced d h =>
    cases d with
    | broadcasting m => exact absurd rfl (h m)
    | _ => exact absurd hmessage (by simp [Occurrence.message?])
  | _ => exact absurd hmessage (by simp [Occurrence.message?])

end

end Session

namespace Suite

variable {L : Type u} [Listener L] {read : String → Except Malformed FeatureText}

/-- The first poll of a suite with a bad source only tells what has been read before that one. -/
theorem poll_of_failsFirst (suite : Suite) (listeners : List L) (texts : List FeatureText)
    (cause : Malformed) (h : FailsFirst read suite.sources texts cause) :
    let run := suite.start read listeners
    run.stage = .refused (.unreadable cause) ∧ run.poll.outcome = .refused (.unreadable cause) ∧
      run.poll.log = (texts.flatMap FeatureText.diagnostics).map .traced ∧
      run.poll.session.desk.world = listeners ∧ run.poll.session.stage = .over := by
  simp only [start, readFeatures_of_failsFirst suite.sources texts cause h, Session.poll]
  exact ⟨trivial, trivial, trivial, trivial, trivial⟩

/-- The first poll of a suite whose sources can all be read opens the run and goes on as the walk
of their features. -/
theorem poll_of_readAs (suite : Suite) (listeners : List L) (texts : List FeatureText)
    (h : ReadAs read suite.sources texts) :
    let run := suite.start read listeners
    let walk := Session.ofNode (Library.define suite.supportCode)
      (.features (texts.map FeatureText.feature)) listeners
    run.stage = walk.stage ∧ run.poll.outcome = walk.poll.outcome ∧
      run.poll.session = walk.poll.session ∧
      run.poll.log = (texts.flatMap FeatureText.diagnostics).map .traced ++
        .setUp :: Library.definingLog suite.supportCode ++
        [.traced (.starting suite.sources.length suite.supportCode.length listeners.length)] ++
        walk.poll.log := by
  have hfeatures : (texts.map FeatureText.feature).length = suite.sources.length := by
    rw [List.length_map, h.length_eq]
  have hdefinitions : (Library.define suite.supportCode).size = suite.supportCode.length := by
    rw [Library.size, Library.definitions_define, List.length_map]
  intro run walk
  have hrun : run = { walk with
      opening := (texts.flatMap FeatureText.diagnostics).map .traced ++
        startingLog suite.supportCode suite.sources.length listeners.length } := by
    simp only [run, walk, start, readFeatures_of_readAs suite.sources texts h, hfeatures]
    rfl
  have hwalk : walk.stage = .underway (Node.features (texts.map FeatureText.feature)).agenda := rfl
  have hnothing : walk.opening = [] := rfl
  refine ⟨by rw [hrun], ?_, ?_, ?_⟩
  · simp only [hrun, Session.poll, hwalk]
  · simp only [hrun, Session.poll, hwalk]
  · simp only [hrun, Session.poll, hwalk, hnothing, startingLog, hdefinitions, List.append_assoc,
      List.nil_append]

/-- A suite is refused just if some source cannot be read, for the first that cannot, and then
nothing happens but the reading of those before it. Otherwise the support code is run once, when
everything has been read, and the rest is the walk of one feature a source. -/
theorem start_reads_before_walking (read : String → Except Malformed FeatureText) (suite : Suite)
    (listeners : List L) :
    let run := suite.start read listeners
    let reply := run.poll
    (∀ e, (∃ actions, .refused e ∈ run.outcomes actions) ↔
      ∃ texts cause, FailsFirst read suite.sources texts cause ∧ e = .unreadable cause) ∧
    ((∃ texts cause, FailsFirst read suite.sources texts cause ∧
        reply.outcome = .refused (.unreadable cause) ∧
        reply.log = (texts.flatMap FeatureText.diagnostics).map .traced ∧
        reply.session.desk.world = listeners ∧
        ∀ actions, reply.session.logAll actions = []) ∨
      ∃ texts, ReadAs read suite.sources texts ∧
        let walk := Session.ofNode (Library.define suite.supportCode)
          (.features (texts.map FeatureText.feature)) listeners
        reply.outcome = walk.poll.outcome ∧ reply.session = walk.poll.session ∧
          reply.log = (texts.flatMap FeatureText.diagnostics).map .traced ++
            .setUp :: Library.definingLog suite.supportCode ++
            [.traced (.starting suite.sources.length suite.supportCode.length listeners.length)] ++
            walk.poll.log ∧
          ∀ actions, .setUp ∉ walk.logAll actions) ∧
    ∀ xs ys features, (readFeatures read (xs ++ ys)).1 = .ok features ↔
      ∃ first second, (readFeatures read xs).1 = .ok first ∧
        (readFeatures read ys).1 = .ok second ∧ features = first ++ second := by
  intro run reply
  refine ⟨fun e => ⟨?_, ?_⟩, ?_, fun xs ys features => readFeatures_append xs ys features⟩
  · rintro ⟨actions, hmem⟩
    have hstage := run.refused_of_mem_outcomes actions e hmem
    rcases readAs_or_failsFirst read suite.sources with ⟨texts, h⟩ | ⟨texts, cause, h⟩
    · have hwalk := (suite.poll_of_readAs listeners texts h).1
      exact absurd (hwalk.symm.trans hstage) Stage.noConfusion
    · have hrefused := (suite.poll_of_failsFirst listeners texts cause h).1
      exact ⟨texts, cause, h, Stage.refused.inj (hstage.symm.trans hrefused)⟩
  · rintro ⟨texts, cause, h, rfl⟩
    refine ⟨[.poll], List.mem_singleton.mpr ?_⟩
    exact (suite.poll_of_failsFirst listeners texts cause h).2.1.symm
  · rcases readAs_or_failsFirst read suite.sources with ⟨texts, h⟩ | ⟨texts, cause, h⟩
    · obtain ⟨_, houtcome, hsession, hlog⟩ := suite.poll_of_readAs listeners texts h
      refine Or.inr ⟨texts, h, houtcome, hsession, hlog, fun actions => ?_⟩
      exact Session.setUp_not_mem_logAll (Library.define suite.supportCode) _ actions rfl rfl
    · obtain ⟨_, houtcome, hlog, hworld, hstage⟩ :=
        suite.poll_of_failsFirst listeners texts cause h
      exact Or.inl ⟨texts, cause, h, houtcome, hlog, hworld, fun actions =>
        reply.session.logAll_of_over actions hstage⟩

end Suite

end FeatureRun
