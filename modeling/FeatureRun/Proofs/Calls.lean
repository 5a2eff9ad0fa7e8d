import Mathlib.Data.List.Forall2
import FeatureRun.Proofs.ListenerPanic

namespace FeatureRun

universe u

namespace Library

/-- No definition matches a name. -/
def NoMatch (library : Library) (name : String) : Prop :=
  ∀ d ∈ library.definitions, d.isMatch name = false

/-- A definition matches a name, and none that is registered before it does. -/
def FirstMatch (library : Library) (name : String) (d : StepDefinition) : Prop :=
  d.isMatch name = true ∧ ∃ before after, library.definitions = before ++ d :: after ∧
    ∀ d' ∈ before, d'.isMatch name = false

/-- What a step calls. A group that takes no part in the match leaves an empty text in its place. -/
inductive Answers (library : Library) (s : Step) : List (StepDefinition × List String) → Prop
  | unmatched (h : library.NoMatch s.name) : Answers library s []
  | matched (d : StepDefinition) (h : library.FirstMatch s.name d)
      (whole : Option String) (groups : List (Option String))
      (hcaptures : d.pattern.captures? s.name = some (whole :: groups)) :
      Answers library s [(d, groups.map (·.getD "") ++ s.docString.toList)]

variable (library : Library)

theorem noMatch_iff (name : String) : library.NoMatch name ↔ library.lookup? name = none := by
  simp only [NoMatch, lookup?, List.find?_eq_none, Bool.not_eq_true]

theorem firstMatch_iff (name : String) (d : StepDefinition) :
    library.FirstMatch name d ↔ library.lookup? name = some d := by
  simp only [FirstMatch, lookup?, List.find?_eq_some_iff_append, Bool.not_eq_true']

/-- What the callback is given are the texts of the groups, the whole match left out. -/
theorem arguments_of_captures (d : StepDefinition) (s : Step) (whole : Option String)
    (groups : List (Option String)) (h : d.pattern.captures? s.name = some (whole :: groups)) :
    d.arguments s.name s.docString = groups.map (·.getD "") ++ s.docString.toList := by
  rw [StepDefinition.arguments, h]
  rfl

/-- The step determines what it calls, as long as a name that matches has captures. -/
theorem answers_iff (hmatch : ∀ d ∈ library.definitions, d.pattern.MatchesCaptured)
    (hgroups : ∀ d ∈ library.definitions, d.pattern.CapturesGroups) (s : Step)
    (calls : List (StepDefinition × List String)) :
    library.Answers s calls ↔ library.callsOf s = calls := by
  constructor
  · intro h
    cases h with
    | unmatched h => simp only [callsOf, (library.noMatch_iff s.name).mp h]
    | matched d h whole groups hcaptures =>
      simp only [callsOf, (library.firstMatch_iff s.name d).mp h,
        arguments_of_captures d s whole groups hcaptures]
  · rintro rfl
    cases hl : library.lookup? s.name with
    | none =>
      simp only [callsOf, hl]
      exact .unmatched ((library.noMatch_iff s.name).mpr hl)
    | some d =>
      have hd : d ∈ library.definitions := List.mem_of_find?_eq_some hl
      have hfirst := (library.firstMatch_iff s.name d).mpr hl
      obtain ⟨whole, groups, hcaptures⟩ :=
        Pattern.exists_captures (hmatch d hd) (hgroups d hd) s.name hfirst.1
      simp only [callsOf, hl, arguments_of_captures d s whole groups hcaptures]
      exact .matched d hfirst whole groups hcaptures

/-- What steps call is determined by them, one step after another. -/
theorem forall₂_answers_iff (hmatch : ∀ d ∈ library.definitions, d.pattern.MatchesCaptured)
    (hgroups : ∀ d ∈ library.definitions, d.pattern.CapturesGroups) (steps : List Step)
    (answers : List (List (StepDefinition × List String))) :
    List.Forall₂ library.Answers steps answers ↔ answers = steps.map library.callsOf := by
  have hone : library.Answers = fun s calls => library.callsOf s = calls := by
    funext s calls
    exact propext (library.answers_iff hmatch hgroups s calls)
  rw [hone, ← List.forall₂_map_left_iff, List.forall₂_eq_eq_eq]
  exact eq_comm

/-- However many groups take part, a call has an argument for each, and one for a doc string. -/
theorem Answers.length_arguments {library : Library}
    (hgroups : ∀ d ∈ library.definitions, d.pattern.CapturesGroups) {s : Step}
    {calls : List (StepDefinition × List String)} (h : library.Answers s calls) :
    ∀ call ∈ calls,
      call.2.length = call.1.pattern.groups + if s.docString.isSome then 1 else 0 := by
  cases h with
  | unmatched h => exact fun call hcall => absurd hcall (by simp)
  | matched d h whole groups hcaptures =>
    intro call hcall
    obtain rfl := List.mem_singleton.mp hcall
    obtain ⟨_, before, after, hdefinitions, _⟩ := h
    have hd : d ∈ library.definitions := by simp [hdefinitions]
    rw [List.length_append, List.length_map, (hgroups d hd).length_groups hcaptures]
    cases s.docString <;> rfl

end Library

namespace Session

variable {W : Type u}

/-- A session that holds no completions and is over after one poll does nothing but that poll. -/
theorem logAll_of_one_poll (s : Session W) (actions : List Action) (hheld : s.desk.held = [])
    (hover : s.poll.session.stage = .over) :
    (s.logAll actions = [] ∧ .ready ∉ s.outcomes actions) ∨
      s.logAll actions = s.poll.log ∧ (.ready ∈ s.outcomes actions → s.poll.outcome = .ready) := by
  induction actions with
  | nil => exact Or.inl ⟨rfl, by simp [outcomes, actAll]⟩
  | cons a rest ih =>
    have hidle (outcome : Outcome) (hne : outcome ≠ .ready)
        (hact : s.act a = ⟨s, outcome, []⟩) :
        s.logAll (a :: rest) = s.logAll rest ∧
          (.ready ∈ s.outcomes (a :: rest) ↔ .ready ∈ s.outcomes rest) := by
      rw [s.logAll_cons, s.outcomes_cons, hact]
      exact ⟨rfl, by simp [hne.symm]⟩
    cases a with
    | poll =>
      obtain ⟨hlater, hnever⟩ := s.poll.session.actions_of_over rest hover
      refine Or.inr ⟨?_, fun hmem => ?_⟩
      · rw [s.logAll_cons]
        show s.poll.log ++ s.poll.session.logAll rest = s.poll.log
        rw [hlater, List.append_nil]
      · rcases List.mem_cons.mp hmem with he | hmem
        · exact he.symm
        · exact absurd hmem hnever
    | abandon =>
      obtain ⟨hlater, hnever⟩ := (s.act .abandon).session.actions_of_over rest rfl
      refine Or.inl ⟨?_, fun hmem => ?_⟩
      · rw [s.logAll_cons, hlater]
        rfl
      · rcases List.mem_cons.mp hmem with he | hmem
        · exact Outcome.noConfusion he
        · exact hnever hmem
    | signal position signal =>
      obtain ⟨hlog, hready⟩ := hidle .nothingHeld Outcome.noConfusion
        (by simp only [act, releaseAt, hheld, List.getElem?_nil])
      rwa [hlog, hready]
    | discard position =>
      obtain ⟨hlog, hready⟩ := hidle .nothingHeld Outcome.noConfusion
        (by simp only [act, releaseAt, hheld, List.getElem?_nil])
      rwa [hlog, hready]
    | discardAll =>
      obtain ⟨hlog, hready⟩ := hidle .dropped Outcome.noConfusion
        (by simp only [act, releaseAll, hheld, List.foldl_nil])
      rwa [hlog, hready]

end Session

section

variable {L : Type u} [Listener L]

/-- The calls of a walk are what its steps answer, and cannot but answer, one step after another. A
walk that comes to its end has made them all, and it does if no listener panics. -/
theorem calls_in_order_of_steps (library : Library) (n : Node) (listeners : List L)
    (h : library.Settles) (hmatch : ∀ d ∈ library.definitions, d.pattern.MatchesCaptured)
    (hgroups : ∀ d ∈ library.definitions, d.pattern.CapturesGroups) :
    let walk := Session.ofNode library n listeners
    ∃ answers, (∀ others, List.Forall₂ library.Answers n.steps others ↔ others = answers) ∧
      List.Forall₂ (fun s calls => ∀ call ∈ calls,
        call.2.length = call.1.pattern.groups + if s.docString.isSome then 1 else 0)
        n.steps answers ∧
      (∀ actions, Occurrence.calls (walk.logAll actions) <+: answers.flatten ∧
        (.ready ∈ walk.outcomes actions →
          Occurrence.calls (walk.logAll actions) = answers.flatten)) ∧
      (Bear (n.listing library.results) listeners → walk.poll.outcome = .ready) := by
  intro walk
  obtain ⟨_, hmessages, hcalls⟩ := library.plan_of_settles h .blank n
  obtain ⟨_, hlog, _⟩ := poll_ofNode library n listeners
  obtain ⟨hover, hquiet⟩ := poll_of_settles library h n listeners
  have hdetermined := library.forall₂_answers_iff hmatch hgroups n.steps
  have hanswers := (hdetermined (n.steps.map library.callsOf)).mpr rfl
  have hall : (n.steps.map library.callsOf).flatten =
      Cue.calls (library.plan .blank 0 n.agenda).cues := by
    rw [hcalls, Library.calls, List.flatMap_def]
  have hcalled := filterMap_play Occurrence.call? (fun m ls => calls_tell m 0 ls)
    (library.plan .blank 0 n.agenda).cues listeners
  rw [flatMap_calls_log, ← hlog, ← hall] at hcalled
  refine ⟨_, hdetermined, hanswers.imp fun _ _ hs => hs.length_arguments hgroups, fun actions => ?_,
    fun hbear => ?_⟩
  · rcases walk.logAll_of_one_poll actions rfl hover with ⟨hnothing, hnever⟩ | ⟨hpoll, hready⟩
    · rw [hnothing]
      exact ⟨List.nil_prefix, fun hmem => absurd hmem hnever⟩
    · rw [hpoll]
      exact ⟨hcalled.1, fun hmem => hcalled.2 (hquiet.mp (hready hmem))⟩
  · obtain ⟨_, hpanic, _⟩ := play_of_no_panic (library.plan .blank 0 n.agenda).cues listeners
      (by rw [hmessages]; exact hbear)
    exact hquiet.mpr hpanic

end

/-- A pattern that finds the letter g, and captures it and the letters o and n that may follow. -/
def Pattern.findsGon : Pattern := (Pattern.ofText? "(g)(o)?(n)?").getD default

/-- Two definitions that match the same names, so that only the first is ever called. -/
def groupingLibrary : Library :=
  ⟨[⟨.findsGon, 0, fun _ => ⟨.signalled .done, none⟩⟩,
    ⟨.findsG, 1, fun _ => ⟨.signalled .done, none⟩⟩]⟩

def groupingTree : Node :=
  .scenario {
    keyword := "Scenario", name := "groups"
    steps := [⟨"* ", "gn", 1, some "text"⟩, ⟨"* ", "run", 2, none⟩, ⟨"* ", "go", 3, none⟩] }

theorem groupingLibrary_settles : groupingLibrary.Settles := by
  intro d hd arguments
  rcases List.mem_pair.mp hd with rfl | rfl <;> exact Or.inr ⟨.done, rfl⟩

theorem Pattern.lawful_findsGon :
    Pattern.findsGon.MatchesCaptured ∧ Pattern.findsGon.CapturesGroups := by
  have hread : Pattern.ofText? "(g)(o)?(n)?" = some .findsGon := by
    rw [findsGon]
    rfl
  exact Pattern.lawful_of_ofText? hread

/-- A group that takes no part leaves its place empty, whether it is the last or not. -/
theorem groupingTree_calls :
    let walk := Session.ofNode groupingLibrary groupingTree [({} : Statistics)]
    groupingLibrary.Settles ∧
      (∀ d ∈ groupingLibrary.definitions, d.pattern.MatchesCaptured) ∧
      (∀ d ∈ groupingLibrary.definitions, d.pattern.CapturesGroups) ∧
      ∃ answers, List.Forall₂ groupingLibrary.Answers groupingTree.steps answers ∧
        Occurrence.calls (walk.logAll [.poll, .poll]) = answers.flatten ∧
        answers.flatten.map (fun call => (call.1.label, call.2)) =
          [(0, ["g", "", "n", "text"]), (0, ["g", "o", ""])] := by
  intro walk
  have hmatch : ∀ d ∈ groupingLibrary.definitions, d.pattern.MatchesCaptured := by
    intro d hd
    rcases List.mem_pair.mp hd with rfl | rfl
    · exact Pattern.lawful_findsGon.1
    · exact Pattern.matchesCaptured_ofProgram _ _ _
  have hgroups : ∀ d ∈ groupingLibrary.definitions, d.pattern.CapturesGroups := by
    intro d hd
    rcases List.mem_pair.mp hd with rfl | rfl
    · exact Pattern.lawful_findsGon.2
    · exact Pattern.capturesGroups_ofProgram _ _ _
  obtain ⟨answers, hdetermined, _, hcalls, hready⟩ := calls_in_order_of_steps groupingLibrary
    groupingTree [({} : Statistics)] groupingLibrary_settles hmatch hgroups
  have hanswers := (hdetermined answers).mpr rfl
  have hdone : walk.poll.outcome = .ready := hready (bear_statistics _ _)
  have hmem : .ready ∈ walk.outcomes [.poll, .poll] := by
    rw [walk.outcomes_cons]
    exact hdone ▸ List.mem_cons_self ..
  have hall := (hcalls [.poll, .poll]).2 hmem
  refine ⟨groupingLibrary_settles, hmatch, hgroups, answers, hanswers, hall, ?_⟩
  rw [← hall]
  decide +kernel

end FeatureRun
