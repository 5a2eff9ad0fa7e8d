import FeatureRun.Replay

namespace FeatureRun

/-- The first text without the line feed it begins with, if it does, and then without the line feed
it ends with, if what is left does. -/
def Undelimited (raw content : List Char) : Prop :=
  ∃ rest, (raw = '\n' :: rest ∨ raw = rest ∧ rest.head? ≠ some '\n') ∧
    (rest = content ++ ['\n'] ∨ rest = content ∧ content.getLast? ≠ some '\n')

theorem dropFirstLineFeed_eq_iff (raw rest : List Char) :
    dropFirstLineFeed raw = rest ↔ raw = '\n' :: rest ∨ raw = rest ∧ rest.head? ≠ some '\n' := by
  rcases raw with _ | ⟨c, cs⟩
  · simp only [dropFirstLineFeed]
    constructor
    · rintro rfl
      exact Or.inr ⟨rfl, by simp⟩
    · rintro (h | ⟨rfl, _⟩)
      · exact absurd h (by simp)
      · rfl
  · by_cases hc : c = '\n'
    · subst hc
      constructor
      · rintro rfl
        exact Or.inl rfl
      · rintro (h | ⟨rfl, h⟩)
        · exact (List.cons.inj h).2
        · exact absurd rfl h
    · have hdrop : dropFirstLineFeed (c :: cs) = c :: cs := by
        unfold dropFirstLineFeed
        split
        · next h => exact absurd (List.cons.inj h).1 hc
        · rfl
      rw [hdrop]
      constructor
      · rintro rfl
        exact Or.inr ⟨rfl, by simpa using hc⟩
      · rintro (h | ⟨h, _⟩)
        · exact absurd (List.cons.inj h).1 hc
        · exact h

theorem dropLastLineFeed_eq_iff (rest content : List Char) :
    dropLastLineFeed rest = content ↔
      rest = content ++ ['\n'] ∨ rest = content ∧ content.getLast? ≠ some '\n' := by
  unfold dropLastLineFeed
  by_cases h : rest.getLast? = some '\n'
  · rw [if_pos h]
    obtain ⟨front, rfl⟩ := List.getLast?_eq_some_iff.mp h
    rw [List.dropLast_concat]
    constructor
    · rintro rfl
      exact Or.inl rfl
    · rintro (he | ⟨rfl, hlast⟩)
      · exact List.append_cancel_right he
      · exact absurd h hlast
  · rw [if_neg h]
    constructor
    · rintro rfl
      exact Or.inr ⟨rfl, h⟩
    · rintro (rfl | ⟨he, _⟩)
      · exact absurd List.getLast?_concat h
      · exact he

theorem docStringContent_eq_iff (raw : String) (content : List Char) :
    docStringContent raw = String.ofList content ↔ Undelimited raw.toList content := by
  have hlist : docStringContent raw = String.ofList content ↔
      dropLastLineFeed (dropFirstLineFeed raw.toList) = content := by
    rw [docStringContent, String.ofList_inj]
  rw [hlist, dropLastLineFeed_eq_iff]
  constructor
  · intro h
    exact ⟨_, (dropFirstLineFeed_eq_iff _ _).mp rfl, h⟩
  · rintro ⟨rest, hfirst, hlast⟩
    rw [(dropFirstLineFeed_eq_iff _ _).mpr hfirst]
    exact hlast

def StepText.step (s : StepText) : Step :=
  { keyword := s.keyword, name := s.value, line := s.line
    docString := s.docString.map docStringContent }

/-- The scenario of a text, with the steps of the backgrounds that apply to it in front. -/
def ScenarioText.scenario (background : List StepText) (s : ScenarioText) : Scenario :=
  { keyword := s.keyword, name := s.name, steps := (background ++ s.steps).map StepText.step }

namespace FeatureText

/-- The scenario texts of a feature, its own first and then those of its rules, each with the steps
of the backgrounds that apply to it. -/
def settings (f : FeatureText) : List (List StepText × ScenarioText) :=
  f.scenarios.map (fun s => (f.background.getD [], s)) ++
    f.rules.flatMap fun r =>
      r.scenarios.map fun s => (f.background.getD [] ++ r.background.getD [], s)

def feature (f : FeatureText) : Feature :=
  { keyword := f.keyword, name := f.name, description := f.description.getD ""
    scenarios := f.settings.map fun (background, s) => s.scenario background }

/-- What is reported of the nodes of a feature, when they are added. -/
def diagnostics (f : FeatureText) : List Diagnostic :=
  .parsedFeature f.name :: f.settings.map fun (_, s) => .parsedScenario s.name s.line

theorem entries_eq_settings (f : FeatureText) :
    f.entries = .feature f.keyword f.name (f.description.getD "") ::
      f.settings.flatMap fun (background, s) => s.entries background := by
  simp only [entries, settings, backgroundSteps, List.flatMap_append, List.flatMap_map,
    List.flatMap_assoc, List.cons_append]
  rfl

end FeatureText

namespace Draft

theorem add_scenario (fs : List Feature) (f : Feature) (keyword name : String) (line : Nat) :
    add ⟨fs ++ [f]⟩ (.scenario keyword name line) =
      (⟨fs ++ [f.addScenario { keyword, name }]⟩, .ok ()) := by
  simp [add, addScenario?, lastFeature?, amendLastFeature, orElseOrphan]

theorem add_step (fs : List Feature) (f : Feature) (s : Scenario) (keyword name : String)
    (line : Nat) :
    add ⟨fs ++ [f.addScenario s]⟩ (.step keyword name line) =
      (⟨fs ++ [f.addScenario (s.addStep { keyword, name, line })]⟩, .ok ()) := by
  simp [add, addStep?, lastScenario?, lastFeature?, Feature.lastScenario?, Feature.addScenario,
    Feature.amendLastScenario, amendLastFeature, orElseOrphan]

theorem add_docString (fs : List Feature) (f : Feature) (s : Scenario) (t : Step)
    (content : String) (line : Nat) :
    add ⟨fs ++ [f.addScenario (s.addStep t)]⟩ (.docString content line) =
      (⟨fs ++ [f.addScenario (s.addStep { t with docString := some content })]⟩, .ok ()) := by
  simp [add, attachDocString?, lastStep?, lastScenario?, lastFeature?, Feature.lastScenario?,
    Scenario.lastStep?, Feature.addScenario, Feature.amendLastScenario, Scenario.addStep,
    Scenario.amendLastStep, amendLastFeature, orElseOrphan]

theorem addAll_cons (d d' : Draft) (e : Entry) (rest : List Entry) (h : d.add e = (d', .ok ())) :
    d.addAll (e :: rest) = ((d'.addAll rest).1, e.diagnostics ++ (d'.addAll rest).2) := by
  simp only [addAll, h]

theorem addAll_append (d d' : Draft) (a b : List Entry) (log : List Diagnostic)
    (h : d.addAll a = (.ok d', log)) :
    d.addAll (a ++ b) = ((d'.addAll b).1, log ++ (d'.addAll b).2) := by
  induction a generalizing d log with
  | nil =>
    obtain ⟨hd, rfl⟩ := Prod.mk.inj h
    obtain rfl := Except.ok.inj hd
    rfl
  | cons e rest ih =>
    rcases he : d.add e with ⟨next, o | _⟩
    · rw [addAll] at h
      simp only [he] at h
      exact absurd (Prod.mk.inj h).1 (by simp)
    · rw [addAll_cons d next e rest he] at h
      obtain ⟨hresult, rfl⟩ := Prod.mk.inj h
      have hrest := ih next _ (Prod.ext hresult rfl)
      rw [List.cons_append, addAll_cons d next e _ he, hrest, List.append_assoc]

/-- The steps of a scenario are added to it, each with its own doc string. -/
theorem addAll_steps (fs : List Feature) (f : Feature) (s : Scenario) (ts : List StepText) :
    addAll ⟨fs ++ [f.addScenario s]⟩ (ts.flatMap StepText.entries) =
      (.ok ⟨fs ++ [f.addScenario { s with steps := s.steps ++ ts.map StepText.step }]⟩, []) := by
  induction ts generalizing s with
  | nil => simp [addAll]
  | cons t rest ih =>
    have hone : addAll ⟨fs ++ [f.addScenario s]⟩ t.entries =
        (.ok ⟨fs ++ [f.addScenario (s.addStep t.step)]⟩, []) := by
      have hstep := add_step fs f s t.keyword t.value t.line
      cases hdoc : t.docString with
      | none =>
        simp only [StepText.entries, hdoc, addAll_cons _ _ _ _ hstep, StepText.step]
        rfl
      | some raw =>
        have hattach := add_docString fs f s ⟨t.keyword, t.value, t.line, none⟩
          (docStringContent raw) t.line
        simp only [StepText.entries, hdoc, addAll_cons _ _ _ _ hstep,
          addAll_cons _ _ _ _ hattach, StepText.step]
        rfl
    rw [List.flatMap_cons, addAll_append _ _ _ _ _ hone, ih]
    simp [Scenario.addStep]

theorem addAll_scenario (fs : List Feature) (f : Feature) (background : List StepText)
    (s : ScenarioText) :
    addAll ⟨fs ++ [f]⟩ (s.entries background) =
      (.ok ⟨fs ++ [f.addScenario (s.scenario background)]⟩, [.parsedScenario s.name s.line]) := by
  rw [ScenarioText.entries, addAll_cons _ _ _ _ (add_scenario fs f s.keyword s.name s.line),
    addAll_steps]
  rfl

theorem addAll_scenarios (fs : List Feature) (f : Feature)
    (settings : List (List StepText × ScenarioText)) :
    addAll ⟨fs ++ [f]⟩ (settings.flatMap fun (background, s) => s.entries background) =
      (.ok ⟨fs ++ [{ f with
          scenarios := f.scenarios ++ settings.map fun (background, s) => s.scenario background }]⟩,
        settings.map fun (_, s) => .parsedScenario s.name s.line) := by
  induction settings generalizing f with
  | nil => simp [addAll]
  | cons setting rest ih =>
    obtain ⟨background, s⟩ := setting
    rw [List.flatMap_cons, addAll_append _ _ _ _ _ (addAll_scenario fs f background s), ih]
    simp [Feature.addScenario]

theorem replay_eq (d : Draft) (g : FeatureText) :
    d.replay g = (.ok ⟨d.features ++ [g.feature]⟩, g.diagnostics) := by
  have hfeature : d.add (.feature g.keyword g.name (g.description.getD "")) =
      (⟨d.features ++ [{ keyword := g.keyword, name := g.name
                         description := g.description.getD "" }]⟩, .ok ()) := rfl
  rw [replay, g.entries_eq_settings, addAll_cons _ _ _ _ hfeature, addAll_scenarios]
  rfl

/-- Replaying a text never fails. It leaves the features of the draft as they are and adds the one
that the text stands for, whose doc strings are free of their delimiting line feeds. -/
theorem replay_adds_one_feature (d : Draft) (g : FeatureText) :
    (d.replay g).1 = .ok ⟨d.features ++ [g.feature]⟩ ∧
      ∀ raw content, docStringContent raw = String.ofList content ↔
        Undelimited raw.toList content := by
  rw [d.replay_eq g]
  exact ⟨rfl, docStringContent_eq_iff⟩

end Draft

end FeatureRun
