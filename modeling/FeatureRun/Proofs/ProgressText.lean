import FeatureRun.Proofs.Tally

namespace FeatureRun

open Listener (after after_cons after_append)

namespace Notice

def result? : Notice → Option StepResult
  | .stepResult r => some r
  | _ => none

/-- The results among notices, in order. -/
def results (ns : List Notice) : List StepResult := ns.filterMap result?

end Notice

namespace ProgressLog

/-- The results among notices that are no pass, each with the label of the step begun last before
it; `label` is that of a step begun before them all. -/
def problemsHeard : Option String → List Notice → List (String × StepResult)
  | _, [] => []
  | label, n :: rest =>
    match n with
    | .beforeStep s => problemsHeard (some s.label) rest
    | .stepResult r =>
      (if r.isSuccessful then [] else [(label.getD "", r)]) ++ problemsHeard label rest
    | _ => problemsHeard label rest

/-- A summary changes nothing but the log. -/
theorem logSummary_state (p : ProgressLog) :
    p.logSummary.state = { p with logs := p.logs ++ String.join p.summary } := by
  rw [logSummary_eq, logAll_eq]
  rfl

theorem notice_afterFeatures (p : ProgressLog) :
    (Listener.notice .afterFeatures p).state =
      { p with logs := p.logs ++ String.join p.summary } :=
  p.logSummary_state

theorem notice_stepResult (r : StepResult) (p : ProgressLog) :
    (Listener.notice (.stepResult r) p).state =
      { p with
        logs := p.logs ++ r.character
        statistics := (Listener.notice (.stepResult r) p.statistics).state
        problems := p.problems ++
          if r.isSuccessful then [] else [(p.currentStep.getD "", r)] } := by
  cases r with
  | passed =>
    have hnone : p.problems ++ (if StepResult.passed.isSuccessful then []
        else [(p.currentStep.getD "", .passed)]) = p.problems := List.append_nil _
    rw [hnone]
    rfl
  | _ => rfl

theorem notice_statistics (n : Notice) (p : ProgressLog) :
    (Listener.notice n p).state.statistics = (Listener.notice n p.statistics).state := by
  cases n with
  | afterFeatures => rw [notice_afterFeatures]; rfl
  | stepResult r => rw [notice_stepResult]
  | _ => rfl

theorem statistics_after (ns : List Notice) (p : ProgressLog) :
    (after ns p).statistics = after ns p.statistics := by
  induction ns generalizing p with
  | nil => rfl
  | cons n rest ih => rw [after_cons, ih, notice_statistics, after_cons]

theorem problems_after (ns : List Notice) (p : ProgressLog) :
    (after ns p).problems = p.problems ++ problemsHeard p.currentStep ns := by
  induction ns generalizing p with
  | nil => exact (List.append_nil _).symm
  | cons n rest ih =>
    rw [after_cons, ih]
    cases n with
    | afterFeatures =>
      rw [notice_afterFeatures]
      rfl
    | stepResult r =>
      rw [notice_stepResult]
      exact List.append_assoc ..
    | _ => rfl

theorem logs_after (ns : List Notice) (p : ProgressLog) (h : .afterFeatures ∉ ns) :
    (after ns p).logs = p.logs ++ String.join ((Notice.results ns).map StepResult.character) := by
  induction ns generalizing p with
  | nil => exact String.append_empty.symm
  | cons n rest ih =>
    rw [after_cons, ih _ fun hmem => h (List.mem_cons_of_mem n hmem)]
    cases n with
    | afterFeatures => exact absurd (List.mem_cons_self ..) h
    | stepResult r =>
      rw [notice_stepResult]
      have hresults : Notice.results (.stepResult r :: rest) = r :: Notice.results rest := rfl
      rw [hresults, List.map_cons, String.join_cons, String.append_assoc]
    | _ => rfl

/-- Whatever step has been begun before them, notices tell of the same problems. -/
def Tells (ns : List Notice) (problems : List (String × StepResult)) : Prop :=
  ∀ label rest, ∃ label',
    problemsHeard label (ns ++ rest) = problems ++ problemsHeard label' rest

theorem Tells.append (a b : List Notice) (xs ys : List (String × StepResult)) (ha : Tells a xs)
    (hb : Tells b ys) : Tells (a ++ b) (xs ++ ys) := by
  intro label rest
  obtain ⟨label₁, h₁⟩ := ha label (b ++ rest)
  obtain ⟨label₂, h₂⟩ := hb label₁ rest
  refine ⟨label₂, ?_⟩
  rw [List.append_assoc, h₁, h₂, List.append_assoc]

end ProgressLog

namespace Library

variable (library : Library)

/-- A step as a problem, under its label, unless it has passed. -/
def problemOf (s : Step) : List (String × StepResult) :=
  if library.resultOf s = .passed then [] else [(s.keyword ++ s.name, library.resultOf s)]

theorem results_featureNotices (all : List Feature) :
    Notice.results (all.flatMap library.featureNotices) =
      (Node.features all).steps.map library.resultOf := by
  rw [List.map_eq_flatMap]
  apply library.read_featureNotices (fun ns rs => Notice.results ns = rs)
  · rfl
  · rintro a b _ _ rfl rfl
    exact List.filterMap_append
  · exact fun s => ⟨rfl, rfl⟩
  · exact fun f => ⟨rfl, rfl⟩
  · exact fun s => rfl

theorem afterFeatures_not_mem (all : List Feature) :
    .afterFeatures ∉ all.flatMap library.featureNotices := by
  apply library.read_featureNotices (fun ns (_ : List Empty) => .afterFeatures ∉ ns) fun _ => []
  · exact List.not_mem_nil
  · intro a b _ _ ha hb hmem
    exact (List.mem_append.mp hmem).elim ha hb
  · exact fun s => ⟨by simp, by simp⟩
  · exact fun f => ⟨by simp, by simp⟩
  · exact fun s => by simp [stepNotices]

theorem problemsHeard_featureNotices (all : List Feature) :
    ProgressLog.problemsHeard none (all.flatMap library.featureNotices) =
      (Node.features all).steps.flatMap library.problemOf := by
  have htells : ProgressLog.Tells (all.flatMap library.featureNotices)
      ((Node.features all).steps.flatMap library.problemOf) := by
    apply library.read_featureNotices ProgressLog.Tells
    · exact fun label rest => ⟨label, rfl⟩
    · exact ProgressLog.Tells.append
    · exact fun s => ⟨fun label rest => ⟨label, rfl⟩, fun label rest => ⟨label, rfl⟩⟩
    · exact fun f => ⟨fun label rest => ⟨label, rfl⟩, fun label rest => ⟨label, rfl⟩⟩
    · intro s label rest
      refine ⟨some s.label, ?_⟩
      rw [problemOf]
      cases hr : library.resultOf s <;>
        simp [stepNotices, ProgressLog.problemsHeard, hr, StepResult.isSuccessful, Step.label]
  obtain ⟨label, h⟩ := htells none []
  rwa [List.append_nil, ProgressLog.problemsHeard, List.append_nil] at h

/-- One character for every step. -/
def marks (steps : List Step) : String :=
  String.ofList (steps.map fun s =>
    match library.resultOf s with
    | .passed => '.'
    | .undefined => 'U'
    | .failed _ => 'F')

/-- The failed steps, each with the text of its error. -/
def failedEntries (steps : List Step) : List String :=
  steps.filterMap fun s => (library.resultOf s).error?.map fun e =>
    s.keyword ++ s.name ++ "\n  " ++ e.display ++ "\n"

/-- The undefined steps. -/
def undefinedEntries (steps : List Step) : List String :=
  (steps.filter fun s => (library.resultOf s).isUndefined).map fun s => s.keyword ++ s.name ++ "\n"

def problemSection (title : String) (entries : List String) : String :=
  "\n(::) " ++ title ++ " steps (::)\n\n" ++ String.join entries

/-- The text of a progress log that has heard a walk. -/
def progressText (all : List Feature) : String :=
  let steps := (Node.features all).steps
  library.marks steps ++ "\n\n" ++
    (Counts.ofScenarios (library.scenarioResults all)).summary "scenario" ++ "\n" ++
    (Counts.ofResults (steps.map library.resultOf)).summary "step" ++ "\n" ++
    (if steps.any fun s => (library.resultOf s).isFailed then
      problemSection "failed" (library.failedEntries steps) else "") ++
    (if steps.any fun s => (library.resultOf s).isUndefined then
      problemSection "undefined" (library.undefinedEntries steps) else "")

theorem marks_eq (steps : List Step) :
    String.join ((steps.map library.resultOf).map StepResult.character) = library.marks steps := by
  induction steps with
  | nil => rfl
  | cons s rest ih =>
    have hone : (library.resultOf s).character = library.marks [s] := by
      rw [marks, List.map_singleton]
      cases library.resultOf s <;> rfl
    have hsplit : library.marks (s :: rest) = library.marks [s] ++ library.marks rest := by
      rw [marks, marks, marks, ← String.ofList_append]
      rfl
    rw [List.map_cons, List.map_cons, String.join_cons, ih, hone, hsplit]

theorem failedEntries_eq_nil_iff (steps : List Step) :
    library.failedEntries steps = [] ↔
      steps.any (fun s => (library.resultOf s).isFailed) = false := by
  rw [failedEntries, List.filterMap_eq_nil_iff, List.any_eq_false]
  apply forall₂_congr
  intro s _
  cases library.resultOf s <;> simp [StepResult.error?, StepResult.isFailed]

theorem undefinedEntries_eq_nil_iff (steps : List Step) :
    library.undefinedEntries steps = [] ↔
      steps.any (fun s => (library.resultOf s).isUndefined) = false := by
  rw [undefinedEntries, List.map_eq_nil_iff, List.filter_eq_nil_iff, List.any_eq_false]

/-- Of the problems of a tree, a summary lists each in its own section. -/
theorem entries_of_problems (steps : List Step) (p : ProgressLog)
    (hp : p.problems = steps.flatMap library.problemOf) :
    p.failures.map (fun (step, e) => s!"{step}\n  {e.display}\n") = library.failedEntries steps ∧
      p.undefinedSteps.map (fun step => s!"{step}\n") = library.undefinedEntries steps := by
  rw [ProgressLog.failures, ProgressLog.undefinedSteps, hp]
  clear hp
  induction steps with
  | nil => exact ⟨rfl, rfl⟩
  | cons s rest ih =>
    obtain ⟨hfailed, hundefined⟩ := ih
    rw [List.flatMap_cons, List.filterMap_append, List.filterMap_append, List.map_append,
      List.map_append, hfailed, hundefined]
    cases hr : library.resultOf s <;>
      simp [problemOf, failedEntries, undefinedEntries, hr, StepResult.error?,
        StepResult.isUndefined] <;> rfl

end Library

theorem ProgressLog.join_listing (title : String) (entries : List String) :
    String.join (listing title entries) =
      if entries = [] then "" else Library.problemSection title entries := by
  cases entries with
  | nil => rfl
  | cons entry rest =>
    rw [if_neg (List.cons_ne_nil entry rest)]
    exact String.join_cons

theorem Library.join_summary (library : Library) (all : List Feature) (p : ProgressLog)
    (hscenarios : p.statistics.scenarios = .ofScenarios (library.scenarioResults all))
    (hsteps : p.statistics.steps = .ofResults ((Node.features all).steps.map library.resultOf))
    (hproblems : p.problems = (Node.features all).steps.flatMap library.problemOf) :
    library.marks (Node.features all).steps ++ String.join p.summary =
      library.progressText all := by
  obtain ⟨hfailed, hundefined⟩ := library.entries_of_problems _ p hproblems
  have hsome (b : Bool) (entries : List String) (text : String) (h : entries = [] ↔ b = false) :
      (if entries = [] then "" else text) = if b then text else "" := by
    cases b with
    | true => exact if_neg fun he => absurd (h.mp he) (by simp)
    | false => exact if_pos (h.mpr rfl)
  rw [ProgressLog.summary, ProgressLog.totals, ProgressLog.sections, hfailed, hundefined,
    String.join_cons, String.join_append, ProgressLog.join_listing, ProgressLog.join_listing,
    hsome _ _ _ (library.failedEntries_eq_nil_iff _),
    hsome _ _ _ (library.undefinedEntries_eq_nil_iff _), hscenarios, hsteps]
  simp only [Library.progressText, String.append_assoc]
  rfl

/-- The log of a new progress log after a complete walk. Among its problems are just the steps that
did not pass, in their order, each under its own label. -/
theorem walk_makes_progress_text (library : Library) (h : library.Settles) (all : List Feature)
    (terminal : Option Styles) (hooks : Nat) :
    ∃ p : ProgressLog,
      (∀ p', library.Leaves all ({ terminal, hooks } : ProgressLog) p' ↔ p' = p) ∧
      p.logs = library.progressText all ∧
      p.problems = (Node.features all).steps.filterMap fun s =>
        if library.resultOf s = .passed then none
        else some (s.keyword ++ s.name, library.resultOf s) := by
  let new : ProgressLog := { terminal, hooks }
  let p := after (all.flatMap library.featureNotices) new
  have hstart : (Listener.notice .beforeFeatures new).state = new := rfl
  have hwalk : after (library.notices all) new =
      { p with logs := p.logs ++ String.join p.summary } := by
    rw [Library.notices, List.cons_append, after_cons, after_append, hstart, after_cons,
      ProgressLog.notice_afterFeatures]
    rfl
  have hlogs : p.logs = library.marks (Node.features all).steps := by
    have hbody := ProgressLog.logs_after (all.flatMap library.featureNotices) new
      (library.afterFeatures_not_mem all)
    rw [library.results_featureNotices, library.marks_eq] at hbody
    exact hbody.trans String.empty_append
  have hproblems : p.problems = (Node.features all).steps.flatMap library.problemOf := by
    have hbody := ProgressLog.problems_after (all.flatMap library.featureNotices) new
    rw [show new.currentStep = none from rfl, library.problemsHeard_featureNotices] at hbody
    exact hbody
  have hstatistics : p.statistics =
      Statistics.adding {} all.length (library.scenarioResults all) := by
    have hbody := library.after_notices all {}
    rw [Library.notices, List.cons_append, after_cons, after_append] at hbody
    rw [ProgressLog.statistics_after]
    exact hbody
  have hempty (c : Counts) : Counts.plus {} c = c := by
    simp only [Counts.plus, Nat.zero_add]
  have hscenarios : p.statistics.scenarios = .ofScenarios (library.scenarioResults all) := by
    rw [hstatistics]
    exact hempty _
  have hsteps : p.statistics.steps =
      .ofResults ((Node.features all).steps.map library.resultOf) := by
    rw [hstatistics, ← library.flatten_scenarioResults]
    exact hempty _
  refine ⟨{ p with logs := p.logs ++ String.join p.summary }, fun p' => ?_, ?_, ?_⟩
  · rw [library.leaves_iff h, hwalk]
  · rw [← library.join_summary all p hscenarios hsteps hproblems, hlogs]
  · rw [List.filterMap_eq_flatMap_toList]
    refine hproblems.trans (congrArg (List.flatMap · _) (funext fun s => ?_))
    rw [Library.problemOf]
    by_cases hs : library.resultOf s = .passed
    · rw [if_pos hs, if_pos hs]
      rfl
    · rw [if_neg hs, if_neg hs]
      rfl

theorem variedFeatures_progress :
    obedientLibrary.Settles ∧ ∃ p : ProgressLog,
      obedientLibrary.Leaves variedFeatures ({ terminal := some ⟨true⟩ } : ProgressLog) p ∧
      p.logs = "FUF.U..\n\n" ++
        "4 scenarios (2 passed, 1 undefined, 1 failed)\n" ++
        "7 steps (3 passed, 2 undefined, 2 failed)\n" ++
        "\n(::) failed steps (::)\n\n" ++
        "* go\n  Step panicked: as told\n* go\n  Step failed: as told\n" ++
        "\n(::) undefined steps (::)\n\n* run\nGiven run\n" ∧
      p.problems.map (·.1) = ["* go", "* run", "* go", "Given run"] := by
  obtain ⟨p, hleaves, hlogs, hproblems⟩ := walk_makes_progress_text obedientLibrary
    obedientLibrary_settles variedFeatures (some ⟨true⟩) 0
  refine ⟨obedientLibrary_settles, p, (hleaves p).mpr rfl, hlogs.trans (by decide +kernel), ?_⟩
  rw [hproblems]
  decide

end FeatureRun
