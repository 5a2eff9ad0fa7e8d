import FeatureRun.Proofs.Tally
import FeatureRun.Proofs.WrittenLines

namespace FeatureRun

open Listener (after after_cons after_append)

namespace Text

/-- The lines of a text, each moved by two blanks for every level. -/
def block (level : Nat) (text : String) : List (List Char) :=
  (text.toList.splitOn '\n').map (List.replicate (2 * level) ' ' ++ ·)

theorem block_ne_nil (level : Nat) (text : String) : block level text ≠ [] :=
  fun hnil => List.splitOn_ne_nil '\n' text.toList (List.map_eq_nil_iff.mp hnil)

theorem indent_eq_block (text : String) (level : Nat) :
    indent text level = String.ofList (unlines (block level text)) := by
  rw [block, ← lines_eq_splitOn]
  rfl

theorem indent_lineFeed (text : String) (level : Nat) :
    indent text level ++ "\n" = written (block level text) := by
  have hfeed : ("\n" : String) = String.ofList ['\n'] := rfl
  rw [indent_eq_block, hfeed, ← String.ofList_append,
    unlines_append_lineFeed _ (block_ne_nil level text), written]

end Text

open Text (block written written_append)

/-- A step stands at the second level, its doc string below it between two lines of quotation
marks. -/
def Step.outline (s : Step) : List (List Char) :=
  block 2 (s.keyword ++ s.name) ++
    match s.docString with
    | some content => block 3 "\"\"\"" ++ block 3 content ++ block 3 "\"\"\""
    | none => []

def Scenario.outline (s : Scenario) : List (List Char) :=
  [] :: block 1 (s.keyword ++ ": " ++ s.name) ++ s.steps.flatMap Step.outline

def Feature.outline (f : Feature) : List (List Char) :=
  block 0 (f.keyword ++ ": " ++ f.name) ++
    (if f.description = "" then [] else block 1 f.description) ++
      f.scenarios.flatMap Scenario.outline

def outlineText (all : List Feature) : String := written (all.flatMap Feature.outline)

namespace OutlineLog

/-- A log to which lines have been added, and steps of which some may have failed. -/
def adding (p : OutlineLog) (ls : List (List Char)) (failed : Bool) : OutlineLog :=
  { p with logs := p.logs ++ written ls, failed := p.failed || failed }

theorem adding_adding (p : OutlineLog) (a b : List (List Char)) (c d : Bool) :
    (p.adding a c).adding b d = p.adding (a ++ b) (c || d) := by
  simp only [adding, written_append, String.append_assoc, Bool.or_assoc]

theorem adding_nothing (p : OutlineLog) : p.adding [] false = p := by
  have hlogs : p.logs ++ written [] = p.logs := String.append_empty
  rw [adding, hlogs, Bool.or_false]

theorem logEntries_state (es : List OutlineEntry) (p : OutlineLog) :
    (logEntries es p).state = p.adding (es.flatMap fun e => block e.level e.text) false := by
  induction es generalizing p with
  | nil => exact p.adding_nothing.symm
  | cons e rest ih =>
    have hone : (p.logEntry e).state = p.adding (block e.level e.text) false := by
      rw [adding, ← Text.indent_lineFeed, ← String.append_assoc, Bool.or_false]
      rfl
    rw [logEntries, Effect.andThen_of_no_panic (p.logEntry e) (logEntries rest) rfl, hone, ih,
      adding_adding, List.flatMap_cons, Bool.or_false]

variable (library : Library)

theorem after_step (s : Step) (p : OutlineLog) (h : p.currentStep = none) :
    after (library.stepNotices s) p = p.adding s.outline (library.resultOf s != .passed) := by
  let told : OutlineLog := { p with failed := p.failed || !(library.resultOf s).isSuccessful }
  have hresult : after (library.stepNotices s) p =
      (logEntries (OutlineEntry.ofStep s (library.resultOf s))
        { told with currentStep := none }).state := rfl
  have hcurrent : { told with currentStep := none } = told := by rw [← h]
  have hlines : (OutlineEntry.ofStep s (library.resultOf s)).flatMap
      (fun e => block e.level e.text) = s.outline := by
    rw [OutlineEntry.ofStep, Step.outline]
    cases s.docString with
    | none => rfl
    | some content =>
      simp only [List.flatMap_cons, List.flatMap_nil, OutlineEntry.fence, Step.label,
        List.append_nil, List.append_assoc]
  have hfailed : (!(library.resultOf s).isSuccessful) = (library.resultOf s != .passed) := by
    cases library.resultOf s <;> rfl
  rw [hresult, hcurrent, logEntries_state, hlines]
  simp only [told, adding, hfailed, Bool.or_false]

theorem after_flatMap {α : Type} (notices : α → List Notice) (ls : α → List (List Char))
    (failed : α → Bool)
    (h : ∀ a (p : OutlineLog), p.currentStep = none →
      after (notices a) p = p.adding (ls a) (failed a))
    (xs : List α) (p : OutlineLog) (hp : p.currentStep = none) :
    after (xs.flatMap notices) p = p.adding (xs.flatMap ls) (xs.any failed) := by
  induction xs generalizing p with
  | nil => exact p.adding_nothing.symm
  | cons a rest ih =>
    rw [List.flatMap_cons, after_append, h a p hp, ih (p.adding (ls a) (failed a)) hp,
      adding_adding, List.flatMap_cons, List.any_cons]

theorem after_scenario (s : Scenario) (p : OutlineLog) (h : p.currentStep = none) :
    after (library.scenarioNotices s) p =
      p.adding s.outline (s.steps.any fun x => library.resultOf x != .passed) := by
  have hstart : (Listener.notice (.beforeScenario s) p).state =
      p.adding ([] :: block 1 s.heading) false := by
    have hentries : (Listener.notice (.beforeScenario s) p).state =
        (logEntries (OutlineEntry.ofScenario s) p).state := rfl
    have hempty : block 0 "" = [[]] := by decide
    rw [hentries, logEntries_state, OutlineEntry.ofScenario, List.flatMap_cons, hempty]
    simp only [List.flatMap_cons, List.flatMap_nil, List.append_nil, List.singleton_append]
  have hsteps := after_flatMap library.stepNotices Step.outline
    (fun x => library.resultOf x != .passed) (after_step library) s.steps
    (p.adding ([] :: block 1 s.heading) false) h
  rw [Library.scenarioNotices, List.cons_append, after_cons, after_append, hstart, hsteps,
    adding_adding]
  rfl

theorem after_feature (f : Feature) (p : OutlineLog) (h : p.currentStep = none) :
    after (library.featureNotices f) p =
      p.adding f.outline (f.steps.any fun x => library.resultOf x != .passed) := by
  let top := block 0 f.heading ++ if f.description = "" then [] else block 1 f.description
  have hstart : (Listener.notice (.beforeFeature f) p).state = p.adding top false := by
    have hentries : (Listener.notice (.beforeFeature f) p).state =
        (logEntries (OutlineEntry.ofFeature f) p).state := rfl
    have hlines : (OutlineEntry.ofFeature f).flatMap (fun e => block e.level e.text) = top := by
      rw [OutlineEntry.ofFeature]
      by_cases hd : f.description = ""
      · simp [hd, top]
      · simp [hd, top, String.isEmpty_iff]
    rw [hentries, logEntries_state, hlines]
  have hscenarios := after_flatMap library.scenarioNotices Scenario.outline _
    (after_scenario library) f.scenarios (p.adding top false) h
  rw [← List.any_flatMap] at hscenarios
  rw [Library.featureNotices, List.cons_append, after_cons, after_append, hstart, hscenarios,
    adding_adding]
  rfl

end OutlineLog

theorem Library.outline_after_notices (library : Library) (all : List Feature) (p : OutlineLog)
    (h : p.currentStep = none) :
    after (library.notices all) p = p.adding (all.flatMap Feature.outline)
      ((Node.features all).steps.any fun s => library.resultOf s != .passed) := by
  have hstart : (Listener.notice .beforeFeatures p).state = p := rfl
  have hfeatures := OutlineLog.after_flatMap library.featureNotices Feature.outline _
    (OutlineLog.after_feature library) all p h
  rw [← List.any_flatMap] at hfeatures
  rw [Library.notices, List.cons_append, after_cons, after_append, hstart, hfeatures]
  rfl

/-- The log of a new outline log after a complete walk is the outline of the tree, whatever the
library makes of its steps. -/
theorem walk_makes_outline (library library' : Library) (h : library.Settles)
    (h' : library'.Settles) (all : List Feature) (terminal : Option Styles) (forwarded : Bool)
    (hooks : Nat) :
    let new : OutlineLog := { terminal, forwarded, hooks }
    ∃ p : OutlineLog, (∀ p', library.Leaves all new p' ↔ p' = p) ∧
      p.logs = outlineText all ∧
      (p.allPassed = false ↔ ∃ s ∈ (Node.features all).steps, library.resultOf s ≠ .passed) ∧
      ∀ p', library'.Leaves all new p' → p'.logs = p.logs := by
  intro new
  have hlogs (failed : Bool) :
      (new.adding (all.flatMap Feature.outline) failed).logs = outlineText all :=
    String.empty_append
  refine ⟨after (library.notices all) new, library.leaves_iff h all new, ?_, ?_, fun p' hp' => ?_⟩
  · rw [library.outline_after_notices all new rfl, hlogs]
  · rw [library.outline_after_notices all new rfl]
    simp [OutlineLog.allPassed, OutlineLog.adding, new]
  · rw [library'.leaves_iff h'] at hp'
    rw [hp', library'.outline_after_notices all new rfl, library.outline_after_notices all new rfl,
      hlogs, hlogs]

/-- The step fails, and in a library without definitions it is undefined; the outline is one. -/
theorem outline_of_two_libraries :
    let all : List Feature := [{
      keyword := "F", name := "f", description := "a\nb"
      scenarios := [{ keyword := "S", name := "s", steps := [⟨"* ", "go", 1, some "fail"⟩] }] }]
    let new : OutlineLog := { forwarded := true }
    obedientLibrary.Settles ∧ Library.Settles ⟨[]⟩ ∧ ∃ p : OutlineLog,
      obedientLibrary.Leaves all new p ∧
      p.logs = "F: f\n  a\n  b\n\n  S: s\n    * go\n      \"\"\"\n      fail\n      \"\"\"\n" ∧
      p.allPassed = false ∧ ∀ p', Library.Leaves ⟨[]⟩ all new p' → p'.logs = p.logs := by
  intro all new
  have hnone : Library.Settles ⟨[]⟩ := fun d hd => absurd hd List.not_mem_nil
  obtain ⟨p, hleaves, hlogs, hpassed, hsame⟩ := walk_makes_outline obedientLibrary ⟨[]⟩
    obedientLibrary_settles hnone all none true 0
  have hfails : ∃ s ∈ (Node.features all).steps, obedientLibrary.resultOf s ≠ .passed := by decide
  exact ⟨obedientLibrary_settles, hnone, p, (hleaves p).mpr rfl, hlogs.trans (by decide +kernel),
    hpassed.mpr hfails, hsame⟩

end FeatureRun
