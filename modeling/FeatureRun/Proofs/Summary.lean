import FeatureRun.Proofs.Acts
import FeatureRun.Proofs.ScenarioSegments

namespace FeatureRun

open Listener (after after_cons after_append)

namespace Notice

def label? : Notice → Option String
  | .beforeStep s => some s.label
  | _ => none

/-- The label of the step begun last among notices. -/
def lastLabel (ns : List Notice) : Option String := (ns.filterMap label?).getLast?

/-- The problem that a notice tells of behind others. -/
def problemAfter (ns : List Notice) (n : Notice) : Option (String × StepResult) :=
  n.result?.bind fun r => if r.isSuccessful then none else some ((lastLabel ns).getD "", r)

/-- The problems among notices, place by place. -/
def problems (ns : List Notice) : List (String × StepResult) :=
  ns.zipIdx.filterMap fun (n, i) => problemAfter (ns.take i) n

theorem problems_concat (ns : List Notice) (n : Notice) :
    problems (ns ++ [n]) = problems ns ++ (problemAfter ns n).toList := by
  rw [problems, problems, List.filterMap_eq_flatMap_toList, List.filterMap_eq_flatMap_toList]
  exact flatMap_take_concat (fun before m => (problemAfter before m).toList) ns n

theorem problems_prefix (a b : List Notice) : problems a <+: problems (a ++ b) := by
  induction b using List.reverseRecOn with
  | nil => exact (List.append_nil a).symm ▸ List.prefix_rfl
  | append_singleton b n ih =>
    rw [← List.append_assoc, problems_concat]
    exact ih.trans (List.prefix_append _ _)

/-- The problems are the results that are no pass. -/
theorem map_snd_problems (ns : List Notice) :
    (problems ns).map Prod.snd = (results ns).filter (!·.isSuccessful) := by
  induction ns using List.reverseRecOn with
  | nil => rfl
  | append_singleton ns n ih =>
    have hone : (problemAfter ns n).toList.map Prod.snd =
        (results [n]).filter (!·.isSuccessful) := by
      cases n with
      | stepResult r => cases r <;> rfl
      | _ => rfl
    rw [problems_concat, results_append, List.map_append, List.filter_append, ih, hone]

end Notice

open Notice (problems)

namespace ProgressLog

theorem problemsHeard_append (label : Option String) (a b : List Notice) :
    problemsHeard label (a ++ b) =
      problemsHeard label a ++ problemsHeard ((Notice.lastLabel a).or label) b := by
  induction a generalizing label with
  | nil => rfl
  | cons n rest ih =>
    cases n with
    | beforeStep s =>
      have hlast : (Notice.lastLabel (.beforeStep s :: rest)).or label =
          (Notice.lastLabel rest).or (some s.label) := by
        have hcons : Notice.lastLabel (.beforeStep s :: rest) =
            (s.label :: rest.filterMap Notice.label?).getLast? := rfl
        rw [hcons, List.getLast?_cons, Notice.lastLabel]
        cases (rest.filterMap Notice.label?).getLast? <;> rfl
      rw [hlast]
      exact ih (some s.label)
    | stepResult r =>
      rw [List.cons_append, problemsHeard, ih, problemsHeard, List.append_assoc]
      rfl
    | _ => exact ih label

/-- What a new log remembers is found at the places of the notices it has heard. -/
theorem problemsHeard_eq (ns : List Notice) : problemsHeard none ns = Notice.problems ns := by
  induction ns using List.reverseRecOn with
  | nil => rfl
  | append_singleton ns n ih =>
    have hone : problemsHeard (Notice.lastLabel ns) [n] = (Notice.problemAfter ns n).toList := by
      cases n with
      | stepResult r => cases r <;> rfl
      | _ => rfl
    rw [problemsHeard_append, Option.or_none, ih, hone, Notice.problems_concat]

end ProgressLog

namespace Summary

/-- The entries of the failed steps, each with the text of its error. -/
def failed (ns : List Notice) : List String :=
  (problems ns).filterMap fun (label, r) =>
    r.error?.map fun e => label ++ "\n  " ++ e.display ++ "\n"

/-- The entries of the undefined steps. -/
def undefined (ns : List Notice) : List String :=
  (problems ns).filterMap fun (label, r) => if r.isUndefined then some (label ++ "\n") else none

def part (title : String) (entries : List String) : String :=
  if entries = [] then "" else Library.problemSection title entries

/-- The text of a summary of notices. -/
def text (ns : List Notice) : String :=
  let counted := after ns ({} : Statistics)
  "\n\n" ++ counted.scenarios.summary "scenario" ++ "\n" ++ counted.steps.summary "step" ++ "\n" ++
    part "failed" (failed ns) ++ part "undefined" (undefined ns)

/-- The problems count as the results do, apart from the passes. -/
theorem ofResults_problems (ns : List Notice) :
    Counts.ofResults ((problems ns).map Prod.snd) =
      { Counts.ofResults (Notice.results ns) with passed := 0 } := by
  have hpassed : ((Notice.results ns).filter (!·.isSuccessful)).countP (·.isSuccessful) = 0 := by
    apply List.countP_eq_zero.mpr
    intro r hr
    simpa using (List.mem_filter.mp hr).2
  have hother (kind : StepResult → Bool) (hkind : kind .passed = false) :
      ((Notice.results ns).filter (!·.isSuccessful)).countP kind =
        (Notice.results ns).countP kind := by
    rw [List.countP_filter]
    apply List.countP_congr
    intro r _
    cases r <;> simp [StepResult.isSuccessful, hkind]
  rw [Notice.map_snd_problems, Counts.ofResults, hpassed, hother _ rfl, hother _ rfl]
  rfl

/-- There are as many entries as there are results of the kind, and no problem is left out or listed
in both sections. -/
theorem length_entries (ns : List Notice) :
    (failed ns).length = (Counts.ofResults (Notice.results ns)).failed ∧
      (undefined ns).length = (Counts.ofResults (Notice.results ns)).undefined ∧
      (problems ns).length = (failed ns).length + (undefined ns).length := by
  have hcounts := ofResults_problems ns
  have hfailed : (failed ns).length = (Counts.ofResults (Notice.results ns)).failed := by
    have hsame : ((problems ns).map Prod.snd).countP (·.isFailed) =
        (Counts.ofResults (Notice.results ns)).failed := congrArg Counts.failed hcounts
    rw [← hsame, failed, List.length_filterMap_eq_countP, List.countP_map]
    apply List.countP_congr
    rintro ⟨label, r⟩ _
    simp [StepResult.isFailed]
  have hundefined : (undefined ns).length = (Counts.ofResults (Notice.results ns)).undefined := by
    have hsame : ((problems ns).map Prod.snd).countP (·.isUndefined) =
        (Counts.ofResults (Notice.results ns)).undefined := congrArg Counts.undefined hcounts
    rw [← hsame, undefined, List.length_filterMap_eq_countP, List.countP_map]
    apply List.countP_congr
    rintro ⟨label, r⟩ _
    cases r <;> simp [StepResult.isUndefined]
  have htotal : (problems ns).length = 0 + (Counts.ofResults (Notice.results ns)).undefined +
      (Counts.ofResults (Notice.results ns)).failed := by
    rw [← List.length_map Prod.snd, ← Counts.total_ofResults, hcounts]
    rfl
  refine ⟨hfailed, hundefined, ?_⟩
  omega

/-- Later notices add entries behind those there are. -/
theorem entries_prefix (a b : List Notice) :
    failed a <+: failed (a ++ b) ∧ undefined a <+: undefined (a ++ b) :=
  ⟨(Notice.problems_prefix a b).filterMap _, (Notice.problems_prefix a b).filterMap _⟩

end Summary

namespace ProgressLog

/-- A log summarizes what it counts and remembers. -/
theorem join_summary (ns : List Notice) (p : ProgressLog)
    (hstatistics : p.statistics = after ns {}) (hproblems : p.problems = Notice.problems ns) :
    String.join p.summary = Summary.text ns := by
  have hsummary : p.summary =
      ("\n\n" ++ p.statistics.scenarios.summary "scenario" ++ "\n" ++
          p.statistics.steps.summary "step" ++ "\n") ::
        (listing "failed" (p.failures.map fun entry => s!"{entry.1}\n  {entry.2.display}\n") ++
          listing "undefined" (p.undefinedSteps.map fun step => s!"{step}\n")) := rfl
  have hfailed : p.failures.map (fun entry => s!"{entry.1}\n  {entry.2.display}\n") =
      Summary.failed ns := by
    rw [failures, hproblems, List.map_filterMap, Summary.failed]
    apply List.filterMap_congr
    rintro ⟨label, r⟩ _
    cases r <;> rfl
  have hundefined : p.undefinedSteps.map (fun step => s!"{step}\n") = Summary.undefined ns := by
    rw [undefinedSteps, hproblems, List.map_filterMap, Summary.undefined]
    apply List.filterMap_congr
    rintro ⟨label, r⟩ hmem
    have hsome : r ∈ (Notice.results ns).filter (!·.isSuccessful) := by
      rw [← Notice.map_snd_problems]
      exact List.mem_map_of_mem hmem
    cases r with
    | passed => exact absurd (List.mem_filter.mp hsome).2 (by decide)
    | _ => rfl
  rw [hsummary, hfailed, hundefined, hstatistics, String.join_cons, String.join_append,
    join_listing, join_listing, Summary.text]
  simp only [Summary.part, String.append_assoc]

/-- Summaries one after another are all the same. -/
theorem performAll_summaries (ns : List Notice) (k : Nat) (p : ProgressLog)
    (hstatistics : p.statistics = after ns {}) (hproblems : p.problems = Notice.problems ns) :
    Act.performAll (List.replicate k (.own .logSummary)) p =
      { p with logs := p.logs ++ String.join (List.replicate k (Summary.text ns)) } := by
  induction k generalizing p with
  | zero =>
    have hnothing : p.logs ++ String.join [] = p.logs := String.append_empty
    rw [List.replicate_zero, List.replicate_zero, hnothing]
    rfl
  | succ k ih =>
    have hone : (Act.perform (.own .logSummary) p).state =
        { p with logs := p.logs ++ Summary.text ns } := by
      rw [← join_summary ns p hstatistics hproblems]
      exact p.logSummary_state
    have hsplit : Act.performAll (List.replicate (k + 1) (.own .logSummary)) p =
        Act.performAll (List.replicate k (.own .logSummary))
          (Act.perform (.own .logSummary) p).state := rfl
    rw [hsplit, hone, ih { p with logs := p.logs ++ Summary.text ns } hstatistics hproblems,
      List.replicate_succ, String.join_cons, String.append_assoc]

end ProgressLog

/-- Whatever has been done to a progress log, a summary only logs the text of the notices heard, and
any number of them log it as many times. The text has as many entries in each section as it counts
steps of that kind, and those that are there come first in the text of any later summary. -/
theorem summary_tells_what_was_heard (acts : List (Act ProgressLog.Method))
    (terminal : Option Styles) (hooks : Nat) :
    let new : ProgressLog := { terminal, hooks }
    let p := Act.performAll acts new
    let ns := Act.heard acts
    p.logSummary.panic = none ∧
    (∀ k, Act.performAll (acts ++ List.replicate k (.own .logSummary)) new =
      { p with logs := p.logs ++ String.join (List.replicate k (Summary.text ns)) }) ∧
    p.problems = problems ns ∧
    p.statistics = after ns {} ∧
    (Summary.failed ns).length = p.statistics.steps.failed ∧
    (Summary.undefined ns).length = p.statistics.steps.undefined ∧
    (problems ns).length = (Summary.failed ns).length + (Summary.undefined ns).length ∧
    (acts.length < Overflow.counterLimit → p.statistics.Fits) ∧
    ∀ more, Summary.failed ns <+: Summary.failed (Act.heard (acts ++ more)) ∧
      Summary.undefined ns <+: Summary.undefined (Act.heard (acts ++ more)) := by
  intro new p ns
  have hspared : p.unlogged = (after ns new).unlogged :=
    ProgressLog.spares_unlogged.performAll acts new
  have hstatistics : p.statistics = after ns {} :=
    (congrArg ProgressLog.statistics hspared).trans (ProgressLog.statistics_after ns new)
  have hproblems : p.problems = problems ns := by
    rw [← ProgressLog.problemsHeard_eq]
    exact (congrArg ProgressLog.problems hspared).trans (ProgressLog.problems_after ns new)
  have hsteps : p.statistics.steps = .ofResults (Notice.results ns) := by
    rw [hstatistics]
    exact Statistics.steps_after_new ns
  obtain ⟨hfailed, hundefined, hboth⟩ := Summary.length_entries ns
  refine ⟨p.logSummary_no_panic, fun k => ?_, hproblems, hstatistics, ?_, ?_,
    hboth, ?_, ?_⟩
  · rw [Act.performAll_append]
    exact ProgressLog.performAll_summaries ns k p hstatistics hproblems
  · rw [hsteps, hfailed]
  · rw [hsteps, hundefined]
  · intro hlength
    rw [hstatistics]
    exact Statistics.fits_after_new ns (Nat.lt_of_le_of_lt (Act.length_heard_le acts) hlength)
  · intro more
    rw [Act.heard_append]
    exact Summary.entries_prefix ns _

/-- A result comes before any step has been begun, and two more come for one step. -/
theorem strayResults_summarized :
    let acts : List (Act ProgressLog.Method) := [
      .own (.log "go"), .call (.notice (.stepResult .undefined)), .own .logSummary,
      .call (.notice (.beforeStep ⟨"* ", "look", 1, none⟩)), .call (.notice .afterFeatures),
      .call (.hear (.before (.stepResult (.failed (.failed "lost"))))),
      .call (.notice (.stepResult .undefined))]
    let new : ProgressLog := { hooks := 1 }
    let p := Act.performAll acts new
    let text := "\n\n0 scenarios\n3 steps (2 undefined, 1 failed)\n" ++
      "\n(::) failed steps (::)\n\n* look\n  Step failed: lost\n" ++
      "\n(::) undefined steps (::)\n\n\n* look\n"
    acts.length < Overflow.counterLimit ∧ p.statistics.Fits ∧
      (Summary.undefined (Act.heard acts)).length = p.statistics.steps.undefined ∧
      Act.performAll (acts ++ List.replicate 2 (.own .logSummary)) new =
        { p with logs := p.logs ++ (text ++ text) } := by
  intro acts new p text
  have hlength : acts.length < Overflow.counterLimit := by decide
  obtain ⟨_, hlogs, _, _, _, hundefined, _, hfits, _⟩ := summary_tells_what_was_heard acts none 1
  have htext : String.join (List.replicate 2 (Summary.text (Act.heard acts))) = text ++ text := by
    decide +kernel
  exact ⟨hlength, hfits hlength, hundefined, (hlogs 2).trans (by rw [htext])⟩

end FeatureRun
