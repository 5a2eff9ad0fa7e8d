import FeatureRun.Proofs.ShownChunks
import FeatureRun.Proofs.ProgressText

namespace FeatureRun

open Listener (after)
open Text (Plain plain_append_iff)
open Displayed (Adds)

namespace ProgressLog

/-- A text that is logged at once. -/
def chunk (text : String) : Chunk := { text, color := chunkColor text }

theorem logged_chunk (text : String) : (chunk text).logged = text := String.append_empty

theorem color_chunk_isSome_iff (text : String) :
    (chunk text).color.isSome = true ↔ text = "." ∨ text = "U" ∨ text = "F" := by
  simp only [chunk]
  unfold chunkColor
  split <;> simp_all

theorem adds_log (text : String) (p : ProgressLog) : Adds [chunk text] p (p.log text) := by
  refine ⟨?_, rfl, rfl, ?_, ?_⟩
  · have hjoin : Chunk.join [chunk text] = text := by
      rw [Chunk.join, List.map_singleton, logged_chunk, String.join_cons]
      exact String.append_empty
    rw [hjoin]
    rfl
  · rcases p with ⟨_, _ | styles, _, _, _, _⟩
    · rfl
    · have hshown : styles.paint? (chunkColor text) text = (chunk text).shown styles.enabled := by
        rw [← Chunk.shown_eq]
        exact String.append_empty.symm
      exact congrArg (fun t => [t]) hshown
  · rcases p with ⟨_, _ | styles, _, _, _, _⟩ <;> rfl

theorem adds_logAll (texts : List String) (p : ProgressLog) :
    Adds (texts.map chunk) p (logAll texts p) := by
  induction texts generalizing p with
  | nil => exact .nothing rfl rfl rfl rfl rfl
  | cons text rest ih => exact (adds_log text p).andThen rfl (ih _)

theorem adds_logSummary (p : ProgressLog) : Adds (p.summary.map chunk) p p.logSummary := by
  rw [logSummary_eq]
  exact adds_logAll p.summary p

/-- The texts that a notice makes a log add, each at once, where those of a summary are given. -/
def noticeTexts (summary : List String) : Notice → List String
  | .afterFeatures => summary
  | .stepResult r => [r.character]
  | _ => []

def actTexts (summary : List String) : Act Method → List String
  | .own (.log text) => [text]
  | .own .logSummary => summary
  | .call c => c.notice?.toList.flatMap (noticeTexts summary)

theorem adds_notice (n : Notice) (p : ProgressLog) :
    Adds ((noticeTexts p.summary n).map chunk) p (Listener.notice n p) := by
  cases n with
  | afterFeatures => exact adds_logSummary p
  | beforeScenario s => exact .hooks p.hooks s rfl rfl rfl
  | stepResult r =>
    have hlog := adds_log r.character (p.count (.stepResult r))
    have hcounted : Adds [chunk r.character] p ((p.count (.stepResult r)).log r.character) :=
      ⟨hlog.logs, hlog.terminal, hlog.forwarded, hlog.printed, hlog.passed⟩
    have hremember (q : ProgressLog) : Adds [] q (Effect.quiet (q.remember r)) := by
      cases r <;> exact .nothing rfl rfl rfl rfl rfl
    show Adds ([chunk r.character] ++ []) p
      (((p.count (.stepResult r)).log r.character).andThen fun q => .quiet (q.remember r))
    exact hcounted.andThen rfl (hremember _)
  | _ => exact .nothing rfl rfl rfl rfl rfl

theorem adds_perform (a : Act Method) (p : ProgressLog) :
    Adds ((actTexts p.summary a).map chunk) p (a.perform p) := by
  cases a with
  | own method =>
    cases method with
    | log text => exact adds_log text p
    | logSummary => exact adds_logSummary p
  | call c =>
    rw [actTexts, List.map_flatMap]
    exact Adds.take _ p (adds_notice · p) c

/-- The texts of a summary of notices. -/
def summaryOf (ns : List Notice) : List String := (after ns ({} : ProgressLog)).summary

/-- A log summarizes the notices it has heard, whatever else it has logged and wherever. -/
theorem summary_performAll (acts : List (Act Method)) (terminal : Option Styles) (hooks : Nat) :
    (Act.performAll acts ({ terminal, hooks } : ProgressLog)).summary =
      summaryOf (Act.heard acts) := by
  have hsummary (p q : ProgressLog) (hstatistics : p.statistics = q.statistics)
      (hproblems : p.problems = q.problems) : p.summary = q.summary := by
    simp only [summary, totals, sections, failures, undefinedSteps, hstatistics, hproblems]
  apply hsummary
  · rw [statistics_performAll, statistics_after]
  · rw [problems_performAll, problems_after]

/-- The texts that an act adds behind notices. -/
def textsOf (ns : List Notice) (a : Act Method) : List String := actTexts (summaryOf ns) a

/-- The texts that a method is given. -/
def Method.texts : Method → List String
  | .log text => [text]
  | .logSummary => []

theorem adds_performAll (acts : List (Act Method)) (terminal : Option Styles) (hooks : Nat) :
    let new : ProgressLog := { terminal, hooks }
    Adds ((Act.pieces textsOf acts).map chunk) new
      ⟨Act.performAll acts new, Act.emissions acts new, none⟩ := by
  intro new
  rw [Act.map_pieces]
  apply Displayed.adds_emissions
  intro acts a p
  rw [textsOf, ← summary_performAll acts terminal hooks]
  exact adds_perform a p

theorem plain_counts (noun : String) (c : Counts) (h : Plain noun) : Plain (c.summary noun) := by
  have hnames : ∀ name ∈ ["passed", "undefined", "failed"], Plain name := by decide
  have hparts : ∀ p ∈ c.parts, p.2 ∈ ["passed", "undefined", "failed"] := by
    intro p hp
    exact List.mem_map_of_mem (List.mem_filter.mp hp).1
  have hplural : Plain (if c.total = 1 then "" else "s") := by
    split <;> decide
  have hhead : Plain (s!"{c.total} {noun}" ++ if c.total = 1 then "" else "s") := by
    rw [plain_append_iff, plain_append_iff, plain_append_iff]
    exact ⟨⟨⟨Text.plain_repr _, by decide⟩, h⟩, hplural⟩
  have hlist : Plain (", ".intercalate (c.parts.map fun p => s!"{p.1} {p.2}")) := by
    apply Text.plain_intercalate _ _ (by decide)
    intro t ht
    obtain ⟨p, hp, rfl⟩ := List.mem_map.mp ht
    rw [plain_append_iff, plain_append_iff]
    exact ⟨⟨Text.plain_repr _, by decide⟩, hnames _ (hparts p hp)⟩
  unfold Counts.summary
  cases hc : c.parts with
  | nil => exact hhead
  | cons p rest =>
    rw [hc] at hlist
    have hopen : Plain " (" := by decide
    have hclose : Plain ")" := by decide
    exact (plain_append_iff _ ")").mpr ⟨(plain_append_iff _ _).mpr
      ⟨(plain_append_iff _ " (").mpr ⟨hhead, hopen⟩, hlist⟩, hclose⟩

theorem plain_problemsHeard (ns : List Notice) (label : Option String)
    (h : ∀ t ∈ ns.flatMap Notice.texts, Plain t) (hlabel : ∀ l ∈ label, Plain l) :
    ∀ x ∈ problemsHeard label ns, Plain x.1 ∧ ∀ e, x.2.error? = some e → Plain e.message := by
  induction ns generalizing label with
  | nil => exact fun x hx => absurd hx List.not_mem_nil
  | cons n rest ih =>
    rw [List.flatMap_cons] at h
    have hn : ∀ t ∈ n.texts, Plain t := fun t ht => h t (List.mem_append_left _ ht)
    have hrest : ∀ t ∈ rest.flatMap Notice.texts, Plain t :=
      fun t ht => h t (List.mem_append_right _ ht)
    cases n with
    | beforeStep s =>
      apply ih (some s.label) hrest
      rintro l ⟨⟩
      have hkeyword : s.keyword ∈ (Notice.beforeStep s).texts := List.mem_cons_self ..
      have hname : s.name ∈ (Notice.beforeStep s).texts := List.mem_cons_of_mem _ (.head _)
      exact (plain_append_iff ..).mpr ⟨hn _ hkeyword, hn _ hname⟩
    | stepResult r =>
      intro x hx
      rw [problemsHeard] at hx
      rcases List.mem_append.mp hx with hx | hx
      · have hx : x = (label.getD "", r) := by
          split at hx
          · exact absurd hx List.not_mem_nil
          · exact List.mem_singleton.mp hx
        subst hx
        refine ⟨?_, fun e he => hn _ ?_⟩
        · cases label with
          | none => exact List.not_mem_nil
          | some l => exact hlabel l rfl
        · obtain rfl := (r.error?_eq_some_iff e).mp he
          exact List.mem_cons_self ..
      · exact ih label hrest hlabel x hx
    | _ => exact ih label hrest hlabel

theorem plain_listing (title : String) (entries : List String) (htitle : Plain title)
    (h : ∀ t ∈ entries, Plain t) : ∀ t ∈ listing title entries, Plain t := by
  cases entries with
  | nil => exact fun t ht => absurd ht List.not_mem_nil
  | cons entry rest =>
    intro t ht
    rcases List.mem_cons.mp ht with rfl | ht
    · have hopen : Plain "\n(::) " := by decide
      have hclose : Plain " steps (::)\n\n" := by decide
      exact (plain_append_iff _ _).mpr ⟨(plain_append_iff _ _).mpr ⟨hopen, htitle⟩, hclose⟩
    · exact h t ht

theorem plain_summaryOf (ns : List Notice) (h : ∀ t ∈ ns.flatMap Notice.texts, Plain t) :
    ∀ t ∈ summaryOf ns, Plain t := by
  let p := after ns ({} : ProgressLog)
  have hproblems : p.problems = problemsHeard none ns := problems_after ns {}
  have hplain := plain_problemsHeard ns none h (by simp)
  have hfeed : Plain "\n" := by decide
  have hindent : Plain "\n  " := by decide
  have hfailed : ∀ t ∈ p.failures.map fun entry => s!"{entry.1}\n  {entry.2.display}\n",
      Plain t := by
    intro t ht
    obtain ⟨⟨step, e⟩, hmem, rfl⟩ := List.mem_map.mp ht
    obtain ⟨⟨step', r⟩, hproblem, hr⟩ := List.mem_filterMap.mp hmem
    obtain ⟨e', he, heq⟩ := Option.map_eq_some_iff.mp hr
    cases heq
    obtain ⟨hstep, herror⟩ := hplain _ (hproblems ▸ hproblem)
    have hdisplay : Plain e.display := by
      have hmessage := herror e he
      cases e <;> exact (plain_append_iff _ _).mpr ⟨by decide, hmessage⟩
    simp only [plain_append_iff]
    exact ⟨⟨⟨hstep, hindent⟩, hdisplay⟩, hfeed⟩
  have hundefined : ∀ t ∈ p.undefinedSteps.map fun step => s!"{step}\n", Plain t := by
    intro t ht
    obtain ⟨step, hmem, rfl⟩ := List.mem_map.mp ht
    obtain ⟨⟨step', r⟩, hproblem, hr⟩ := List.mem_filterMap.mp hmem
    obtain ⟨_, hstep⟩ := Option.ite_none_right_eq_some.mp hr
    cases hstep
    exact (plain_append_iff _ _).mpr ⟨(hplain _ (hproblems ▸ hproblem)).1, hfeed⟩
  intro t ht
  rcases List.mem_cons.mp ht with rfl | ht
  · have hscenarios := plain_counts "scenario" p.statistics.scenarios (by decide)
    have hsteps := plain_counts "step" p.statistics.steps (by decide)
    have hlead : Plain "\n\n" := by decide
    simp only [totals, plain_append_iff]
    exact ⟨⟨⟨⟨hlead, hscenarios⟩, hfeed⟩, hsteps⟩, hfeed⟩
  · rcases List.mem_append.mp ht with ht | ht
    · exact plain_listing _ _ (by decide) hfailed t ht
    · exact plain_listing _ _ (by decide) hundefined t ht

theorem plain_textsOf (ns : List Notice) (a : Act Method)
    (h : ∀ t ∈ ns.flatMap Notice.texts, Plain t) (ha : ∀ t ∈ a.texts Method.texts, Plain t) :
    ∀ t ∈ textsOf ns a, Plain t := by
  intro t ht
  have hsummary := plain_summaryOf ns h
  cases a with
  | own method =>
    cases method with
    | log text => exact ha t ht
    | logSummary => exact hsummary t ht
  | call c =>
    obtain ⟨n, _, ht⟩ := List.mem_flatMap.mp ht
    cases n with
    | afterFeatures => exact hsummary t ht
    | stepResult r =>
      obtain rfl := List.mem_singleton.mp ht
      have hcharacters : ∀ t ∈ [".", "U", "F"], Plain t := by decide
      apply hcharacters
      cases r <;> simp [StepResult.character]
    | _ => exact absurd ht List.not_mem_nil

end ProgressLog

end FeatureRun
