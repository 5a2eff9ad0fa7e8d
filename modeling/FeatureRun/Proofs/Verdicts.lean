import FeatureRun.Proofs.Acts
import FeatureRun.Proofs.ScenarioSegments
import FeatureRun.Proofs.TagWalk

namespace FeatureRun

open Listener (after after_cons after_append take_of_steady)

namespace Notice

/-- Some result among the notices is no pass. -/
def Fails (ns : List Notice) : Prop := ∃ r ∈ results ns, r ≠ .passed

instance (ns : List Notice) : Decidable (Fails ns) :=
  inferInstanceAs (Decidable (∃ r ∈ results ns, r ≠ .passed))

theorem Fails.append {a : List Notice} (h : Fails a) (b : List Notice) : Fails (a ++ b) := by
  obtain ⟨r, hr, hne⟩ := h
  refine ⟨r, ?_, hne⟩
  rw [results_append]
  exact List.mem_append_left _ hr

theorem any_results_iff (ns : List Notice) :
    (results ns).any (!·.isSuccessful) = true ↔ Fails ns := by
  rw [List.any_eq_true]
  apply exists_congr
  intro r
  cases r <;> simp [StepResult.isSuccessful]

end Notice

open Notice (Fails)

theorem Statistics.hasFailed_after_iff (ns : List Notice) :
    (after ns ({} : Statistics)).hasFailed = true ↔ Fails ns := by
  rw [hasFailed, steps_after_new, Bool.or_eq_true, decide_eq_true_iff, decide_eq_true_iff]
  simp only [Counts.ofResults, List.countP_pos_iff]
  constructor
  · rintro (⟨r, hr, hcounted⟩ | ⟨r, hr, hcounted⟩)
    · exact ⟨r, hr, fun hpass => absurd (hpass ▸ hcounted) (by decide)⟩
    · exact ⟨r, hr, fun hpass => absurd (hpass ▸ hcounted) (by decide)⟩
  · rintro ⟨r, hr, hne⟩
    cases r with
    | passed => exact absurd rfl hne
    | undefined => exact Or.inr ⟨_, hr, rfl⟩
    | failed e => exact Or.inl ⟨_, hr, rfl⟩

namespace OutlineLog

/-- Only a result touches the flag, whether it is that of a step begun or not. -/
theorem failed_notice (n : Notice) (p : OutlineLog) :
    (Listener.notice n p).state.failed =
      (p.failed || n.result?.toList.any (!·.isSuccessful)) := by
  cases n with
  | stepResult r =>
    rw [notice_stepResult]
    simp only [adding, Notice.result?, Option.toList_some, List.any_cons, List.any_nil,
      Bool.or_false]
  | beforeFeature f =>
    have hentries := congrArg failed (unlogged_logEntries (OutlineEntry.ofFeature f) p)
    exact hentries.trans (Bool.or_false _).symm
  | beforeScenario s =>
    have hentries := congrArg failed (unlogged_logEntries (OutlineEntry.ofScenario s) p)
    exact hentries.trans (Bool.or_false _).symm
  | _ => exact (Bool.or_false _).symm

theorem failed_after (ns : List Notice) (p : OutlineLog) :
    (after ns p).failed = (p.failed || (Notice.results ns).any (!·.isSuccessful)) := by
  induction ns generalizing p with
  | nil => exact (Bool.or_false _).symm
  | cons n rest ih =>
    have hresults : Notice.results (n :: rest) = n.result?.toList ++ Notice.results rest := by
      cases h : n.result? <;> simp [Notice.results, h]
    rw [after_cons, ih, failed_notice, hresults, List.any_append, Bool.or_assoc]

theorem failed_performAll (acts : List (Act Method)) (p : OutlineLog) :
    (Act.performAll acts p).failed =
      (p.failed || (Notice.results (Act.heard acts)).any (!·.isSuccessful)) := by
  have hspared := congrArg failed (spares_unlogged.performAll acts p)
  exact hspared.trans (failed_after ..)

end OutlineLog

namespace Tag

/-- What a line says of a result that is no pass. -/
def failure : List Char := "success='false'".toList

theorem failure_infix_line_iff (t : Tag) : failure <:+: t.line ↔ t = .result false := by
  have hall : ∀ t ∈ all, failure <:+: t.line ↔ t = .result false := by decide +kernel
  exact hall t t.mem_all

end Tag

theorem TagLog.failure_mem_lines_iff (ns : List Notice) :
    (∃ l ∈ Text.lines (after ns ({} : TagLog)).output.toList, Tag.failure <:+: l) ↔ Fails ns := by
  have hlines : Text.lines (after ns ({} : TagLog)).output.toList =
      ns.map (fun n => (Tag.ofNotice n).line) ++ [[]] := by
    rw [output_after, Tag.write, Text.lines_written, List.map_map]
    · rfl
    · intro l hl
      obtain ⟨t, _, rfl⟩ := List.mem_map.mp hl
      exact t.lineFeed_not_mem_line
  rw [hlines]
  constructor
  · rintro ⟨l, hl, hfailure⟩
    rcases List.mem_append.mp hl with hl | hl
    · obtain ⟨n, hn, rfl⟩ := List.mem_map.mp hl
      have htag := (Tag.failure_infix_line_iff _).mp hfailure
      cases n with
      | stepResult r =>
        refine ⟨r, List.mem_filterMap.mpr ⟨_, hn, rfl⟩, ?_⟩
        rintro rfl
        exact absurd htag (by decide)
      | _ => exact absurd htag (by simp [Tag.ofNotice])
    · rw [List.mem_singleton.mp hl] at hfailure
      exact absurd hfailure (by decide)
  · rintro ⟨r, hr, hne⟩
    obtain ⟨n, hn, hresult⟩ := List.mem_filterMap.mp hr
    have htag : Tag.ofNotice n = .result false := by
      cases n with
      | stepResult r' =>
        cases Option.some.inj hresult
        cases r with
        | passed => exact absurd rfl hne
        | _ => rfl
      | _ => exact absurd hresult (by simp [Notice.result?])
    refine ⟨(Tag.ofNotice n).line, ?_, (Tag.failure_infix_line_iff _).mpr htag⟩
    exact List.mem_append_left _ (List.mem_map.mpr ⟨n, hn, rfl⟩)

namespace Act

variable {μ ν : Type}

/-- An act as it concerns a listener that has some of the methods only. -/
def narrow (f : μ → Option ν) : Act μ → Option (Act ν)
  | .call c => some (.call c)
  | .own method => (f method).map .own

theorem heard_narrow (f : μ → Option ν) (acts : List (Act μ)) :
    heard (acts.filterMap (narrow f)) = heard acts := by
  have hcall (a : Act μ) : (narrow f a).bind call? = call? a := by
    cases a with
    | call c => rfl
    | own method => cases h : f method <;> simp [narrow, call?, h]
  rw [heard, heard, List.filterMap_filterMap]
  simp only [hcall]

end Act

/-- Listeners of all kinds that hear the same calls. -/
structure Panel where
  statistics : Statistics := {}
  progress : ProgressLog := {}
  outline : OutlineLog := {}
  tags : TagLog := {}
  deriving DecidableEq, Repr, Inhabited

namespace Panel

/-- A method of one of the two logs that have methods of their own. -/
abbrev Method := ProgressLog.Method ⊕ OutlineLog.Method

/-- A call is taken by all of the listeners, a method by the log it belongs to. -/
def perform : Act Method → Panel → Panel
  | .call c, q =>
    { statistics := (Listener.take c q.statistics).state
      progress := (Listener.take c q.progress).state
      outline := (Listener.take c q.outline).state
      tags := (Listener.take c q.tags).state }
  | .own (.inl method), q => { q with progress := (Owned.own method q.progress).state }
  | .own (.inr method), q => { q with outline := (Owned.own method q.outline).state }

def performAll (acts : List (Act Method)) (q : Panel) : Panel :=
  acts.foldl (fun q a => perform a q) q

/-- The listeners tell the same verdict, and the statistics of the progress log are no others. -/
structure Agrees (q : Panel) (fails : Prop) : Prop where
  statistics : q.progress.statistics = q.statistics
  counted : q.statistics.hasFailed = true ↔ fails
  remembered : q.progress.hasFailed = true ↔ fails
  flagged : q.outline.allPassed = false ↔ fails
  written : (∃ l ∈ Text.lines q.tags.output.toList, Tag.failure <:+: l) ↔ fails

/-- No listener is aware of the others, or of methods that are not its own. -/
theorem performAll_eq (acts : List (Act Method)) (q : Panel) :
    performAll acts q =
      { statistics := after (Act.heard acts) q.statistics
        progress := Act.performAll (acts.filterMap (Act.narrow Sum.getLeft?)) q.progress
        outline := Act.performAll (acts.filterMap (Act.narrow Sum.getRight?)) q.outline
        tags := after (Act.heard acts) q.tags } := by
  induction acts generalizing q with
  | nil => rfl
  | cons a rest ih =>
    have hsplit : performAll (a :: rest) q = performAll rest (perform a q) := rfl
    rw [hsplit, ih]
    rcases a with c | method | method
    · have hcall : perform (.call c) q =
          { statistics := after c.notice?.toList q.statistics
            progress := (Listener.take c q.progress).state
            outline := (Listener.take c q.outline).state
            tags := after c.notice?.toList q.tags } := by
        rw [perform, (take_of_steady c q.statistics).2, (take_of_steady c q.tags).2]
      rw [Act.heard_call_cons, after_append, after_append, hcall]
      rfl
    · rfl
    · rfl

/-- The logs are new, but may have a terminal, hooks and a function to pass lines to. -/
theorem agrees_performAll (acts : List (Act Method)) (terminal terminal' : Option Styles)
    (forwarded : Bool) (hooks hooks' : Nat) :
    (performAll acts
      { progress := { terminal, hooks }
        outline := { terminal := terminal', forwarded, hooks := hooks' } }).Agrees
      (Fails (Act.heard acts)) := by
  let ns := Act.heard acts
  let p := Act.performAll (acts.filterMap (Act.narrow Sum.getLeft?))
    ({ terminal, hooks } : ProgressLog)
  let o := Act.performAll (acts.filterMap (Act.narrow Sum.getRight?))
    ({ terminal := terminal', forwarded, hooks := hooks' } : OutlineLog)
  have hstatistics : p.statistics = after ns {} := by
    rw [ProgressLog.statistics_performAll, Act.heard_narrow]
  have hfailed : o.failed = (Notice.results ns).any (!·.isSuccessful) := by
    rw [OutlineLog.failed_performAll, Act.heard_narrow, Bool.false_or]
  rw [performAll_eq]
  constructor
  case statistics => exact hstatistics
  case counted => exact Statistics.hasFailed_after_iff ns
  case remembered =>
    have hlog : p.hasFailed = (after ns ({} : Statistics)).hasFailed := by
      rw [ProgressLog.hasFailed, hstatistics]
    rw [← Statistics.hasFailed_after_iff ns, ← hlog]
  case flagged =>
    have hpassed : o.allPassed = false ↔ o.failed = true := iff_of_eq (Bool.not_eq_false' _)
    rw [← Notice.any_results_iff ns, ← hfailed]
    exact hpassed
  case written => exact TagLog.failure_mem_lines_iff ns

end Panel

/-- Whatever is done to the listeners from their beginning, they agree on the verdict, at any time.
It is told by the results alone, and once one of them is no pass it stays, whatever comes after. No
counter overflows before so many acts have been done. -/
theorem verdicts_agree (acts : List (Act Panel.Method)) (terminal terminal' : Option Styles)
    (forwarded : Bool) (hooks hooks' : Nat) :
    let new : Panel := {
      progress := { terminal, hooks }
      outline := { terminal := terminal', forwarded, hooks := hooks' } }
    (∀ k, (Panel.performAll (acts.take k) new).Agrees (Fails (Act.heard (acts.take k)))) ∧
    (∀ k l, k ≤ l → Fails (Act.heard (acts.take k)) →
      (Panel.performAll (acts.take l) new).Agrees True) ∧
    (acts.length < Overflow.counterLimit →
      ∀ k, (Panel.performAll (acts.take k) new).statistics.Fits) := by
  intro new
  refine ⟨fun k => Panel.agrees_performAll _ .., fun k l hkl hfails => ?_, fun hlength k => ?_⟩
  · have hlater : Fails (Act.heard (acts.take l)) := by
      obtain ⟨rest, hrest⟩ := List.take_prefix_take_left (l := acts) hkl
      rw [← hrest, Act.heard_append]
      exact hfails.append _
    rw [← eq_true hlater]
    exact Panel.agrees_performAll _ ..
  · have hheard : (Act.heard (acts.take k)).length ≤ acts.length :=
      Nat.le_trans (Act.length_heard_le _) ((List.length_take_le' k acts))
    rw [Panel.performAll_eq]
    exact Statistics.fits_after_new _ (Nat.lt_of_le_of_lt hheard hlength)

/-- A result comes outside of any step, and all that comes after it passes. -/
theorem strayResult_verdict :
    let sc : Scenario := { keyword := "Scenario", name := "any" }
    let acts : List (Act Panel.Method) := [
      .own (.inl (.log "go")), .call (.notice (.stepResult .undefined)),
      .own (.inr (.log "note" 1)), .call (.hear (.before (.scenario sc))),
      .own (.inl .logSummary), .call (.hear (.before (.stepResult .passed))),
      .call (.notice .afterFeatures)]
    let new : Panel := { progress := { hooks := 1 }, outline := { forwarded := true } }
    ¬ Fails (Act.heard (acts.take 1)) ∧ Fails (Act.heard (acts.take 2)) ∧
      acts.length < Overflow.counterLimit ∧
      (Panel.performAll (acts.take 1) new).Agrees (Fails (Act.heard (acts.take 1))) ∧
      (Panel.performAll (acts.take 7) new).Agrees True ∧
      (Panel.performAll (acts.take 7) new).statistics.Fits := by
  intro sc acts new
  have hfails : Fails (Act.heard (acts.take 2)) := by decide
  have hlength : acts.length < Overflow.counterLimit := by decide
  obtain ⟨hagree, hstay, hfits⟩ := verdicts_agree acts none none true 1 0
  exact ⟨by decide, hfails, hlength, hagree 1, hstay 2 7 (by decide) hfails, hfits hlength 7⟩

end FeatureRun
