import FeatureRun.Proofs.ShownChunks

namespace FeatureRun

open Listener (after after_append after_cons after_nil)
open Text (Plain plain_append_iff)
open Displayed (Adds)

namespace Notice

/-- What a notice makes of the step begun last: another one, none any more, or nothing. -/
def turns? : Notice → Option (Option Step)
  | .beforeStep s => some (some s)
  | .stepResult _ => some none
  | _ => none

/-- The step begun last among notices, unless a result has been heard since. -/
def pending (ns : List Notice) : Option Step := (ns.filterMap turns?).getLast?.join

end Notice

namespace OutlineLog

/-- What is logged at once: a step that has a result, or another text, at a level. -/
inductive Line
  | step (s : Step) (r : StepResult)
  | other (text : String) (level : Nat)
  deriving DecidableEq, Repr, Inhabited

namespace Line

/-- A step is shown in the color of its result, and nothing else is colored. -/
def chunk : Line → Chunk
  | .step s r =>
    { text := Text.indent (s.keyword ++ s.name) 2, color := some r.color, ending := "\n" }
  | .other text level => { text := Text.indent text level, ending := "\n" }

/-- The result of the step that is logged. -/
def result? : Line → Option StepResult
  | .step _ r => some r
  | .other _ _ => none

def ofFeature (f : Feature) : List Line :=
  .other (f.keyword ++ ": " ++ f.name) 0 ::
    if f.description = "" then [] else [.other f.description 1]

def ofScenario (s : Scenario) : List Line :=
  [.other "" 0, .other (s.keyword ++ ": " ++ s.name) 1]

def ofStep (s : Step) (r : StepResult) : List Line :=
  .step s r ::
    match s.docString with
    | some content => [.other "\"\"\"" 3, .other content 3, .other "\"\"\"" 3]
    | none => []

end Line

/-- The lines that a notice makes a log add if a step is pending. -/
def noticeLines (pending : Option Step) : Notice → List Line
  | .beforeFeature f => Line.ofFeature f
  | .beforeScenario s => Line.ofScenario s
  | .stepResult r => pending.toList.flatMap (Line.ofStep · r)
  | _ => []

/-- The lines that an act adds behind notices. -/
def linesOf (ns : List Notice) : Act Method → List Line
  | .own (.log text level) =>
    if Text.indentWidth * level < Overflow.lengthLimit then [.other text level] else []
  | .call c => c.notice?.toList.flatMap (noticeLines (Notice.pending ns))

def entryChunk (e : OutlineEntry) : Chunk :=
  { text := e.indented, color := e.color, ending := "\n" }

theorem adds_logEntry (e : OutlineEntry) (p : OutlineLog) :
    Adds [entryChunk e] p (p.logEntry e) := by
  refine ⟨?_, rfl, rfl, ?_, ?_⟩
  · have hjoin : Chunk.join [entryChunk e] = e.indented ++ "\n" := by
      rw [Chunk.join, List.map_singleton, String.join_cons]
      exact String.append_empty
    rw [hjoin, ← String.append_assoc]
    rfl
  · rcases p with ⟨_, _, _, _ | styles, _ | _, _⟩
    · rfl
    · rfl
    · exact congrArg (fun t => [t]) (Chunk.shown_eq styles (entryChunk e))
    · exact congrArg (fun t => [t]) (Chunk.shown_eq styles (entryChunk e))
  · rcases p with ⟨_, _, _, _ | styles, _ | _, _⟩ <;> rfl

theorem adds_logEntries (es : List OutlineEntry) (p : OutlineLog) :
    Adds (es.map entryChunk) p (logEntries es p) := by
  induction es generalizing p with
  | nil => exact .nothing rfl rfl rfl rfl rfl
  | cons e rest ih => exact (adds_logEntry e p).andThen rfl (ih _)

/-- The entries of a feature, a scenario or a step are its lines. -/
theorem entryChunk_ofFeature (f : Feature) :
    (OutlineEntry.ofFeature f).map entryChunk = (Line.ofFeature f).map Line.chunk := by
  by_cases hd : f.description = "" <;>
    simp [OutlineEntry.ofFeature, Line.ofFeature, hd, entryChunk, Line.chunk,
      OutlineEntry.indented, Feature.heading]

theorem entryChunk_ofStep (s : Step) (r : StepResult) :
    (OutlineEntry.ofStep s r).map entryChunk = (Line.ofStep s r).map Line.chunk := by
  rcases s with ⟨keyword, name, line, _ | content⟩ <;> rfl

theorem adds_notice (n : Notice) (p : OutlineLog) :
    Adds ((noticeLines p.currentStep n).map Line.chunk) p (Listener.notice n p) := by
  cases n with
  | beforeFeature f =>
    rw [noticeLines, ← entryChunk_ofFeature]
    exact adds_logEntries _ p
  | beforeScenario s =>
    have hhooks : Adds [] p (Effect.emit p (hookCalls p.hooks s)) := .hooks p.hooks s rfl rfl rfl
    exact hhooks.andThen rfl (adds_logEntries (OutlineEntry.ofScenario s) p)
  | stepResult r =>
    rcases p with ⟨logs, failed, _ | s, terminal, forwarded, hooks⟩
    · exact .nothing rfl rfl rfl rfl rfl
    · rw [noticeLines, Option.toList_some, List.flatMap_singleton, ← entryChunk_ofStep]
      have hstep := adds_logEntries (OutlineEntry.ofStep s r)
        ⟨logs, failed || !r.isSuccessful, none, terminal, forwarded, hooks⟩
      exact ⟨hstep.logs, hstep.terminal, hstep.forwarded, hstep.printed, hstep.passed⟩
  | _ => exact .nothing rfl rfl rfl rfl rfl

theorem adds_method (text : String) (level : Nat) (p : OutlineLog) (ns : List Notice) :
    Adds ((linesOf ns (.own (.log text level))).map Line.chunk) p
      (Owned.own (Method.log text level) p) := by
  rw [linesOf]
  simp only [Owned.own, log?]
  split
  · exact adds_logEntry ⟨text, level, none⟩ p
  · exact .nothing rfl rfl rfl rfl rfl

theorem currentStep_notice (n : Notice) (p : OutlineLog) :
    (Listener.notice n p).state.currentStep = n.turns?.getD p.currentStep := by
  cases n with
  | beforeFeature f =>
    have hentries := congrArg currentStep (unlogged_logEntries (OutlineEntry.ofFeature f) p)
    exact hentries
  | beforeScenario s =>
    have hentries := congrArg currentStep (unlogged_logEntries (OutlineEntry.ofScenario s) p)
    exact hentries
  | stepResult r =>
    rw [notice_stepResult]
    rfl
  | _ => rfl

theorem currentStep_after (ns : List Notice) (p : OutlineLog) (h : p.currentStep = none) :
    (after ns p).currentStep = Notice.pending ns := by
  induction ns using List.reverseRecOn with
  | nil => exact h
  | append_singleton ns n ih =>
    rw [after_append, after_cons, after_nil, currentStep_notice, ih, Notice.pending,
      Notice.pending, List.filterMap_append]
    cases n <;> simp [Notice.turns?]

theorem adds_performAll (acts : List (Act Method)) (terminal : Option Styles) (forwarded : Bool)
    (hooks : Nat) :
    let new : OutlineLog := { terminal, forwarded, hooks }
    Adds ((Act.pieces linesOf acts).map Line.chunk) new
      ⟨Act.performAll acts new, Act.emissions acts new, none⟩ := by
  intro new
  rw [Act.map_pieces]
  apply Displayed.adds_emissions
  intro acts a p
  have hcurrent : p.currentStep = Notice.pending (Act.heard acts) := by
    have hspared := congrArg currentStep (spares_unlogged.performAll acts new)
    exact hspared.trans (currentStep_after (Act.heard acts) new rfl)
  cases a with
  | own method => exact adds_method _ _ p _
  | call c =>
    rw [linesOf, List.map_flatMap, ← hcurrent]
    exact Adds.take _ p (adds_notice · p) c

/-- The texts that a method is given. -/
def Method.texts : Method → List String
  | .log text _ => [text]

theorem plain_heading (keyword name : String) (hkeyword : Plain keyword) (hname : Plain name) :
    Plain (keyword ++ ": " ++ name) := by
  rw [plain_append_iff, plain_append_iff]
  exact ⟨⟨hkeyword, by decide⟩, hname⟩

/-- There is no code in what is logged for a line. -/
def Line.Plain (l : Line) : Prop := Text.Plain l.chunk.logged

theorem plain_indent_append_lineFeed (text : String) (level : Nat) (h : Plain text) :
    Plain (Text.indent text level ++ "\n") := by
  have hfeed : Plain "\n" := by decide
  exact (plain_append_iff ..).mpr ⟨Text.plain_indent text level h, hfeed⟩

theorem plain_other (text : String) (level : Nat) (h : Plain text) :
    (Line.other text level).Plain := plain_indent_append_lineFeed text level h

theorem plain_noticeLines (pending : Option Step) (n : Notice) (hn : ∀ t ∈ n.texts, Plain t)
    (hpending : ∀ s ∈ pending, ∀ t ∈ (Notice.beforeStep s).texts, Plain t) :
    ∀ l ∈ noticeLines pending n, l.Plain := by
  cases n with
  | beforeFeature f =>
    have hheading := plain_heading f.keyword f.name (hn _ (.head _)) (hn _ (.tail _ (.head _)))
    have hdescription : Plain f.description := hn _ (.tail _ (.tail _ (.head _)))
    refine List.forall_mem_cons.mpr ⟨plain_other _ 0 hheading, ?_⟩
    split
    · exact List.forall_mem_nil _
    · exact List.forall_mem_singleton.mpr (plain_other _ 1 hdescription)
  | beforeScenario s =>
    have hheading := plain_heading s.keyword s.name (hn _ (.head _)) (hn _ (.tail _ (.head _)))
    refine List.forall_mem_cons.mpr ⟨plain_other "" 0 (by decide), ?_⟩
    exact List.forall_mem_singleton.mpr (plain_other _ 1 hheading)
  | stepResult r =>
    cases pending with
    | none => exact List.forall_mem_nil _
    | some s =>
      have hs := hpending s rfl
      have hlabel : Plain (s.keyword ++ s.name) :=
        (plain_append_iff ..).mpr ⟨hs _ (.head _), hs _ (.tail _ (.head _))⟩
      have hstep : (Line.step s r).Plain := plain_indent_append_lineFeed _ 2 hlabel
      rw [noticeLines, Option.toList_some, List.flatMap_singleton]
      refine List.forall_mem_cons.mpr ⟨hstep, ?_⟩
      cases hd : s.docString with
      | none => exact List.forall_mem_nil _
      | some content =>
        have hcontent : Plain content := hs content (by simp [Notice.texts, Notice.message,
          Message.before, Event.texts, hd])
        have hfence : (Line.other "\"\"\"" 3).Plain := plain_other _ 3 (by decide)
        refine List.forall_mem_cons.mpr ⟨hfence, ?_⟩
        refine List.forall_mem_cons.mpr ⟨plain_other content 3 hcontent, ?_⟩
        exact List.forall_mem_singleton.mpr hfence
  | _ => exact List.forall_mem_nil _

theorem mem_of_pending (ns : List Notice) (s : Step) (h : Notice.pending ns = some s) :
    .beforeStep s ∈ ns := by
  have hlast : (ns.filterMap Notice.turns?).getLast? = some (some s) :=
    Option.join_eq_some_iff.mp h
  obtain ⟨n, hn, hturn⟩ := List.mem_filterMap.mp (List.mem_of_getLast? hlast)
  cases n with
  | beforeStep s' =>
    cases hturn
    exact hn
  | _ => exact absurd hturn (by simp [Notice.turns?])

theorem plain_linesOf (ns : List Notice) (a : Act Method)
    (h : ∀ t ∈ ns.flatMap Notice.texts, Plain t) (ha : ∀ t ∈ a.texts Method.texts, Plain t) :
    ∀ l ∈ linesOf ns a, l.Plain := by
  intro l hl
  cases a with
  | own method =>
    obtain ⟨text, level⟩ := method
    rw [linesOf] at hl
    split at hl
    · obtain rfl := List.mem_singleton.mp hl
      exact plain_other text level (ha text (.head _))
    · exact absurd hl List.not_mem_nil
  | call c =>
    obtain ⟨n, hn, hl⟩ := List.mem_flatMap.mp hl
    apply plain_noticeLines _ n _ _ l hl
    · exact fun t ht => ha t (List.mem_flatMap.mpr ⟨n, hn, ht⟩)
    · intro s hs t ht
      exact h t (List.mem_flatMap.mpr ⟨_, mem_of_pending ns s hs, ht⟩)

end OutlineLog

end FeatureRun
