import FeatureRun.Proofs.OutlineText
import FeatureRun.Proofs.ProgressText

/-!
Acts on a log: the calls that every listener takes, and methods of its own, by which anything may be
logged at any time. All but what was logged depends on the notices alone.
-/

namespace FeatureRun

universe u v

open Listener (Steady after after_nil after_append)

/-- What is made of every item behind the items before it, when one more item comes last. -/
theorem flatMap_take_concat {α β : Type} (f : List α → α → List β) (l : List α) (a : α) :
    (l ++ [a]).zipIdx.flatMap (fun (x, i) => f ((l ++ [a]).take i) x) =
      l.zipIdx.flatMap (fun (x, i) => f (l.take i) x) ++ f l a := by
  have hbefore : l.zipIdx.flatMap (fun (x, i) => f ((l ++ [a]).take i) x) =
      l.zipIdx.flatMap fun (x, i) => f (l.take i) x := by
    apply List.flatMap_congr
    rintro ⟨x, i⟩ hmem
    have hi : i < l.length := by
      have hlt := List.snd_lt_of_mem_zipIdx hmem
      omega
    show f ((l ++ [a]).take i) x = f (l.take i) x
    rw [List.take_append_of_le_length (Nat.le_of_lt hi)]
  have hlast : (l ++ [a]).take l.length = l := List.take_left
  rw [List.zipIdx_append, List.flatMap_append, hbefore]
  simp [List.zipIdx_cons, hlast]

/-- A listener with methods of its own. -/
class Owned (μ : outParam Type) (σ : Type u) where
  own : μ → σ → Effect Emission σ

/-- One thing done to a listener: a call that any listener takes, or one of its own methods. -/
inductive Act (μ : Type)
  | call (c : Listener.Call)
  | own (method : μ)

namespace Act

variable {μ : Type} {σ : Type u}

def call? : Act μ → Option Listener.Call
  | .call c => some c
  | .own _ => none

/-- The notices that the calls among acts amount to. -/
def heard (acts : List (Act μ)) : List Notice := Listener.heard (acts.filterMap call?)

variable [Listener σ] [Owned μ σ]

def perform : Act μ → σ → Effect Emission σ
  | .call c, s => Listener.take c s
  | .own method, s => Owned.own method s

/-- The listener after acts one after another. One that panics is caught, and keeps what it did. -/
def performAll (acts : List (Act μ)) (s : σ) : σ := acts.foldl (fun s a => (a.perform s).state) s

theorem heard_append (a b : List (Act μ)) : heard (a ++ b) = heard a ++ heard b := by
  rw [heard, List.filterMap_append, Listener.heard, List.filterMap_append]
  rfl

theorem length_heard_le (acts : List (Act μ)) : (heard acts).length ≤ acts.length :=
  Nat.le_trans (List.length_filterMap_le ..) (List.length_filterMap_le ..)

theorem heard_call_cons (c : Listener.Call) (rest : List (Act μ)) :
    heard (.call c :: rest) = c.notice?.toList ++ heard rest := by
  cases h : c.notice? <;> simp [heard, Listener.heard, call?, h]

theorem performAll_append (a b : List (Act μ)) (s : σ) :
    performAll (a ++ b) s = performAll b (performAll a s) :=
  List.foldl_append

end Act

/-- A view of a listener that its own methods leave as it is, and that shows all that a notice makes
of it. -/
structure Owned.Spares {μ : Type} {σ : Type u} {β : Type v} [Listener σ] [Owned μ σ]
    (view : σ → β) : Prop where
  own : ∀ (method : μ) s, view (Owned.own method s).state = view s
  notice : ∀ n s s', view s = view s' →
    view (Listener.notice n s).state = view (Listener.notice n s').state

/-- What is spared by the methods of a listener is as if it had taken notices only. -/
theorem Owned.Spares.performAll {μ : Type} {σ : Type u} {β : Type v} [Listener σ] [Steady σ]
    [Owned μ σ] {view : σ → β} (h : Owned.Spares view) (acts : List (Act μ)) (s : σ) :
    view (Act.performAll acts s) = view (after (Act.heard acts) s) := by
  -- the notices alone lead to another listener, which the view does not tell apart
  have hview (s s' : σ) (hs : view s = view s') :
      view (Act.performAll acts s) = view (after (Act.heard acts) s') := by
    induction acts generalizing s s' with
    | nil => exact hs
    | cons a rest ih =>
      cases a with
      | own method => exact ih _ s' ((h.own method s).trans hs)
      | call c =>
        have hone : view (Act.perform (.call c : Act μ) s).state =
            view (after c.notice?.toList s') := by
          rw [Act.perform, (Listener.take_of_steady c s).2]
          cases c.notice? with
          | none => exact hs
          | some n => exact h.notice n s s' hs
        rw [Act.heard_call_cons, after_append]
        exact ih _ _ hone
  exact hview s s rfl

namespace ProgressLog

inductive Method
  | log (chunk : String)
  | logSummary
  deriving DecidableEq, Repr, Inhabited

instance : Owned Method ProgressLog where
  own
    | .log chunk, p => p.log chunk
    | .logSummary, p => p.logSummary

/-- A log, but for what it has logged. -/
def unlogged (p : ProgressLog) : ProgressLog := { p with logs := "" }

theorem unlogged_notice (n : Notice) (p : ProgressLog) :
    (Listener.notice n p).state.unlogged = (Listener.notice n p.unlogged).state.unlogged := by
  cases n with
  | afterFeatures =>
    rw [notice_afterFeatures, notice_afterFeatures]
    rfl
  | stepResult r =>
    rw [notice_stepResult, notice_stepResult]
    rfl
  | _ => rfl

theorem spares_unlogged : Owned.Spares unlogged where
  own method p := by
    cases method with
    | log chunk => rfl
    | logSummary =>
      have hown : (Owned.own Method.logSummary p).state = p.logSummary.state := rfl
      rw [hown, logSummary_state]
      rfl
  notice n p p' h := by rw [unlogged_notice n p, h, ← unlogged_notice]

theorem statistics_performAll (acts : List (Act Method)) (p : ProgressLog) :
    (Act.performAll acts p).statistics = after (Act.heard acts) p.statistics := by
  have hspared := congrArg statistics (spares_unlogged.performAll acts p)
  exact hspared.trans (statistics_after ..)

theorem problems_performAll (acts : List (Act Method)) (p : ProgressLog) :
    (Act.performAll acts p).problems =
      p.problems ++ problemsHeard p.currentStep (Act.heard acts) := by
  have hspared := congrArg problems (spares_unlogged.performAll acts p)
  exact hspared.trans (problems_after ..)

end ProgressLog

namespace OutlineLog

inductive Method
  | log (text : String) (level : Nat)
  deriving DecidableEq, Repr, Inhabited

/-- A level so deep that no text can hold its blanks makes the log panic before it logs anything. -/
instance : Owned Method OutlineLog where
  own
    | .log text level, p =>
      match p.log? text level with
      | .ok done => done
      | .error e => ⟨p, [], some e.message⟩

/-- A log, but for what it has logged. -/
def unlogged (p : OutlineLog) : OutlineLog := { p with logs := "" }

/-- A result takes the step begun last, and is told apart whether there is one or not. -/
theorem notice_stepResult (r : StepResult) (p : OutlineLog) :
    (Listener.notice (.stepResult r) p).state =
      adding { p with failed := p.failed || !r.isSuccessful, currentStep := none }
        (p.currentStep.toList.flatMap fun s =>
          (OutlineEntry.ofStep s r).flatMap fun e => Text.block e.level e.text) false := by
  rcases p with ⟨logs, failed, _ | s, terminal, forwarded, hooks⟩
  · exact (adding_nothing _).symm
  · rw [Option.toList_some, List.flatMap_singleton]
    exact logEntries_state ..

theorem unlogged_logEntries (es : List OutlineEntry) (p : OutlineLog) :
    (logEntries es p).state.unlogged = p.unlogged := by
  rw [logEntries_state, adding, Bool.or_false]
  rfl

theorem unlogged_notice (n : Notice) (p : OutlineLog) :
    (Listener.notice n p).state.unlogged = (Listener.notice n p.unlogged).state.unlogged := by
  cases n with
  | beforeFeature f =>
    have hentries (q : OutlineLog) : (Listener.notice (.beforeFeature f) q).state =
        (logEntries (OutlineEntry.ofFeature f) q).state := rfl
    rw [hentries, hentries, unlogged_logEntries, unlogged_logEntries]
    rfl
  | beforeScenario s =>
    have hentries (q : OutlineLog) : (Listener.notice (.beforeScenario s) q).state =
        (logEntries (OutlineEntry.ofScenario s) q).state := rfl
    rw [hentries, hentries, unlogged_logEntries, unlogged_logEntries]
    rfl
  | stepResult r =>
    rw [notice_stepResult, notice_stepResult]
    rfl
  | _ => rfl

theorem spares_unlogged : Owned.Spares unlogged where
  own method p := by
    obtain ⟨text, level⟩ := method
    simp only [Owned.own, log?]
    by_cases h : Text.indentWidth * level < Overflow.lengthLimit
    · rw [if_pos h]
      rfl
    · rw [if_neg h]
  notice n p p' h := by rw [unlogged_notice n p, h, ← unlogged_notice]

end OutlineLog

end FeatureRun
