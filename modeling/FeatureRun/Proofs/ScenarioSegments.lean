import Mathlib.Data.List.DropRight
import FeatureRun.Proofs.ProgressText

namespace FeatureRun

open Listener (after after_nil after_cons after_append heard takeAll takeAll_of_steady)

namespace Notice

/-- Whether a notice tells that a scenario begins or ends. -/
def isBorder : Notice → Bool
  | .beforeScenario _ => true
  | .afterScenario _ => true
  | _ => false

def opensScenario : Notice → Bool
  | .beforeScenario _ => true
  | _ => false

def endsFeature : Notice → Bool
  | .afterFeature _ => true
  | _ => false

/-- The results heard since a scenario was last begun or ended. -/
def segment (ns : List Notice) : List StepResult := results (ns.rtakeWhile fun n => !n.isBorder)

/-- Whether a scenario has been begun, and none begun or ended since. -/
def inScenario (ns : List Notice) : Bool := (ns.filter isBorder).getLast?.any opensScenario

theorem results_append (a b : List Notice) : results (a ++ b) = results a ++ results b :=
  List.filterMap_append

theorem segment_of_border (ns : List Notice) (n : Notice) (h : n.isBorder = true) :
    segment (ns ++ [n]) = [] ∧ inScenario (ns ++ [n]) = n.opensScenario := by
  have hfilter : (ns ++ [n]).filter isBorder = ns.filter isBorder ++ [n] := by simp [h]
  rw [segment, inScenario, List.rtakeWhile_concat_neg _ _ _ (by simp [h]), hfilter,
    List.getLast?_concat]
  exact ⟨rfl, rfl⟩

theorem segment_of_inner (ns : List Notice) (n : Notice) (h : n.isBorder = false) :
    segment (ns ++ [n]) = segment ns ++ results [n] ∧ inScenario (ns ++ [n]) = inScenario ns := by
  have hfilter : (ns ++ [n]).filter isBorder = ns.filter isBorder := by simp [h]
  rw [segment, inScenario, List.rtakeWhile_concat_pos _ _ _ (by simp [h]), results_append, hfilter]
  exact ⟨rfl, rfl⟩

end Notice

/-- What counts as a scenario where one ends behind notices: the results since the last border, if
it was the beginning of a scenario or if one of them is no pass. -/
def Counts.ofEnd (ns : List Notice) : Counts :=
  let seg := Notice.segment ns
  if Notice.inScenario ns || seg.any (!·.isSuccessful) then ofScenarios [seg] else {}

/-- Where nothing is remembered at first, passes leave it so. -/
theorem StepResult.foldl_worsen_none (rs : List StepResult) :
    rs.foldl worsen none =
      if rs.any (!·.isSuccessful) then rs.foldl worsen (some .passed) else none := by
  induction rs with
  | nil => rfl
  | cons r rest ih =>
    cases r with
    | passed => simpa [worsen, isSuccessful] using ih
    | _ => simp [worsen, isSuccessful]

namespace Statistics

/-- The end of a scenario counts the worst result that is remembered, if there is one. -/
theorem notice_afterScenario (sc : Scenario) (s : Statistics) :
    (Listener.notice (.afterScenario sc) s).state =
      { s with scenarios := s.scenarios.plus (.ofResults s.current.toList), current := none } := by
  have htake : (Listener.notice (.afterScenario sc) s).state = take (.afterScenario sc) s := rfl
  rw [htake, take]
  cases hc : s.current with
  | none =>
    have hsame : { s with current := none } = s := by rw [← hc]
    exact hsame.symm
  | some r =>
    rw [Option.toList_some, ← Counts.record_eq_plus]

theorem features_after (ns : List Notice) (s : Statistics) :
    (after ns s).features = s.features + ns.countP Notice.endsFeature := by
  induction ns generalizing s with
  | nil => rfl
  | cons n rest ih =>
    rw [after_cons, ih, List.countP_cons]
    cases n with
    | afterFeature f =>
      have hone : (Listener.notice (.afterFeature f) s).state.features = s.features + 1 := rfl
      rw [hone, Notice.endsFeature, if_pos rfl]
      omega
    | afterScenario sc =>
      rw [notice_afterScenario]
      rfl
    | _ => rfl

theorem steps_after (ns : List Notice) (s : Statistics) :
    (after ns s).steps = s.steps.plus (.ofResults (Notice.results ns)) := by
  induction ns generalizing s with
  | nil => rfl
  | cons n rest ih =>
    rw [after_cons, ih]
    cases n with
    | stepResult r =>
      have hone : (Listener.notice (.stepResult r) s).state.steps = s.steps.record r := rfl
      have hsplit : Counts.ofResults (Notice.results (.stepResult r :: rest)) =
          (Counts.ofResults [r]).plus (.ofResults (Notice.results rest)) :=
        Counts.ofResults_append [r] _
      rw [hone, hsplit, Counts.record_eq_plus, Counts.plus_assoc]
    | afterScenario sc =>
      rw [notice_afterScenario]
      rfl
    | _ => rfl

/-- What new statistics have counted is the results they have heard. -/
theorem steps_after_new (ns : List Notice) :
    (after ns ({} : Statistics)).steps = .ofResults (Notice.results ns) := by
  rw [steps_after]
  simp only [Counts.plus, Nat.zero_add]

/-- What is remembered is the worst result since the last border of a scenario, where the beginning
of one stands for a pass. -/
theorem current_after (ns : List Notice) :
    (after ns ({} : Statistics)).current =
      (Notice.segment ns).foldl StepResult.worsen
        (if Notice.inScenario ns then some .passed else none) := by
  -- the last notice decides which segment there is, so the induction is from the end
  induction ns using List.reverseRecOn with
  | nil => rfl
  | append_singleton ns n ih =>
    rw [after_append, after_cons, after_nil]
    cases hborder : n.isBorder with
    | true =>
      obtain ⟨hsegment, hin⟩ := Notice.segment_of_border ns n hborder
      rw [hsegment, hin]
      cases n with
      | beforeScenario sc => rfl
      | afterScenario sc =>
        rw [notice_afterScenario]
        rfl
      | _ => exact absurd hborder (by simp [Notice.isBorder])
    | false =>
      obtain ⟨hsegment, hin⟩ := Notice.segment_of_inner ns n hborder
      rw [hsegment, hin, List.foldl_append, ← ih]
      cases n with
      | beforeScenario sc | afterScenario sc => exact absurd hborder (by simp [Notice.isBorder])
      | _ => rfl

/-- The worst result remembered counts as the scenario that ends. -/
theorem ofResults_current_after (ns : List Notice) :
    Counts.ofResults (after ns ({} : Statistics)).current.toList = Counts.ofEnd ns := by
  obtain ⟨w, hworst, hcounted⟩ := StepResult.exists_worst (Notice.segment ns)
  rw [current_after, Counts.ofEnd]
  cases Notice.inScenario ns with
  | true =>
    simp only [if_true, Bool.true_or, hworst, Option.toList_some, hcounted]
  | false =>
    simp only [Bool.false_eq_true, if_false, Bool.false_or, StepResult.foldl_worsen_none]
    cases (Notice.segment ns).any (!·.isSuccessful) with
    | true => simp only [if_true, hworst, Option.toList_some, hcounted]
    | false => rfl

/-- All that has been counted. -/
def counted (s : Statistics) : Nat := s.features + s.scenarios.total + s.steps.total

theorem counted_notice (n : Notice) (s : Statistics) :
    (Listener.notice n s).state.counted ≤ s.counted + 1 := by
  cases n with
  | afterScenario sc =>
    have hone : s.current.toList.length ≤ 1 := by cases s.current <;> simp
    rw [notice_afterScenario]
    simp only [counted, Counts.total_plus, Counts.total_ofResults]
    omega
  | stepResult r =>
    have hone : (Listener.notice (.stepResult r) s).state.steps.total = s.steps.total + 1 :=
      s.steps.total_record r
    have hsame : (Listener.notice (.stepResult r) s).state.features = s.features ∧
        (Listener.notice (.stepResult r) s).state.scenarios = s.scenarios := ⟨rfl, rfl⟩
    rw [counted, counted, hone, hsame.1, hsame.2]
    omega
  | afterFeature f =>
    have hone : (Listener.notice (.afterFeature f) s).state.counted =
        s.features + 1 + s.scenarios.total + s.steps.total := rfl
    rw [hone, counted]
    omega
  | _ => exact Nat.le_succ _

theorem counted_after (ns : List Notice) (s : Statistics) :
    (after ns s).counted ≤ s.counted + ns.length := by
  induction ns generalizing s with
  | nil => exact le_rfl
  | cons n rest ih =>
    have hone := counted_notice n s
    have hrest := ih (Listener.notice n s).state
    rw [after_cons, List.length_cons]
    omega

theorem fits_of_counted_lt (s : Statistics) (h : s.counted < Overflow.counterLimit) : s.Fits := by
  simp only [counted, Counts.total] at h
  simp only [Fits, HasRoom, Counts.HasRoom]
  omega

/-- No counter of new statistics overflows before so many notices have been heard. -/
theorem fits_after_new (ns : List Notice) (h : ns.length < Overflow.counterLimit) :
    (after ns ({} : Statistics)).Fits := by
  have hcounted := counted_after ns {}
  have hnew : counted {} = 0 := rfl
  exact fits_of_counted_lt _ (by omega)

end Statistics

/-- New statistics after any messages and notices. Results and ends of features are counted as they
come. The end of a scenario counts the results since the last beginning or end of one, by the worst
of them; if it was an end, or if there was none, they count only if one of them is no pass. -/
theorem statistics_count_segments (calls : List Listener.Call) :
    let ns := heard calls
    let s := (takeAll calls ({} : Statistics)).state
    s.steps = .ofResults (Notice.results ns) ∧
    s.features = ns.countP Notice.endsFeature ∧
    (∀ c, (takeAll (calls ++ [c]) ({} : Statistics)).state.scenarios =
      match c.notice? with
      | some (.afterScenario _) => s.scenarios.plus (.ofEnd ns)
      | _ => s.scenarios) ∧
    (calls.length < Overflow.counterLimit → s.Fits) := by
  intro ns s
  have hstate : s = after ns {} := (takeAll_of_steady calls _).2
  refine ⟨?_, ?_, fun c => ?_, fun hlength => ?_⟩
  · rw [hstate]
    exact Statistics.steps_after_new ns
  · rw [hstate, Statistics.features_after]
    exact Nat.zero_add _
  · have hone : heard (calls ++ [c]) = ns ++ c.notice?.toList := by
      cases h : c.notice? <;> simp [heard, ns, h]
    rw [(takeAll_of_steady _ _).2, hone, after_append, ← hstate]
    cases c.notice? with
    | none => rfl
    | some n =>
      cases n with
      | afterScenario sc =>
        have hend := Statistics.ofResults_current_after ns
        rw [Option.toList_some, after_cons, after_nil, Statistics.notice_afterScenario, hstate, hend]
      | _ => rfl
  · have hheard : ns.length ≤ calls.length := List.length_filterMap_le ..
    rw [hstate]
    exact Statistics.fits_after_new ns (by omega)

/-- A result outside of any scenario counts with the next end, a pass does not, and a scenario begun
inside another one makes that one's failure forgotten. -/
theorem nestedScenarios_counted :
    let sc : Scenario := { keyword := "Scenario", name := "any" }
    let f : Feature := { keyword := "Feature", name := "any", description := "" }
    let calls : List Listener.Call := [
      .notice (.stepResult .undefined), .hear (.after (.scenario sc)),
      .hear ⟨.instant, .scenario sc⟩, .notice (.stepResult .passed), .notice (.afterScenario sc),
      .notice (.beforeScenario sc), .hear ⟨.before, .stepResult (.failed (.failed "lost"))⟩,
      .hear (.before (.scenario sc)), .notice (.afterFeature f), .notice (.stepResult .passed)]
    let s := (takeAll calls ({} : Statistics)).state
    calls.length < Overflow.counterLimit ∧ s.Fits ∧ s.steps = ⟨2, 1, 1⟩ ∧ s.features = 1 ∧
      (takeAll (calls ++ [.hear (.after (.scenario sc))]) ({} : Statistics)).state.scenarios =
        ⟨1, 1, 0⟩ := by
  intro sc f calls s
  have hlength : calls.length < Overflow.counterLimit := by decide
  obtain ⟨hsteps, hfeatures, hends, hfits⟩ := statistics_count_segments calls
  exact ⟨hlength, hfits hlength, hsteps.trans (by decide), hfeatures.trans (by decide),
    (hends (.hear (.after (.scenario sc)))).trans (by decide)⟩

end FeatureRun
