import Mathlib.Data.List.Perm.Basic
import FeatureRun.Proofs.CompleteWalk

namespace FeatureRun

def StepResult.isFailed (r : StepResult) : Bool := r.error?.isSome

namespace Counts

def plus (c d : Counts) : Counts :=
  ⟨c.passed + d.passed, c.undefined + d.undefined, c.failed + d.failed⟩

/-- Results, each counted in its own category. -/
def ofResults (rs : List StepResult) : Counts where
  passed := rs.countP (·.isSuccessful)
  undefined := rs.countP (·.isUndefined)
  failed := rs.countP (·.isFailed)

/-- Scenarios, each given by the results of its steps. It counts as failed if one of them is a
failure, as undefined if one is undefined and none a failure, and else as passed. -/
def ofScenarios (scenarios : List (List StepResult)) : Counts where
  passed := scenarios.countP fun rs => !rs.any (·.isFailed) && !rs.any (·.isUndefined)
  undefined := scenarios.countP fun rs => !rs.any (·.isFailed) && rs.any (·.isUndefined)
  failed := scenarios.countP fun rs => rs.any (·.isFailed)

theorem plus_assoc (c d e : Counts) : (c.plus d).plus e = c.plus (d.plus e) := by
  simp only [plus, Nat.add_assoc]

theorem total_plus (c d : Counts) : (c.plus d).total = c.total + d.total := by
  simp only [plus, total]
  omega

theorem ofResults_append (a b : List StepResult) :
    ofResults (a ++ b) = (ofResults a).plus (ofResults b) := by
  simp only [ofResults, plus, List.countP_append]

theorem ofScenarios_append (a b : List (List StepResult)) :
    ofScenarios (a ++ b) = (ofScenarios a).plus (ofScenarios b) := by
  simp only [ofScenarios, plus, List.countP_append]

theorem ofResults_perm {a b : List StepResult} (h : a.Perm b) : ofResults a = ofResults b := by
  simp only [ofResults, h.countP_eq]

theorem record_eq_plus (c : Counts) (r : StepResult) : c.record r = c.plus (ofResults [r]) := by
  cases r <;> rfl

theorem total_ofResults (rs : List StepResult) : (ofResults rs).total = rs.length := by
  induction rs with
  | nil => rfl
  | cons r rest ih =>
    have hone : (ofResults [r]).total = 1 := by cases r <;> rfl
    have hsplit : ofResults (r :: rest) = (ofResults [r]).plus (ofResults rest) :=
      ofResults_append [r] rest
    rw [hsplit, total_plus, hone, ih, List.length_cons]
    omega

theorem total_ofScenarios (scenarios : List (List StepResult)) :
    (ofScenarios scenarios).total = scenarios.length := by
  induction scenarios with
  | nil => rfl
  | cons rs rest ih =>
    have hone : (ofScenarios [rs]).total = 1 := by
      simp only [ofScenarios, total, List.countP_singleton]
      cases rs.any (·.isFailed) <;> cases rs.any (·.isUndefined) <;> rfl
    have hsplit : ofScenarios (rs :: rest) = (ofScenarios [rs]).plus (ofScenarios rest) :=
      ofScenarios_append [rs] rest
    rw [hsplit, total_plus, hone, ih, List.length_cons]
    omega

end Counts

namespace StepResult

/-- The worst result so far is a failure if there has been one, and else it is undefined if there
has been an undefined one. -/
theorem foldl_worsen (w : StepResult) (rs : List StepResult) :
    ∃ w', rs.foldl worsen (some w) = some w' ∧
      w'.isFailed = (w.isFailed || rs.any (·.isFailed)) ∧
      w'.isUndefined = (!w'.isFailed && (w.isUndefined || rs.any (·.isUndefined))) := by
  induction rs generalizing w with
  | nil => exact ⟨w, rfl, by simp, by cases w <;> rfl⟩
  | cons r rest ih =>
    obtain ⟨w₁, hone, hfailed₁, hundefined₁⟩ : ∃ w₁, worsen (some w) r = some w₁ ∧
        w₁.isFailed = (w.isFailed || r.isFailed) ∧
        w₁.isUndefined = (!w₁.isFailed && (w.isUndefined || r.isUndefined)) := by
      cases w <;> cases r <;> exact ⟨_, rfl, rfl, rfl⟩
    obtain ⟨w', hrest, hfailed, hundefined⟩ := ih w₁
    refine ⟨w', ?_, ?_, ?_⟩
    · rw [List.foldl_cons, hone, hrest]
    · rw [hfailed, hfailed₁, List.any_cons, Bool.or_assoc]
    · rw [hundefined, hundefined₁, hfailed, List.any_cons]
      cases w₁.isFailed <;> simp [Bool.or_assoc]

/-- The worst result of a scenario is counted as the scenario is. -/
theorem exists_worst (rs : List StepResult) :
    ∃ w, rs.foldl worsen (some .passed) = some w ∧
      Counts.ofResults [w] = Counts.ofScenarios [rs] := by
  obtain ⟨w, hw, hfailed, hundefined⟩ := foldl_worsen .passed rs
  have hfailed' : w.isFailed = rs.any (·.isFailed) := hfailed
  have hundefined' : w.isUndefined = (!rs.any (·.isFailed) && rs.any (·.isUndefined)) := by
    rw [hundefined, hfailed']
    rfl
  have hpassed : w.isSuccessful = (!rs.any (·.isFailed) && !rs.any (·.isUndefined)) := by
    have hother : w.isSuccessful = (!w.isFailed && !w.isUndefined) := by cases w <;> rfl
    rw [hother, hundefined', hfailed']
    cases rs.any (·.isFailed) <;> rfl
  refine ⟨w, hw, ?_⟩
  simp only [Counts.ofResults, Counts.ofScenarios, List.countP_singleton, hpassed, hundefined',
    hfailed']

end StepResult

namespace Statistics

/-- Statistics to which features and scenarios have been added, the scenarios given by the results
of their steps. Once a scenario has ended there is no worst result to remember. -/
def adding (s : Statistics) (features : Nat) (scenarios : List (List StepResult)) : Statistics where
  features := s.features + features
  scenarios := s.scenarios.plus (.ofScenarios scenarios)
  steps := s.steps.plus (.ofResults scenarios.flatten)
  current := if scenarios = [] then s.current else none

theorem adding_adding (s : Statistics) (m n : Nat) (a b : List (List StepResult)) :
    (s.adding m a).adding n b = s.adding (m + n) (a ++ b) := by
  have hcurrent : (if b = [] then if a = [] then s.current else none else none) =
      if a ++ b = [] then s.current else none := by
    cases a <;> cases b <;> rfl
  simp only [adding, Nat.add_assoc, Counts.plus_assoc, Counts.ofScenarios_append,
    List.flatten_append, Counts.ofResults_append, hcurrent]

variable (library : Library)

theorem after_steps (steps : List Step) (s : Statistics) :
    Listener.after (steps.flatMap library.stepNotices) s =
      { s with
        steps := s.steps.plus (.ofResults (steps.map library.resultOf))
        current := (steps.map library.resultOf).foldl StepResult.worsen s.current } := by
  induction steps generalizing s with
  | nil => rfl
  | cons x rest ih =>
    have hone : Listener.after (library.stepNotices x) s =
        { s with
          steps := s.steps.record (library.resultOf x)
          current := StepResult.worsen s.current (library.resultOf x) } := rfl
    have hsplit : Counts.ofResults ((x :: rest).map library.resultOf) =
        (Counts.ofResults [library.resultOf x]).plus (.ofResults (rest.map library.resultOf)) :=
      Counts.ofResults_append [library.resultOf x] (rest.map library.resultOf)
    rw [List.flatMap_cons, Listener.after_append, hone, ih, hsplit, ← Counts.plus_assoc,
      ← Counts.record_eq_plus]
    rfl

theorem after_scenario (sc : Scenario) (s : Statistics) :
    Listener.after (library.scenarioNotices sc) s =
      s.adding 0 [sc.steps.map library.resultOf] := by
  have hstart : (Listener.notice (.beforeScenario sc) s).state =
      { s with current := some .passed } := rfl
  obtain ⟨w, hworst, hcounted⟩ := StepResult.exists_worst (sc.steps.map library.resultOf)
  rw [Library.scenarioNotices, List.cons_append, Listener.after_cons, Listener.after_append, hstart,
    after_steps]
  simp only [hworst, adding, ← hcounted, ← Counts.record_eq_plus, List.flatten_cons,
    List.flatten_nil, List.append_nil]
  rfl

/-- What each of some items adds, they add together. -/
theorem after_flatMap {α : Type} (notices : α → List Notice) (features : Nat)
    (scenarios : α → List (List StepResult))
    (h : ∀ a (s : Statistics), Listener.after (notices a) s = s.adding features (scenarios a))
    (xs : List α) (s : Statistics) :
    Listener.after (xs.flatMap notices) s =
      s.adding (features * xs.length) (xs.flatMap scenarios) := by
  induction xs generalizing s with
  | nil => rfl
  | cons a rest ih =>
    have hfeatures : features + features * rest.length = features * (a :: rest).length := by
      rw [List.length_cons, Nat.mul_succ, Nat.add_comm]
    rw [List.flatMap_cons, Listener.after_append, h, ih, adding_adding, hfeatures,
      List.flatMap_cons]

theorem after_feature (f : Feature) (s : Statistics) :
    Listener.after (library.featureNotices f) s =
      s.adding 1 (f.scenarios.map fun sc => sc.steps.map library.resultOf) := by
  have hstart : (Listener.notice (.beforeFeature f) s).state = s := rfl
  have hscenarios := after_flatMap library.scenarioNotices 0
    (fun sc => [sc.steps.map library.resultOf]) (after_scenario library) f.scenarios s
  rw [Nat.zero_mul, ← List.map_eq_flatMap] at hscenarios
  rw [Library.featureNotices, List.cons_append, Listener.after_cons, Listener.after_append, hstart,
    hscenarios]
  rfl

end Statistics

namespace Library

variable (library : Library)

/-- The results of the steps of every scenario of a tree. -/
def scenarioResults (all : List Feature) : List (List StepResult) :=
  (all.flatMap Feature.scenarios).map fun sc => sc.steps.map library.resultOf

theorem flatten_scenarioResults (all : List Feature) :
    (library.scenarioResults all).flatten =
      (Node.features all).steps.map library.resultOf := by
  rw [scenarioResults, ← List.flatMap_def, ← List.map_flatMap, List.flatMap_assoc]
  rfl

theorem after_notices (all : List Feature) (s : Statistics) :
    Listener.after (library.notices all) s = s.adding all.length (library.scenarioResults all) := by
  have hstart : (Listener.notice .beforeFeatures s).state = s := rfl
  have hfeatures := Statistics.after_flatMap library.featureNotices 1
    (fun f => f.scenarios.map fun sc => sc.steps.map library.resultOf)
    (Statistics.after_feature library) all s
  rw [Nat.one_mul, ← List.map_flatMap] at hfeatures
  rw [notices, List.cons_append, Listener.after_cons, Listener.after_append, hstart, hfeatures]
  rfl

end Library

/-- Each counter can be raised by `n` and still be held by 64 bits. -/
def Counts.HasRoom (c : Counts) (n : Nat) : Prop :=
  c.passed + n < Overflow.counterLimit ∧ c.undefined + n < Overflow.counterLimit ∧
    c.failed + n < Overflow.counterLimit

instance (c : Counts) (n : Nat) : Decidable (c.HasRoom n) :=
  inferInstanceAs (Decidable (_ ∧ _ ∧ _))

theorem Counts.HasRoom.plus {c d : Counts} {n : Nat} (h : c.HasRoom n) (hd : d.total ≤ n) :
    (c.plus d).HasRoom 0 := by
  simp only [total] at hd
  simp only [HasRoom, Counts.plus] at h ⊢
  omega

theorem Counts.hasRoom_of_record (c : Counts) (r : StepResult) (h : (c.record r).HasRoom 0) :
    c.HasRoom 0 := by
  cases r <;> simp only [HasRoom, record] at h ⊢ <;> omega

namespace Statistics

/-- There is room for the nodes of a tree with so many features, scenarios and steps. -/
def HasRoom (s : Statistics) (features scenarios steps : Nat) : Prop :=
  s.features + features < Overflow.counterLimit ∧ s.scenarios.HasRoom scenarios ∧
    s.steps.HasRoom steps

instance (s : Statistics) (features scenarios steps : Nat) :
    Decidable (s.HasRoom features scenarios steps) :=
  inferInstanceAs (Decidable (_ ∧ _ ∧ _))

/-- Every counter is a number that 64 bits hold. -/
def Fits (s : Statistics) : Prop := s.HasRoom 0 0 0

theorem fits_of_notice (n : Notice) (s : Statistics) (h : (Listener.notice n s).state.Fits) :
    s.Fits := by
  have htake : (take n s).Fits := h
  obtain ⟨hfeatures, hscenarios, hsteps⟩ := htake
  cases n with
  | afterFeature f =>
    refine ⟨?_, hscenarios, hsteps⟩
    simp only [take] at hfeatures
    omega
  | afterScenario sc =>
    cases hc : s.current with
    | none =>
      simp only [take, hc] at hfeatures hscenarios hsteps
      exact ⟨hfeatures, hscenarios, hsteps⟩
    | some r =>
      simp only [take, hc] at hfeatures hscenarios hsteps
      exact ⟨hfeatures, s.scenarios.hasRoom_of_record r hscenarios, hsteps⟩
  | stepResult r => exact ⟨hfeatures, hscenarios, s.steps.hasRoom_of_record r hsteps⟩
  | _ => exact ⟨hfeatures, hscenarios, hsteps⟩

/-- Counters never go down, so if they fit in the end, they have fitted all the time. -/
theorem fits_of_after (ns : List Notice) (s : Statistics) (h : (Listener.after ns s).Fits) :
    s.Fits := by
  induction ns generalizing s with
  | nil => exact h
  | cons n rest ih => exact fits_of_notice n s (ih _ h)

theorem fits_adding (s : Statistics) (features : Nat) (scenarios : List (List StepResult))
    (h : s.HasRoom features scenarios.length scenarios.flatten.length) :
    (s.adding features scenarios).Fits := by
  obtain ⟨hfeatures, hscenarios, hsteps⟩ := h
  exact ⟨hfeatures, hscenarios.plus (Nat.le_of_eq (Counts.total_ofScenarios scenarios)),
    hsteps.plus (Nat.le_of_eq (Counts.total_ofResults scenarios.flatten))⟩

/-- All that statistics show; the worst result of the scenario being walked is not shown. -/
def counters (s : Statistics) : Nat × Counts × Counts := (s.features, s.scenarios, s.steps)

end Statistics

/-- The items of the one list in another order, each replaced by one that it is related to. -/
def Reordered {α : Type} (R : α → α → Prop) (xs ys : List α) : Prop :=
  ∃ zs, xs.Perm zs ∧ List.Forall₂ R zs ys

def Scenario.Reordered (a b : Scenario) : Prop :=
  a.keyword = b.keyword ∧ a.name = b.name ∧ a.steps.Perm b.steps

def Feature.Reordered (a b : Feature) : Prop :=
  a.keyword = b.keyword ∧ a.name = b.name ∧ a.description = b.description ∧
    FeatureRun.Reordered Scenario.Reordered a.scenarios b.scenarios

namespace Reordered

variable {α β : Type} {R : α → α → Prop} {S : β → β → Prop} {xs ys : List α}

theorem append {xs' ys' : List α} (h : Reordered R xs ys) (h' : Reordered R xs' ys') :
    Reordered R (xs ++ xs') (ys ++ ys') := by
  obtain ⟨zs, hperm, hrel⟩ := h
  obtain ⟨zs', hperm', hrel'⟩ := h'
  exact ⟨zs ++ zs', hperm.append hperm', List.rel_append hrel hrel'⟩

theorem flatMap (f : α → List β) (hf : ∀ a b, R a b → Reordered S (f a) (f b))
    (h : Reordered R xs ys) : Reordered S (xs.flatMap f) (ys.flatMap f) := by
  obtain ⟨zs, hperm, hrel⟩ := h
  have hitems : Reordered S (zs.flatMap f) (ys.flatMap f) := by
    induction hrel generalizing xs with
    | nil => exact ⟨[], List.Perm.refl _, List.Forall₂.nil⟩
    | cons hab _ ih => exact (hf _ _ hab).append (ih (List.Perm.refl _))
  obtain ⟨ws, hperm', hrel'⟩ := hitems
  exact ⟨ws, (hperm.flatMap_right f).trans hperm', hrel'⟩

theorem map (f : α → β) (hf : ∀ a b, R a b → S (f a) (f b)) (h : Reordered R xs ys) :
    Reordered S (xs.map f) (ys.map f) := by
  rw [List.map_eq_flatMap, List.map_eq_flatMap]
  apply h.flatMap
  intro a b hab
  exact ⟨[f a], List.Perm.refl _, List.Forall₂.cons (hf a b hab) List.Forall₂.nil⟩

theorem length_eq (h : Reordered R xs ys) : xs.length = ys.length := by
  obtain ⟨zs, hperm, hrel⟩ := h
  exact hperm.length_eq.trans hrel.length_eq

theorem flatten_perm {xs ys : List (List β)} (h : Reordered List.Perm xs ys) :
    xs.flatten.Perm ys.flatten := by
  obtain ⟨zs, hperm, hrel⟩ := h
  exact hperm.flatten.trans (List.Perm.flatten_congr hrel)

theorem countP_eq (p : α → Bool) (hp : ∀ a b, R a b → p a = p b) (h : Reordered R xs ys) :
    xs.countP p = ys.countP p := by
  obtain ⟨zs, hperm, hrel⟩ := h
  rw [hperm.countP_eq]
  clear hperm
  induction hrel with
  | nil => rfl
  | cons hab _ ih => rw [List.countP_cons, List.countP_cons, ih, hp _ _ hab]

end Reordered

theorem Counts.ofScenarios_reordered {a b : List (List StepResult)}
    (h : Reordered List.Perm a b) : ofScenarios a = ofScenarios b := by
  have hany {p : StepResult → Bool} (rs rs' : List StepResult) (hperm : rs.Perm rs') :
      rs.any p = rs'.any p := hperm.any_eq
  have hcount (p : List StepResult → Bool) (hp : ∀ rs rs', rs.Perm rs' → p rs = p rs') :
      a.countP p = b.countP p := Reordered.countP_eq (R := List.Perm) p hp h
  simp only [ofScenarios]
  rw [hcount _ fun rs rs' hperm => by rw [hany rs rs' hperm, hany rs rs' hperm],
    hcount _ fun rs rs' hperm => by rw [hany rs rs' hperm, hany rs rs' hperm],
    hcount _ fun rs rs' hperm => hany rs rs' hperm]

theorem Library.scenarioResults_reordered (library : Library) {all all' : List Feature}
    (h : Reordered Feature.Reordered all all') :
    Reordered List.Perm (library.scenarioResults all) (library.scenarioResults all') := by
  have hscenarios : Reordered Scenario.Reordered (all.flatMap Feature.scenarios)
      (all'.flatMap Feature.scenarios) :=
    h.flatMap Feature.scenarios fun a b hab => hab.2.2.2
  exact hscenarios.map _ fun a b hab => hab.2.2.map library.resultOf

/-- What a complete walk adds to the counters of statistics, whatever they have counted before. The
same is added by walks of the two halves of a tree, and by a walk of the tree in another order. -/
theorem walk_adds_to_statistics (library : Library) (h : library.Settles) (all : List Feature)
    (s : Statistics)
    (hroom : s.HasRoom all.length (all.flatMap Feature.scenarios).length
      (Node.features all).steps.length) :
    ∃ t : Statistics, (∀ t', library.Leaves all s t' ↔ t' = t) ∧
      t.features = s.features + all.length ∧
      t.steps = s.steps.plus (.ofResults ((Node.features all).steps.map library.resultOf)) ∧
      t.scenarios = s.scenarios.plus (.ofScenarios (library.scenarioResults all)) ∧
      t.scenarios.total = s.scenarios.total + (all.flatMap Feature.scenarios).length ∧
      t.steps.total = s.steps.total + (Node.features all).steps.length ∧
      (∀ p, p <+: (Node.features all).listing library.results →
        (Listener.hearAll p s).state.Fits) ∧
      (∀ first second t₁ t₂, all = first ++ second → library.Leaves first s t₁ →
        library.Leaves second t₁ t₂ → t₂.counters = t.counters) ∧
      ∀ all' t', Reordered Feature.Reordered all all' → library.Leaves all' s t' →
        t'.counters = t.counters := by
  have hleaves (all : List Feature) (s t : Statistics) :
      library.Leaves all s t ↔ t = s.adding all.length (library.scenarioResults all) := by
    rw [library.leaves_iff h, library.after_notices]
  have hsteps := library.flatten_scenarioResults all
  have hscenarios : (library.scenarioResults all).length = (all.flatMap Feature.scenarios).length :=
    List.length_map _
  have hresults : (library.scenarioResults all).flatten.length =
      (Node.features all).steps.length := by
    rw [hsteps, List.length_map]
  refine ⟨s.adding all.length (library.scenarioResults all), hleaves all s, rfl, ?_, rfl, ?_, ?_,
    fun p hp => ?_, ?_, ?_⟩
  · simp only [Statistics.adding, hsteps]
  · simp only [Statistics.adding, Counts.total_plus, Counts.total_ofScenarios, hscenarios]
  · simp only [Statistics.adding, Counts.total_plus, Counts.total_ofResults, hresults]
  · obtain ⟨rest, hrest⟩ := hp
    have hall : Listener.after (rest.filterMap Message.notice?) (Listener.hearAll p s).state =
        s.adding all.length (library.scenarioResults all) := by
      rw [(Listener.hearAll_of_steady p s).2, ← Listener.after_append, ← List.filterMap_append,
        hrest, library.filterMap_notice?_listing, library.after_notices]
    apply Statistics.fits_of_after (rest.filterMap Message.notice?)
    rw [hall]
    apply Statistics.fits_adding
    rwa [hscenarios, hresults]
  · rintro first second t₁ t₂ rfl h₁ h₂
    rw [hleaves] at h₁ h₂
    rw [h₂, h₁, Statistics.adding_adding, List.length_append]
    simp only [Library.scenarioResults, List.flatMap_append, List.map_append]
  · intro all' t' hreordered ht'
    have hsame := library.scenarioResults_reordered hreordered
    rw [hleaves] at ht'
    rw [ht']
    simp only [Statistics.counters, Statistics.adding, ← hreordered.length_eq,
      ← Counts.ofScenarios_reordered hsame, ← Counts.ofResults_perm hsame.flatten_perm]

/-- Counters close to their limit, and a failure remembered from some other scenario. -/
theorem variedFeatures_tally :
    let s : Statistics :=
      { features := Overflow.counterLimit - 4, scenarios := ⟨2, Overflow.counterLimit - 5, 0⟩
        steps := ⟨0, 0, Overflow.counterLimit - 8⟩, current := some (.failed (.failed "before")) }
    obedientLibrary.Settles ∧
      s.HasRoom variedFeatures.length (variedFeatures.flatMap Feature.scenarios).length
        (Node.features variedFeatures).steps.length ∧
      ∃ t, obedientLibrary.Leaves variedFeatures s t ∧
        t.features = Overflow.counterLimit - 1 ∧ t.scenarios = ⟨4, Overflow.counterLimit - 4, 1⟩ ∧
        t.steps = ⟨3, 2, Overflow.counterLimit - 6⟩ ∧
        ∀ t', obedientLibrary.Leaves variedFeatures.reverse s t' → t'.counters = t.counters := by
  intro s
  have hroom : s.HasRoom variedFeatures.length (variedFeatures.flatMap Feature.scenarios).length
      (Node.features variedFeatures).steps.length := by decide
  obtain ⟨t, hleaves, hfeatures, hsteps, hscenarios, _, _, _, _, hreordered⟩ :=
    walk_adds_to_statistics obedientLibrary obedientLibrary_settles variedFeatures s hroom
  have hreverse : Reordered Feature.Reordered variedFeatures variedFeatures.reverse := by
    refine ⟨variedFeatures.reverse, variedFeatures.reverse_perm.symm, ?_⟩
    apply List.forall₂_same.mpr
    intro f _
    refine ⟨rfl, rfl, rfl, f.scenarios, List.Perm.refl _, List.forall₂_same.mpr fun sc _ => ?_⟩
    exact ⟨rfl, rfl, List.Perm.refl _⟩
  exact ⟨obedientLibrary_settles, hroom, t, (hleaves t).mpr rfl, hfeatures,
    hscenarios.trans (by decide), hsteps.trans (by decide),
    fun t' ht' => hreordered variedFeatures.reverse t' hreverse ht'⟩

end FeatureRun
