import FeatureRun.Proofs.Audience

namespace FeatureRun

universe u v

/-- The scenario that a notice tells the beginning of. -/
def Notice.opens? : Notice → Option Scenario
  | .beforeScenario s => some s
  | _ => none

/-- The scenario that a message announces the beginning of. -/
def Message.opens? : Message → Option Scenario
  | ⟨.before, .scenario s⟩ => some s
  | _ => none

theorem Message.opens?_eq (m : Message) : m.opens? = m.notice?.bind Notice.opens? := by
  rcases m with ⟨_ | _ | _, _ | _ | _ | _ | _⟩ <;> rfl

def Emission.hookCall? : Emission → Option (Nat × Scenario)
  | .hookCalled number s => some (number, s)
  | _ => none

/-- A listener with a number of hooks, and the same without any. -/
class Hooked (σ : Type u) where
  hooks : σ → Nat
  unhooked : σ → σ

instance : Hooked ProgressLog := ⟨ProgressLog.hooks, fun p => { p with hooks := 0 }⟩

instance : Hooked OutlineLog := ⟨OutlineLog.hooks, fun p => { p with hooks := 0 }⟩

instance {σ : Type u} {τ : Type v} [Hooked σ] [Hooked τ] : Hooked (σ ⊕ τ) where
  hooks := Sum.elim Hooked.hooks Hooked.hooks
  unhooked := Sum.map Hooked.unhooked Hooked.unhooked

open Hooked (hooks unhooked)

/-- Calling every hook for each of some scenarios, in the order of registration. -/
def hookCallsFor (hooks : Nat) (scenarios : List Scenario) : List (Nat × Scenario) :=
  scenarios.flatMap fun s => (List.range hooks).map (·, s)

/-- What a listener does calls its hooks for the given scenarios, and is otherwise the same with and
without them. -/
structure CallsHooks {σ : Type u} [Hooked σ] (scenarios : List Scenario)
    (act : σ → Effect Emission σ) : Prop where
  calm : ∀ s, (act s).panic = none
  calls : ∀ s, (act s).log.filterMap Emission.hookCall? = hookCallsFor (hooks s) scenarios
  hooks_state : ∀ s, hooks (act s).state = hooks s
  state_unhooked : ∀ s, (act (unhooked s)).state = unhooked (act s).state

namespace CallsHooks

variable {σ : Type u} [Hooked σ] {scenarios scenarios' : List Scenario}
  {act act' : σ → Effect Emission σ}

theorem quiet : CallsHooks [] (Effect.quiet : σ → Effect Emission σ) where
  calm _ := rfl
  calls _ := rfl
  hooks_state _ := rfl
  state_unhooked _ := rfl

theorem andThen (h : CallsHooks scenarios act) (h' : CallsHooks scenarios' act') :
    CallsHooks (scenarios ++ scenarios') fun s => (act s).andThen act' := by
  have hboth (s : σ) := Effect.andThen_of_no_panic (act s) act' (h.calm s)
  refine ⟨fun s => ?_, fun s => ?_, fun s => ?_, fun s => ?_⟩
  · rw [hboth]
    exact h'.calm _
  · rw [hboth, List.filterMap_append, h.calls, h'.calls, h.hooks_state, hookCallsFor, hookCallsFor,
      hookCallsFor, List.flatMap_append]
  · rw [hboth]
    exact (h'.hooks_state _).trans (h.hooks_state s)
  · rw [hboth, hboth, h.state_unhooked]
    exact h'.state_unhooked _

/-- A listener of one of two kinds. -/
theorem sum {τ : Type v} [Hooked τ] {other : τ → Effect Emission τ}
    (h : CallsHooks scenarios act) (h' : CallsHooks scenarios other) :
    CallsHooks scenarios (Sum.elim (fun s => (act s).map .inl) fun t => (other t).map .inr :
      σ ⊕ τ → Effect Emission (σ ⊕ τ)) := by
  refine ⟨fun l => ?_, fun l => ?_, fun l => ?_, fun l => ?_⟩ <;> rcases l with s | t
  · exact h.calm s
  · exact h'.calm t
  · exact h.calls s
  · exact h'.calls t
  · exact h.hooks_state s
  · exact h'.hooks_state t
  · exact congrArg Sum.inl (h.state_unhooked s)
  · exact congrArg Sum.inr (h'.state_unhooked t)

end CallsHooks

theorem filterMap_hookCalls (hooks : Nat) (s : Scenario) :
    (hookCalls hooks s).filterMap Emission.hookCall? = hookCallsFor hooks [s] := by
  rw [hookCalls, List.filterMap_map, hookCallsFor, List.flatMap_singleton]
  exact congrFun List.filterMap_eq_map (List.range hooks)

namespace ProgressLog

theorem callsHooks_log (chunk : String) : CallsHooks [] (log chunk) := by
  refine ⟨fun _ => rfl, fun p => ?_, fun _ => rfl, fun _ => rfl⟩
  rcases p with ⟨_, _ | _, _, _, _, _⟩ <;> rfl

theorem callsHooks_logAll (chunks : List String) : CallsHooks [] (logAll chunks) := by
  induction chunks with
  | nil => exact .quiet
  | cons chunk rest ih => exact (callsHooks_log chunk).andThen ih

/-- The chunks of a summary are the same with hooks and without. -/
theorem callsHooks_logSummary : CallsHooks [] logSummary := by
  rw [funext logSummary_eq]
  exact ⟨fun p => (callsHooks_logAll p.summary).calm p,
    fun p => (callsHooks_logAll p.summary).calls p,
    fun p => (callsHooks_logAll p.summary).hooks_state p,
    fun p => (callsHooks_logAll p.summary).state_unhooked p⟩

theorem callsHooks_notice (n : Notice) :
    CallsHooks n.opens?.toList (Listener.notice n : ProgressLog → Effect Emission ProgressLog) := by
  cases n with
  | afterFeatures => exact callsHooks_logSummary
  | beforeScenario s =>
    exact ⟨fun _ => rfl, fun p => filterMap_hookCalls p.hooks s, fun _ => rfl, fun _ => rfl⟩
  | stepResult r =>
    have hcount : CallsHooks [] fun p : ProgressLog =>
        (p.count (.stepResult r)).log r.character :=
      ⟨fun _ => rfl, fun p => (callsHooks_log _).calls _, fun _ => rfl, fun _ => rfl⟩
    have hremember : CallsHooks [] fun p : ProgressLog => Effect.quiet (p.remember r) := by
      cases r <;> exact ⟨fun _ => rfl, fun _ => rfl, fun _ => rfl, fun _ => rfl⟩
    exact hcount.andThen hremember
  | _ => exact ⟨fun _ => rfl, fun _ => rfl, fun _ => rfl, fun _ => rfl⟩

end ProgressLog

namespace OutlineLog

theorem callsHooks_logEntries (es : List OutlineEntry) : CallsHooks [] (logEntries es) := by
  have hone (e : OutlineEntry) : CallsHooks [] (logEntry e) := by
    refine ⟨fun _ => rfl, fun p => ?_, fun _ => rfl, fun _ => rfl⟩
    rcases p with ⟨_, _, _, _ | _, _ | _, _⟩ <;> rfl
  induction es with
  | nil => exact .quiet
  | cons e rest ih => exact (hone e).andThen ih

theorem callsHooks_notice (n : Notice) :
    CallsHooks n.opens?.toList (Listener.notice n : OutlineLog → Effect Emission OutlineLog) := by
  cases n with
  | beforeFeature f => exact callsHooks_logEntries _
  | beforeScenario s =>
    have hhooks : CallsHooks [s] fun p : OutlineLog => Effect.emit p (hookCalls p.hooks s) :=
      ⟨fun _ => rfl, fun p => filterMap_hookCalls p.hooks s, fun _ => rfl, fun _ => rfl⟩
    exact hhooks.andThen (callsHooks_logEntries _)
  | stepResult r =>
    have hentries (s : Step) := callsHooks_logEntries (OutlineEntry.ofStep s r)
    refine ⟨fun p => ?_, fun p => ?_, fun p => ?_, fun p => ?_⟩ <;>
      rcases p with ⟨logs, failed, _ | s, terminal, forwarded, hooks⟩
    · rfl
    · exact (hentries s).calm _
    · rfl
    · exact (hentries s).calls _
    · rfl
    · exact (hentries s).hooks_state _
    · rfl
    · exact (hentries s).state_unhooked
        ⟨logs, failed || !r.isSuccessful, none, terminal, forwarded, hooks⟩
  | _ => exact ⟨fun _ => rfl, fun _ => rfl, fun _ => rfl, fun _ => rfl⟩

end OutlineLog

/-- A listener that logs in either way. -/
abbrev HookedLog := ProgressLog ⊕ OutlineLog

namespace HookedLog

theorem callsHooks_notice (n : Notice) :
    CallsHooks n.opens?.toList (Listener.notice n : HookedLog → Effect Emission HookedLog) := by
  have hboth := (ProgressLog.callsHooks_notice n).sum (OutlineLog.callsHooks_notice n)
  have heither : (Listener.notice n : HookedLog → Effect Emission HookedLog) =
      Sum.elim (fun p => (Listener.notice n p).map .inl) fun p => (Listener.notice n p).map .inr :=
    funext fun l => by cases l <;> rfl
  rw [heither]
  exact hboth

theorem callsHooks_hear (m : Message) :
    CallsHooks m.opens?.toList (Listener.hear m : HookedLog → Effect Emission HookedLog) := by
  have hhear (l : HookedLog) := Listener.Steady.hear_eq m l
  rw [funext hhear, m.opens?_eq]
  cases m.notice? with
  | none => exact .quiet
  | some n => exact callsHooks_notice n

theorem callsHooks_hearAll (ms : List Message) :
    CallsHooks (ms.filterMap Message.opens?)
      (Listener.hearAll ms : HookedLog → Effect Emission HookedLog) := by
  induction ms with
  | nil => exact .quiet
  | cons m rest ih =>
    have hopened : (m :: rest).filterMap Message.opens? =
        m.opens?.toList ++ rest.filterMap Message.opens? := by
      cases h : m.opens? <;> simp [h]
    rw [hopened]
    exact (callsHooks_hear m).andThen ih

end HookedLog

end FeatureRun
