import Mathlib.Data.List.Basic
import FeatureRun.Proofs.Hearing

/-!
The script of a walk: what it does, in order, before anybody listens. Playing a script to listeners
adds what they make of the messages, and ends where the first of them panics.
-/

namespace FeatureRun

universe u

inductive Cue
  | unmatched (s : Step)
  | invoke (d : StepDefinition) (s : Step)
  | failure (e : StepError)
  | dropped
  | announce (m : Message)

namespace Cue

def message? : Cue → Option Message
  | .announce m => some m
  | _ => none

def call? : Cue → Option (StepDefinition × List String)
  | .invoke d s => some (d, d.arguments s.name s.docString)
  | _ => none

/-- What happens at a cue, but for the hearing of its message. -/
def log : Cue → List Occurrence
  | .unmatched s => [.traced (.unmatched s.name s.line)]
  | .invoke d s => d.invokingLog s.name s.docString
  | .failure e => [.traced (.stepFailed e)]
  | .dropped => [.traced .completionDropped]
  | .announce m => [.traced (.broadcasting m)]

def messages (cues : List Cue) : List Message := cues.filterMap message?

def calls (cues : List Cue) : List (StepDefinition × List String) := cues.filterMap call?

theorem messages_cons (c : Cue) (rest : List Cue) :
    messages (c :: rest) = c.message?.toList ++ messages rest := by
  cases h : c.message? <;> simp [messages, h]

theorem calls_cons (c : Cue) (rest : List Cue) :
    calls (c :: rest) = c.call?.toList ++ calls rest := by
  cases h : c.call? <;> simp [calls, h]

@[simp] theorem messages_append (a b : List Cue) : messages (a ++ b) = messages a ++ messages b :=
  List.filterMap_append

@[simp] theorem calls_append (a b : List Cue) : calls (a ++ b) = calls a ++ calls b :=
  List.filterMap_append

/-- The result of a step, an error being reported before it is announced. -/
def ofResult (r : StepResult) : List Cue := (r.error?.map failure).toList ++ [.announce (.result r)]

@[simp] theorem messages_ofResult (r : StepResult) : messages (ofResult r) = [.result r] := by
  cases r <;> rfl

@[simp] theorem calls_ofResult (r : StepResult) : calls (ofResult r) = [] := by
  cases r <;> rfl

theorem messages_log (c : Cue) : Occurrence.messages c.log = c.message?.toList := by
  cases c <;> rfl

theorem calls_log (c : Cue) : Occurrence.calls c.log = c.call?.toList := by
  cases c <;> rfl

theorem heardBy_log (k : Nat) (c : Cue) : Occurrence.heardBy k c.log = [] := by
  cases c <;> rfl

variable {L : Type u} [Listener L]

def perform : Cue → List L → Effect Occurrence (List L)
  | .announce m, ls => broadcast m ls
  | c, ls => .emit ls c.log

theorem eq_announce (c : Cue) (m : Message) (h : c.message? = some m) : c = .announce m := by
  cases c with
  | announce m' => exact congrArg announce (Option.some.inj h)
  | _ => exact absurd h (by simp [message?])

/-- A script is cut where it announces a message. -/
theorem exists_announce (cues : List Cue) (j : Nat) (m : Message)
    (h : (messages cues)[j]? = some m) :
    ∃ before after, cues = before ++ .announce m :: after ∧
      messages before = (messages cues).take j := by
  induction cues generalizing j with
  | nil => exact absurd h (by simp [messages])
  | cons c rest ih =>
    rw [messages_cons] at h ⊢
    cases hc : c.message? with
    | none =>
      rw [hc] at h
      obtain ⟨before, after, rfl, hbefore⟩ := ih j h
      refine ⟨c :: before, after, rfl, ?_⟩
      rw [messages_cons, hc, hbefore]
      rfl
    | some m' =>
      rw [hc] at h
      cases j with
      | zero =>
        obtain rfl : m' = m := Option.some.inj h
        exact ⟨[], rest, by rw [eq_announce c m' hc]; rfl, rfl⟩
      | succ j =>
        obtain ⟨before, after, rfl, hbefore⟩ := ih j h
        refine ⟨c :: before, after, rfl, ?_⟩
        rw [messages_cons, hc, hbefore]
        rfl

/-- A cue without a message only shows in the log. -/
theorem perform_of_silent (c : Cue) (ls : List L) (h : c.message? = none) :
    c.perform ls = .emit ls c.log := by
  cases c with
  | announce m => exact absurd h (by simp [message?])
  | _ => rfl

theorem filterMap_perform {β : Type} (f : Occurrence → Option β)
    (hf : ∀ m (ls : List L), (tell m 0 ls).log.filterMap f = []) (c : Cue) (ls : List L) :
    (c.perform ls).log.filterMap f = c.log.filterMap f := by
  cases c with
  | announce m =>
    simp only [perform, broadcast, log, List.filterMap_cons, hf, List.filterMap_nil]
  | _ => rfl

end Cue

variable {L : Type u} [Listener L]

def play : List Cue → List L → Effect Occurrence (List L)
  | [], ls => .quiet ls
  | c :: rest, ls => (c.perform ls).andThen (play rest)

@[simp] theorem play_nil (ls : List L) : play [] ls = .quiet ls := rfl

theorem play_append (a b : List Cue) (ls : List L) :
    play (a ++ b) ls = (play a ls).andThen (play b) := by
  induction a generalizing ls with
  | nil => rw [List.nil_append, play_nil, Effect.quiet_andThen]
  | cons c rest ih =>
    have hrest : play (rest ++ b) = fun ls : List L => (play rest ls).andThen (play b) :=
      funext ih
    rw [List.cons_append, play, play, hrest, Effect.andThen_assoc]

theorem play_append_of_no_panic (a b : List Cue) (ls : List L) (h : (play a ls).panic = none) :
    play (a ++ b) ls = ⟨(play b (play a ls).state).state,
      (play a ls).log ++ (play b (play a ls).state).log, (play b (play a ls).state).panic⟩ := by
  rw [play_append, Effect.andThen_of_no_panic _ _ h]

theorem play_append_of_panic (a b : List Cue) (ls : List L) (p : String)
    (h : (play a ls).panic = some p) : play (a ++ b) ls = play a ls := by
  rw [play_append, Effect.andThen_of_panic _ _ p h]

/-- Whatever listeners do, a script shows in the log as far as it is played. -/
theorem filterMap_play {β : Type} (f : Occurrence → Option β)
    (hf : ∀ m (ls : List L), (tell m 0 ls).log.filterMap f = []) (cues : List Cue) (ls : List L) :
    (play cues ls).log.filterMap f <+: cues.flatMap (fun c => c.log.filterMap f) ∧
      ((play cues ls).panic = none →
        (play cues ls).log.filterMap f = cues.flatMap (fun c => c.log.filterMap f)) := by
  induction cues generalizing ls with
  | nil => exact ⟨List.nil_prefix, fun _ => rfl⟩
  | cons c rest ih =>
    have hc := Cue.filterMap_perform f hf c ls
    rw [play, List.flatMap_cons, ← hc]
    cases hp : (c.perform ls).panic with
    | some p =>
      rw [Effect.andThen_of_panic _ _ p hp]
      refine ⟨List.prefix_append _ _, fun h => ?_⟩
      exact absurd (hp.symm.trans h) (by simp)
    | none =>
      obtain ⟨hpre, heq⟩ := ih (c.perform ls).state
      rw [Effect.andThen_of_no_panic _ _ hp]
      simp only [List.filterMap_append]
      exact ⟨(List.prefix_append_right_inj _).mpr hpre, fun h => by rw [heq h]⟩

theorem flatMap_messages_log (cues : List Cue) :
    cues.flatMap (fun c => c.log.filterMap Occurrence.message?) = Cue.messages cues := by
  rw [Cue.messages, List.filterMap_eq_flatMap_toList]
  exact congrArg cues.flatMap (funext Cue.messages_log)

theorem flatMap_calls_log (cues : List Cue) :
    cues.flatMap (fun c => c.log.filterMap Occurrence.call?) = Cue.calls cues := by
  rw [Cue.calls, List.filterMap_eq_flatMap_toList]
  exact congrArg cues.flatMap (funext Cue.calls_log)

theorem messages_play (cues : List Cue) (ls : List L) (h : (play cues ls).panic = none) :
    Occurrence.messages (play cues ls).log = Cue.messages cues := by
  have hlog := (filterMap_play Occurrence.message? (fun m ls => messages_tell m 0 ls) cues ls).2 h
  rwa [flatMap_messages_log] at hlog

theorem calls_play (cues : List Cue) (ls : List L) (h : (play cues ls).panic = none) :
    Occurrence.calls (play cues ls).log = Cue.calls cues := by
  have hlog := (filterMap_play Occurrence.call? (fun m ls => calls_tell m 0 ls) cues ls).2 h
  rwa [flatMap_calls_log] at hlog

/-- A cue without a message leaves the listeners alone. -/
theorem play_silent (c : Cue) (rest : List Cue) (ls : List L) (h : c.message? = none) :
    play (c :: rest) ls =
      ⟨(play rest ls).state, c.log ++ (play rest ls).log, (play rest ls).panic⟩ := by
  rw [play, Cue.perform_of_silent c ls h, Effect.andThen_of_no_panic _ _ rfl]
  rfl

theorem play_announce_of_no_panic (m : Message) (rest : List Cue) (ls : List L)
    (h : (tell m 0 ls).panic = none) :
    play (.announce m :: rest) ls =
      ⟨(play rest (tell m 0 ls).state).state,
        .traced (.broadcasting m) :: (tell m 0 ls).log ++ (play rest (tell m 0 ls).state).log,
        (play rest (tell m 0 ls).state).panic⟩ :=
  Effect.andThen_of_no_panic (Cue.perform (.announce m) ls) (play rest) h

theorem play_announce_of_panic (m : Message) (rest : List Cue) (ls : List L) (p : String)
    (h : (tell m 0 ls).panic = some p) :
    play (.announce m :: rest) ls = broadcast m ls :=
  Effect.andThen_of_panic (Cue.perform (.announce m) ls) (play rest) p h

/-- Listeners that bear the messages of a script hear them all, each as if it were alone. -/
theorem play_of_no_panic (cues : List Cue) (ls : List L)
    (h : ∀ l ∈ ls, (Listener.hearAll (Cue.messages cues) l).panic = none) :
    (play cues ls).state = ls.map (fun l => (Listener.hearAll (Cue.messages cues) l).state) ∧
      (play cues ls).panic = none ∧
      ∀ k < ls.length, Occurrence.heardBy k (play cues ls).log = Cue.messages cues := by
  induction cues generalizing ls with
  | nil =>
    refine ⟨?_, rfl, fun _ _ => rfl⟩
    exact (List.map_id ls).symm
  | cons c rest ih =>
    cases hm : c.message? with
    | none =>
      have hcues : Cue.messages (c :: rest) = Cue.messages rest := by simp [Cue.messages, hm]
      rw [hcues] at h ⊢
      obtain ⟨hstate, hpanic, hheard⟩ := ih ls h
      rw [play_silent c rest ls hm]
      refine ⟨hstate, hpanic, fun k hk => ?_⟩
      rw [Occurrence.heardBy_append, Cue.heardBy_log, List.nil_append]
      exact hheard k hk
    | some m =>
      have hcues : Cue.messages (c :: rest) = m :: Cue.messages rest := by simp [Cue.messages, hm]
      rw [hcues] at h ⊢
      rw [Cue.eq_announce c m hm]
      have hfirst (l : L) (hl : l ∈ ls) := Listener.hearAll_cons_of_no_panic m _ l (h l hl)
      obtain ⟨htold, hquiet, hhanded⟩ := tell_of_no_panic m 0 ls fun l hl => (hfirst l hl).1
      have hlater : ∀ l ∈ (tell m 0 ls).state,
          (Listener.hearAll (Cue.messages rest) l).panic = none := by
        intro l hl
        rw [htold] at hl
        obtain ⟨l', hl', rfl⟩ := List.mem_map.mp hl
        exact (hfirst l' hl').2.1
      obtain ⟨hstate, hpanic, hheard⟩ := ih (tell m 0 ls).state hlater
      rw [play_announce_of_no_panic m rest ls hquiet]
      refine ⟨?_, hpanic, fun k hk => ?_⟩
      · rw [hstate, htold, List.map_map]
        apply List.map_congr_left
        intro l hl
        exact (hfirst l hl).2.2.symm
      · have hlen : k < (tell m 0 ls).state.length := by rwa [htold, List.length_map]
        have hhead : Occurrence.heardBy k (.traced (.broadcasting m) :: (tell m 0 ls).log) =
            Occurrence.heardBy k (tell m 0 ls).log := rfl
        rw [Occurrence.heardBy_append, hhead, hhanded k, if_pos (by omega), hheard k hlen]
        rfl

/-- A script that is played without a panic is one whose messages every listener bears. -/
theorem no_panic_of_play (cues : List Cue) (ls : List L) (h : (play cues ls).panic = none) :
    ∀ l ∈ ls, (Listener.hearAll (Cue.messages cues) l).panic = none := by
  induction cues generalizing ls with
  | nil => exact fun l _ => rfl
  | cons c rest ih =>
    cases hm : c.message? with
    | none =>
      rw [play_silent c rest ls hm] at h
      rw [Cue.messages_cons, hm]
      exact ih ls h
    | some m =>
      rw [Cue.messages_cons, hm, Option.toList_some, List.singleton_append]
      rw [Cue.eq_announce c m hm] at h
      have hquiet : (tell m 0 ls).panic = none := by
        cases ht : (tell m 0 ls).panic with
        | none => rfl
        | some p =>
          rw [play_announce_of_panic m rest ls p ht] at h
          exact ht.symm.trans h
      have hfirst := no_panic_of_tell m 0 ls hquiet
      rw [play_announce_of_no_panic m rest ls hquiet, (tell_of_no_panic m 0 ls hfirst).1] at h
      intro l hl
      rw [Listener.hearAll_cons, Effect.andThen_of_no_panic _ _ (hfirst l hl)]
      exact ih _ h _ (List.mem_map_of_mem hl)

/-- Where the first listener panics over the first message that somebody cannot bear, a script
ends. That listener and all before it have been handed the message, nobody behind it. -/
theorem play_of_panic (first rest : List Cue) (m : Message) (before : List L) (l : L)
    (after : List L) (p : String)
    (hbefore : ∀ l' ∈ before, (Listener.hearAll (Cue.messages first ++ [m]) l').panic = none)
    (hafter : ∀ l' ∈ l :: after, (Listener.hearAll (Cue.messages first) l').panic = none)
    (hl : (Listener.hearAll (Cue.messages first ++ [m]) l).panic = some p) :
    let played := play (first ++ .announce m :: rest) (before ++ l :: after)
    played.panic = some p ∧
      played.state =
        before.map (fun l' => (Listener.hearAll (Cue.messages first ++ [m]) l').state) ++
          (Listener.hearAll (Cue.messages first ++ [m]) l).state ::
            after.map (fun l' => (Listener.hearAll (Cue.messages first) l').state) ∧
      Occurrence.messages played.log = Cue.messages first ++ [m] ∧
      Occurrence.calls played.log = Cue.calls first ∧
      ∀ k < (before ++ l :: after).length, Occurrence.heardBy k played.log =
        if k ≤ before.length then Cue.messages first ++ [m] else Cue.messages first := by
  have hquiet : ∀ l' ∈ before ++ l :: after,
      (Listener.hearAll (Cue.messages first) l').panic = none := by
    intro l' hl'
    rcases List.mem_append.mp hl' with h | h
    · exact Listener.hearAll_panic_left _ [m] l' (hbefore l' h)
    · exact hafter l' h
  obtain ⟨hstate, hpanic, hheard⟩ := play_of_no_panic first (before ++ l :: after) hquiet
  have hlast (l' : L) (hmem : l' ∈ before ++ l :: after) :
      (Listener.hearAll (Cue.messages first ++ [m]) l').state =
          (Listener.hear m (Listener.hearAll (Cue.messages first) l').state).state ∧
        (Listener.hearAll (Cue.messages first ++ [m]) l').panic =
          (Listener.hear m (Listener.hearAll (Cue.messages first) l').state).panic := by
    have hone := Listener.hearAll_append_of_no_panic _ [m] l' (hquiet l' hmem)
    rwa [Listener.hearAll_singleton] at hone
  have hself := hlast l (List.mem_append_right _ (List.mem_cons_self ..))
  have hothers (l' : L) (hmem : l' ∈ before) := hlast l' (List.mem_append_left _ hmem)
  rw [List.map_append, List.map_cons] at hstate
  obtain ⟨htold, hends, hhanded⟩ := tell_of_panic m 0
    (before.map fun l' => (Listener.hearAll (Cue.messages first) l').state)
    (Listener.hearAll (Cue.messages first) l).state
    (after.map fun l' => (Listener.hearAll (Cue.messages first) l').state) p
    (by
      intro t ht
      obtain ⟨l', hmem, rfl⟩ := List.mem_map.mp ht
      rw [← (hothers l' hmem).2]
      exact hbefore l' hmem)
    (by rw [← hself.2]; exact hl)
  rw [← hstate] at htold hends hhanded
  rw [play_append_of_no_panic _ _ _ hpanic, play_announce_of_panic m rest _ p hends]
  refine ⟨hends, ?_, ?_, ?_, fun k hk => ?_⟩
  · refine htold.trans ?_
    rw [List.map_map, hself.1]
    congr 1
    apply List.map_congr_left
    intro l' hmem
    exact (hothers l' hmem).1.symm
  · have hm : Occurrence.messages
        (broadcast m (play first (before ++ l :: after)).state).log = [m] :=
      congrArg (m :: ·) (messages_tell m 0 _)
    rw [Occurrence.messages_append, messages_play first _ hpanic, hm]
  · have hm : Occurrence.calls (broadcast m (play first (before ++ l :: after)).state).log = [] :=
      calls_tell m 0 _
    rw [Occurrence.calls_append, calls_play first _ hpanic, hm, List.append_nil]
  · have hm : Occurrence.heardBy k (broadcast m (play first (before ++ l :: after)).state).log =
        Occurrence.heardBy k (tell m 0 (play first (before ++ l :: after)).state).log := rfl
    rw [Occurrence.heardBy_append, hheard k hk, hm, hhanded k, List.length_map]
    by_cases hle : k ≤ before.length
    · rw [if_pos hle, if_pos (by omega)]
    · rw [if_neg hle, if_neg (by omega), List.append_nil]

end FeatureRun
