import FeatureRun.Walk.Broadcast

/-!
What one listener makes of a sequence of messages is told without the others; telling one message to
all listeners is then one hearing of each, up to the first that panics.
-/

namespace FeatureRun

universe u

namespace Listener

variable {σ : Type u} [Listener σ]

/-- Messages heard one after another, until the listener panics. -/
def hearAll (ms : List Message) (s : σ) : Effect Emission σ := takeAll (ms.map .hear) s

theorem hearAll_cons (m : Message) (ms : List Message) (s : σ) :
    hearAll (m :: ms) s = (hear m s).andThen (hearAll ms) := rfl

theorem takeAll_append (a b : List Call) (s : σ) :
    takeAll (a ++ b) s = (takeAll a s).andThen (takeAll b) := by
  induction a generalizing s with
  | nil => exact (Effect.quiet_andThen s (takeAll b)).symm
  | cons c rest ih =>
    have hrest : takeAll (rest ++ b) = fun t : σ => (takeAll rest t).andThen (takeAll b) :=
      funext ih
    rw [List.cons_append, takeAll, takeAll, hrest, Effect.andThen_assoc]

theorem hearAll_append (a b : List Message) (s : σ) :
    hearAll (a ++ b) s = (hearAll a s).andThen (hearAll b) := by
  rw [hearAll, List.map_append, takeAll_append]
  rfl

/-- Whoever bears a sequence of messages bears its beginning. -/
theorem hearAll_panic_left (a b : List Message) (s : σ)
    (h : (hearAll (a ++ b) s).panic = none) : (hearAll a s).panic = none := by
  rw [hearAll_append] at h
  cases ha : (hearAll a s).panic with
  | none => rfl
  | some p =>
    rw [Effect.andThen_of_panic _ _ p ha, ha] at h
    exact absurd h (by simp)

theorem hearAll_append_of_no_panic (a b : List Message) (s : σ)
    (h : (hearAll a s).panic = none) :
    (hearAll (a ++ b) s).state = (hearAll b (hearAll a s).state).state ∧
      (hearAll (a ++ b) s).panic = (hearAll b (hearAll a s).state).panic := by
  rw [hearAll_append, Effect.andThen_of_no_panic _ _ h]
  exact ⟨rfl, rfl⟩

theorem hearAll_cons_of_no_panic (m : Message) (ms : List Message) (s : σ)
    (h : (hearAll (m :: ms) s).panic = none) :
    (hear m s).panic = none ∧ (hearAll ms (hear m s).state).panic = none ∧
      (hearAll (m :: ms) s).state = (hearAll ms (hear m s).state).state := by
  rw [hearAll_cons] at h ⊢
  cases hm : (hear m s).panic with
  | some p =>
    rw [Effect.andThen_of_panic _ _ p hm, hm] at h
    exact absurd h (by simp)
  | none =>
    rw [Effect.andThen_of_no_panic _ _ hm] at h ⊢
    exact ⟨rfl, h, rfl⟩

theorem hearAll_singleton (m : Message) (s : σ) : hearAll [m] s = hear m s :=
  Effect.andThen_quiet (hear m s)

end Listener

namespace Occurrence

/-- The messages that a listener was handed, in order. -/
def heardBy (k : Nat) (log : List Occurrence) : List Message :=
  (deliveries log).filterMap fun (i, m) => if i = k then some m else none

@[simp] theorem heardBy_append (k : Nat) (a b : List Occurrence) :
    heardBy k (a ++ b) = heardBy k a ++ heardBy k b := by
  simp [heardBy]

theorem heardBy_handed (k i : Nat) (m : Message) (log : List Occurrence) :
    heardBy k (.handed i m :: log) = (if i = k then [m] else []) ++ heardBy k log := by
  by_cases h : i = k <;> simp [heardBy, deliveries, delivery?, h]

@[simp] theorem heardBy_emitted (k i : Nat) (es : List Emission) :
    heardBy k (es.map (.emitted i)) = [] := by
  simp [heardBy, deliveries, delivery?]

end Occurrence

variable {L : Type u} [Listener L]

/-- Telling a message shows only in handing it over and in what listeners emit. -/
theorem tell_log (m : Message) (i : Nat) (ls : List L) (o : Occurrence)
    (h : o ∈ (tell m i ls).log) : (∃ k, o = .handed k m) ∨ ∃ k e, o = .emitted k e := by
  induction ls generalizing i with
  | nil => exact absurd h (by simp [tell, Effect.quiet])
  | cons l rest ih =>
    have hhead (ho : o ∈ .handed i m :: (Listener.hear m l).log.map (.emitted i)) :
        (∃ k, o = .handed k m) ∨ ∃ k e, o = .emitted k e := by
      rcases List.mem_cons.mp ho with rfl | ho
      · exact Or.inl ⟨i, rfl⟩
      · obtain ⟨e, _, rfl⟩ := List.mem_map.mp ho
        exact Or.inr ⟨i, e, rfl⟩
    rw [tell] at h
    cases hp : (Listener.hear m l).panic with
    | some p =>
      rw [hp] at h
      exact hhead h
    | none =>
      rw [hp] at h
      rcases List.mem_append.mp h with h | h
      · exact hhead h
      · exact ih (i + 1) h

/-- A view that shows no listener shows nothing of a message that is told. -/
theorem filterMap_tell {β : Type} (f : Occurrence → Option β)
    (hhanded : ∀ k m, f (.handed k m) = none) (hemitted : ∀ k e, f (.emitted k e) = none)
    (m : Message) (i : Nat) (ls : List L) : (tell m i ls).log.filterMap f = [] := by
  rw [List.filterMap_eq_nil_iff]
  intro o ho
  rcases tell_log m i ls o ho with ⟨k, rfl⟩ | ⟨k, e, rfl⟩
  · exact hhanded k m
  · exact hemitted k e

@[simp] theorem messages_tell (m : Message) (i : Nat) (ls : List L) :
    Occurrence.messages (tell m i ls).log = [] :=
  filterMap_tell Occurrence.message? (fun _ _ => rfl) (fun _ _ => rfl) m i ls

@[simp] theorem calls_tell (m : Message) (i : Nat) (ls : List L) :
    Occurrence.calls (tell m i ls).log = [] :=
  filterMap_tell Occurrence.call? (fun _ _ => rfl) (fun _ _ => rfl) m i ls

/-- Handing a message to the listener numbered `i` and to the `n` behind it. -/
theorem handed_in_turn (m : Message) (i k n : Nat) :
    (if i = k then [m] else []) ++ (if i + 1 ≤ k ∧ k < i + 1 + n then [m] else []) =
      if i ≤ k ∧ k < i + (n + 1) then [m] else [] := by
  by_cases hik : i = k
  · rw [if_pos hik, if_neg (by omega), if_pos (by omega), List.append_nil]
  · rw [if_neg hik, List.nil_append]
    congr 1
    exact propext (by omega)

/-- Listeners of which none panics over a message hear it, each once. -/
theorem tell_of_no_panic (m : Message) (i : Nat) (ls : List L)
    (h : ∀ l ∈ ls, (Listener.hear m l).panic = none) :
    (tell m i ls).state = ls.map (fun l => (Listener.hear m l).state) ∧
      (tell m i ls).panic = none ∧
      ∀ k, Occurrence.heardBy k (tell m i ls).log =
        if i ≤ k ∧ k < i + ls.length then [m] else [] := by
  induction ls generalizing i with
  | nil =>
    refine ⟨rfl, rfl, fun k => ?_⟩
    rw [if_neg (by simp only [List.length_nil]; omega)]
    rfl
  | cons l rest ih =>
    have hl : (Listener.hear m l).panic = none := h l (List.mem_cons_self ..)
    obtain ⟨hstate, hpanic, hheard⟩ := ih (i + 1) fun l' hl' => h l' (List.mem_cons_of_mem _ hl')
    simp only [tell, hl, List.map_cons]
    refine ⟨by rw [hstate], hpanic, fun k => ?_⟩
    rw [List.cons_append, Occurrence.heardBy_handed, Occurrence.heardBy_append,
      Occurrence.heardBy_emitted, hheard k, List.nil_append]
    exact handed_in_turn m i k _

/-- A message that is told without a panic is one that every listener bears. -/
theorem no_panic_of_tell (m : Message) (i : Nat) (ls : List L) (h : (tell m i ls).panic = none) :
    ∀ l ∈ ls, (Listener.hear m l).panic = none := by
  induction ls generalizing i with
  | nil => exact fun l hl => absurd hl (by simp)
  | cons l rest ih =>
    rw [tell] at h
    cases hl : (Listener.hear m l).panic with
    | some p =>
      rw [hl] at h
      exact absurd h (by simp)
    | none =>
      rw [hl] at h
      rintro l' (_ | ⟨_, hl'⟩)
      · exact hl
      · exact ih (i + 1) h l' hl'

/-- The first listener that panics over a message has been handed it, and so have all before it,
but nobody behind it. -/
theorem tell_of_panic (m : Message) (i : Nat) (before : List L) (l : L) (after : List L)
    (p : String) (hbefore : ∀ l' ∈ before, (Listener.hear m l').panic = none)
    (hl : (Listener.hear m l).panic = some p) :
    (tell m i (before ++ l :: after)).state =
        before.map (fun l' => (Listener.hear m l').state) ++ (Listener.hear m l).state :: after ∧
      (tell m i (before ++ l :: after)).panic = some p ∧
      ∀ k, Occurrence.heardBy k (tell m i (before ++ l :: after)).log =
        if i ≤ k ∧ k < i + (before.length + 1) then [m] else [] := by
  induction before generalizing i with
  | nil =>
    simp only [List.nil_append, tell, hl, List.map_nil, true_and]
    intro k
    rw [Occurrence.heardBy_handed, Occurrence.heardBy_emitted, List.append_nil]
    congr 1
    exact propext (by simp only [List.length_nil]; omega)
  | cons l' rest ih =>
    have hl' : (Listener.hear m l').panic = none := hbefore l' (List.mem_cons_self ..)
    obtain ⟨hstate, hpanic, hheard⟩ := ih (i + 1) fun t ht => hbefore t (List.mem_cons_of_mem _ ht)
    simp only [List.cons_append, tell, hl', List.map_cons]
    refine ⟨by rw [hstate], hpanic, fun k => ?_⟩
    rw [Occurrence.heardBy_handed, Occurrence.heardBy_append,
      Occurrence.heardBy_emitted, hheard k, List.nil_append]
    exact handed_in_turn m i k _

end FeatureRun
