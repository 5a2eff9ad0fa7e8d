import Mathlib.Algebra.BigOperators.Intervals
import FeatureRun.Traversal

/-!
What a stop of a traversal preserves is told together with the number of the poll, and the times of
all items are read off that.
-/

namespace FeatureRun

universe u v w

namespace Agenda

variable {T : Type u} {ε : Type v} {W : Type w}

/-- The states that a round of work passes through, from the one it finds to the one it leaves. -/
def moments (perform : T → W → Turn T ε W) : List T → W → List W
  | [], world => [world]
  | t :: rest, world =>
    let turn := perform t world
    match turn.attempt with
    | .finished => world :: moments perform rest turn.world
    | _ => [world, turn.world]

theorem world_mem_moments (perform : T → W → Turn T ε W) (todo : List T) (world : W) :
    (resume perform todo world).world ∈ moments perform todo world := by
  induction todo generalizing world with
  | nil => exact List.mem_singleton_self world
  | cons t rest ih =>
    rw [resume, moments]
    cases (perform t world).attempt with
    | finished => exact List.mem_cons_of_mem _ (ih _)
    | _ => exact List.mem_cons_of_mem _ (List.mem_singleton_self _)

end Agenda

namespace Traversal

variable {α : Type u}

/-- The states that a traversal passes through in its first `n` polls. -/
def moments : Nat → List (Stop α) → Traversal α → List (Traversal α)
  | 0, _, t => [t]
  | n + 1, todo, t =>
    let round := Agenda.resume perform todo t
    Agenda.moments perform todo t ++
      match round.ending with
      | .pending todo => moments n todo round.world
      | _ => []

/-- The gate of the item that has `i` items before it. -/
def gateOf (gates : List (Option Nat)) (i : Nat) : Option Nat := gates[i]?.getD (some 0)

/-- None of the first `n` gates blocks for ever. -/
def Opens (gates : List (Option Nat)) (n : Nat) : Prop := ∀ j < n, gateOf gates j ≠ none

/-- How many polls the first `n` gates block, apart from those that never open. -/
def delay (gates : List (Option Nat)) (n : Nat) : Nat :=
  ∑ j ∈ Finset.range n, (gateOf gates j).getD 0

/-- The `p`-th poll comes behind the first `n` gates. -/
def Through (gates : List (Option Nat)) (n p : Nat) : Prop :=
  Opens gates n ∧ 1 + delay gates n ≤ p

instance (gates : List (Option Nat)) (n p : Nat) : Decidable (Through gates n p) :=
  inferInstanceAs (Decidable ((∀ j < n, gateOf gates j ≠ none) ∧ 1 + delay gates n ≤ p))

variable {gates : List (Option Nat)}

theorem through_zero (p : Nat) : Through gates 0 p ↔ 1 ≤ p := by
  simp [Through, Opens, delay]

theorem through_succ (n p : Nat) :
    Through gates (n + 1) p ↔
      Opens gates n ∧ ∃ m, gateOf gates n = some m ∧ 1 + delay gates n + m ≤ p := by
  have hopens : Opens gates (n + 1) ↔ Opens gates n ∧ gateOf gates n ≠ none :=
    Nat.forall_lt_succ_right
  have hdelay : delay gates (n + 1) = delay gates n + (gateOf gates n).getD 0 :=
    Finset.sum_range_succ _ n
  rw [Through, hopens, hdelay]
  cases gateOf gates n with
  | none => simp
  | some m => simp [Nat.add_assoc]

theorem Through.later {n p q : Nat} (h : Through gates n p) (hpq : p ≤ q) : Through gates n q :=
  ⟨h.1, h.2.trans hpq⟩

theorem Through.earlier {m n p : Nat} (h : Through gates n p) (hmn : m ≤ n) : Through gates m p := by
  induction n, hmn using Nat.le_induction with
  | base => exact h
  | succ n _ ih =>
    obtain ⟨hopens, k, _, hk⟩ := (through_succ n p).mp h
    exact ih ⟨hopens, by omega⟩

/-- If the first polls behind some gates are those from the `p`-th on, those behind one gate more
come as much later as it blocks. -/
theorem through_succ_of_due {n p : Nat} (hdue : ∀ q, Through gates n q ↔ p ≤ q) (q : Nat) :
    Through gates (n + 1) q ↔ ∃ m, gateOf gates n = some m ∧ p + m ≤ q := by
  have hreached : Through gates n p := (hdue p).mpr le_rfl
  have hfirst : p ≤ 1 + delay gates n := (hdue _).mp ⟨hreached.1, le_rfl⟩
  have hp : 1 + delay gates n = p := le_antisymm hreached.2 hfirst
  rw [through_succ, hp]
  exact and_iff_right hreached.1

/-- The stops of the items that have at least `i` items before them. -/
def stopsFrom (gates : List (Option Nat)) (items : List α) (i : Nat) : List (Stop α) :=
  ((items.drop i).zipIdx i).flatMap fun (item, i) => [.start item, .gate (gateOf gates i), .finish]

theorem stopsFrom_of_lt {items : List α} {i : Nat} (h : i < items.length) :
    stopsFrom gates items i =
      .start items[i] :: .gate (gateOf gates i) :: .finish :: stopsFrom gates items (i + 1) := by
  rw [stopsFrom, List.drop_eq_getElem_cons h, List.zipIdx_cons, List.flatMap_cons]
  rfl

theorem stopsFrom_length (items : List α) : stopsFrom gates items items.length = [] := by
  rw [stopsFrom, List.drop_length]
  rfl

/-- What every state of a traversal has in common. -/
structure Orderly (items : List α) (t : Traversal α) : Prop where
  in_order : t.started <+: items
  finished_le : t.finished ≤ t.started.length
  started_le : t.started.length ≤ t.finished + 1

/-- A traversal in its `p`-th poll, with the stops that are still before it. It is due at a place if
just the polls from this one on get there. -/
inductive Underway (gates : List (Option Nat)) (items : List α) (p : Nat) :
    List (Stop α) → Traversal α → Prop
  | between (i : Nat) (hi : i ≤ items.length) (hdue : ∀ q, Through gates i q ↔ p ≤ q) :
    Underway gates items p (stopsFrom gates items i) ⟨items.take i, i⟩
  | waiting (i : Nat) (hi : i < items.length) (gate : Option Nat) (hthrough : Through gates i p)
      (hdue : ∀ q, Through gates (i + 1) q ↔ ∃ m, gate = some m ∧ p + m ≤ q) :
    Underway gates items p (.gate gate :: .finish :: stopsFrom gates items (i + 1))
      ⟨items.take (i + 1), i⟩
  | leaving (i : Nat) (hi : i < items.length) (hdue : ∀ q, Through gates (i + 1) q ↔ p ≤ q) :
    Underway gates items p (.finish :: stopsFrom gates items (i + 1)) ⟨items.take (i + 1), i⟩

/-- A traversal after its `p`-th poll, if that did not complete it: one item waits for its gate. -/
inductive Stalled (gates : List (Option Nat)) (items : List α) (p : Nat) :
    List (Stop α) → Traversal α → Prop
  | intro (i : Nat) (hi : i < items.length) (gate : Option Nat) (hthrough : Through gates i p)
      (hdue : ∀ q, Through gates (i + 1) q ↔ ∃ m, gate = some m ∧ p + 1 + m ≤ q) :
    Stalled gates items p (.gate gate :: .finish :: stopsFrom gates items (i + 1))
      ⟨items.take (i + 1), i⟩

theorem Stalled.underway {items : List α} {p : Nat} {todo : List (Stop α)} {t : Traversal α}
    (h : Stalled gates items p todo t) : Underway gates items (p + 1) todo t := by
  obtain ⟨i, hi, gate, hthrough, hdue⟩ := h
  exact .waiting i hi gate (hthrough.later (Nat.le_succ p)) hdue

theorem underway_stops (gates : List (Option Nat)) (items : List α) :
    Underway gates items 1 (stops gates items) {} :=
  .between 0 (Nat.zero_le _) through_zero

namespace Underway

variable {items : List α} {p : Nat} {todo : List (Stop α)} {t : Traversal α}

theorem orderly (h : Underway gates items p todo t) : Orderly items t := by
  cases h with
  | between i hi =>
    have hall : (items.take i).length = i := List.length_take_of_le hi
    exact ⟨List.take_prefix i items, hall.ge, hall.le.trans (Nat.le_succ i)⟩
  | waiting i hi | leaving i hi =>
    have hall : (items.take (i + 1)).length = i + 1 := List.length_take_of_le hi
    exact ⟨List.take_prefix (i + 1) items, (Nat.le_succ i).trans hall.ge, hall.le⟩

/-- A stop is made in this poll, or it ends this poll. -/
theorem step {s : Stop α} (h : Underway gates items p (s :: todo) t) :
    (perform s t).attempt = .finished ∧ Underway gates items p todo (perform s t).world ∨
      ∃ s', (perform s t).attempt = .blocked s' ∧
        Stalled gates items p (s' :: todo) (perform s t).world := by
  generalize hwork : s :: todo = work at h
  cases h with
  | between i hi hdue =>
    rcases hi.lt_or_eq with hlt | rfl
    · rw [stopsFrom_of_lt hlt] at hwork
      obtain ⟨rfl, rfl⟩ := List.cons.inj hwork
      have hstarted : items.take i ++ [items[i]] = items.take (i + 1) := List.take_concat_get' ..
      left
      refine ⟨rfl, ?_⟩
      rw [perform, hstarted]
      exact .waiting i hlt _ ((hdue p).mpr le_rfl) (through_succ_of_due hdue)
    · rw [stopsFrom_length] at hwork
      exact absurd hwork (List.cons_ne_nil _ _)
  | waiting i hi gate hthrough hdue =>
    obtain ⟨rfl, rfl⟩ := List.cons.inj hwork
    match gate with
    | some 0 => exact .inl ⟨rfl, .leaving i hi fun q => by simpa using hdue q⟩
    | some (m + 1) =>
      have hlater : p + 1 + m = p + (m + 1) := by omega
      exact .inr ⟨.gate (some m), rfl, .intro i hi _ hthrough fun q => by simpa [hlater] using hdue q⟩
    | none => exact .inr ⟨.gate none, rfl, .intro i hi none hthrough fun q => by simpa using hdue q⟩
  | leaving i hi hdue =>
    obtain ⟨rfl, rfl⟩ := List.cons.inj hwork
    exact .inl ⟨rfl, .between (i + 1) hi hdue⟩

/-- A poll makes the stops up to the first gate that blocks, or all of them. -/
theorem round (h : Underway gates items p todo t) :
    (∀ m ∈ Agenda.moments perform todo t, Orderly items m) ∧
      ((Agenda.resume perform todo t).ending = .ready ∧
          (Agenda.resume perform todo t).world = ⟨items, items.length⟩ ∧
          (∀ q, Through gates items.length q ↔ p ≤ q) ∨
        ∃ todo', (Agenda.resume perform todo t).ending = .pending todo' ∧
          Stalled gates items p todo' (Agenda.resume perform todo t).world) := by
  induction todo generalizing t with
  | nil =>
    have horderly := h.orderly
    refine ⟨fun m hm => List.mem_singleton.mp hm ▸ horderly, .inl ⟨rfl, ?_⟩⟩
    generalize hwork : ([] : List (Stop α)) = work at h
    cases h with
    | between i hi hdue =>
      rcases hi.lt_or_eq with hlt | rfl
      · rw [stopsFrom_of_lt hlt] at hwork
        exact absurd hwork.symm (List.cons_ne_nil _ _)
      · rw [← hwork, List.take_length]
        exact ⟨rfl, hdue⟩
    | waiting | leaving => exact absurd hwork.symm (List.cons_ne_nil _ _)
  | cons s rest ih =>
    rw [Agenda.resume, Agenda.moments]
    rcases h.step with ⟨hattempt, hnext⟩ | ⟨s', hattempt, hstalled⟩
    · obtain ⟨hmoments, hend⟩ := ih hnext
      simp only [hattempt]
      exact ⟨List.forall_mem_cons.mpr ⟨h.orderly, hmoments⟩, hend⟩
    · simp only [hattempt]
      refine ⟨?_, .inr ⟨s' :: rest, rfl, hstalled⟩⟩
      exact List.forall_mem_cons.mpr ⟨h.orderly, List.forall_mem_singleton.mpr
        hstalled.underway.orderly⟩

end Underway

/-- What the `p`-th poll shows. -/
structure Report (gates : List (Option Nat)) (items : List α) (p : Nat) (t : Traversal α)
    (ready : Bool) : Prop where
  started_iff : ∀ i < items.length, i < t.started.length ↔ Through gates i p
  finished_iff : ∀ i < items.length, i < t.finished ↔ Through gates (i + 1) p
  ready_iff : ready = true ↔ Through gates items.length p
  first : Through gates items.length p → p = 1 + delay gates items.length
  one_waits : ready = false → t.started.length = t.finished + 1

theorem report_of_ready (items : List α) (p : Nat)
    (hdue : ∀ q, Through gates items.length q ↔ p ≤ q) :
    Report gates items p ⟨items, items.length⟩ true := by
  have hthrough : Through gates items.length p := (hdue p).mpr le_rfl
  refine ⟨fun i hi => ?_, fun i hi => ?_, iff_of_true rfl hthrough, fun h => ?_,
    fun h => absurd h (by simp)⟩
  · exact iff_of_true hi (hthrough.earlier hi.le)
  · exact iff_of_true hi (hthrough.earlier hi)
  · have hfirst : p ≤ 1 + delay gates items.length := (hdue _).mp ⟨h.1, le_rfl⟩
    exact le_antisymm hfirst h.2

theorem Stalled.report {items : List α} {p : Nat} {todo : List (Stop α)} {t : Traversal α}
    (h : Stalled gates items p todo t) : Report gates items p t false := by
  obtain ⟨i, hi, gate, hthrough, hdue⟩ := h
  have hlength : (items.take (i + 1)).length = i + 1 := List.length_take_of_le hi
  have hbefore : ¬ Through gates (i + 1) p := by
    rw [hdue]
    rintro ⟨m, _, hm⟩
    omega
  have hplace (n : Nat) : n < i + 1 ↔ Through gates n p := by
    constructor
    · intro hn
      exact hthrough.earlier (by omega)
    · intro hn
      by_contra hle
      exact hbefore (hn.earlier (by omega))
  have hall : ¬ Through gates items.length p := fun h => hbefore (h.earlier hi)
  refine ⟨fun j hj => ?_, fun j hj => ?_, iff_of_false (by simp) hall, fun h => absurd h hall,
    fun _ => hlength⟩
  · rw [hlength]
    exact hplace j
  · rw [← hplace]
    exact (Nat.succ_lt_succ_iff).symm

/-- Once a traversal is ready, nothing changes with more polls. -/
theorem Report.last {items : List α} {p q : Nat} {t : Traversal α} {ready : Bool}
    (h : Report gates items p t ready) (hpq : p ≤ q) (hsame : ready = false → p = q) :
    (∀ i < items.length, (i < t.started.length ↔ Through gates i q) ∧
        (i < t.finished ↔ Through gates (i + 1) q)) ∧
      (ready = true ↔ Through gates items.length q) := by
  cases ready with
  | false =>
    obtain rfl := hsame rfl
    exact ⟨fun i hi => ⟨h.started_iff i hi, h.finished_iff i hi⟩, h.ready_iff⟩
  | true =>
    have hall : Through gates items.length p := h.ready_iff.mp rfl
    refine ⟨fun i hi => ⟨iff_of_true ?_ ?_, iff_of_true ?_ ?_⟩, iff_of_true rfl (hall.later hpq)⟩
    · exact (h.started_iff i hi).mpr (hall.earlier hi.le)
    · exact (hall.earlier hi.le).later hpq
    · exact (h.finished_iff i hi).mpr (hall.earlier hi)
    · exact (hall.earlier hi).later hpq

/-- The polls of a traversal report one after another, up to the one that completes it. -/
theorem Underway.polls {items : List α} {p : Nat} {todo : List (Stop α)} {t : Traversal α}
    (h : Underway gates items p todo t) (n : Nat) :
    (∀ m ∈ moments n todo t, Orderly items m) ∧
      (∀ x ∈ pollUpTo n todo t, x.1 ∈ moments n todo t) ∧
      (∀ k x, (pollUpTo n todo t)[k]? = some x → Report gates items (p + k) x.1 x.2) ∧
      (0 < n → ∃ k x, (pollUpTo n todo t).getLast? = some x ∧ (pollUpTo n todo t)[k]? = some x ∧
        k < n ∧ (x.2 = false → k + 1 = n)) := by
  induction n generalizing p todo t with
  | zero =>
    refine ⟨fun m hm => List.mem_singleton.mp hm ▸ h.orderly, ?_, ?_, fun h => absurd h (by simp)⟩
    · exact fun x hx => absurd hx (by simp [pollUpTo])
    · exact fun k x hx => absurd hx (by simp [pollUpTo])
  | succ n ih =>
    obtain ⟨hmoments, hend⟩ := h.round
    have hworld := Agenda.world_mem_moments perform todo t
    rw [moments, pollUpTo]
    rcases hend with ⟨hready, hall, hdue⟩ | ⟨todo', hpending, hstalled⟩
    · simp only [hready, List.append_nil, List.forall_mem_singleton]
      refine ⟨hmoments, hworld, ?_, fun _ => ?_⟩
      · intro k x hx
        cases k with
        | zero =>
          obtain rfl := Option.some.inj hx
          rw [hall]
          exact report_of_ready items p hdue
        | succ k => exact absurd hx (by simp)
      · exact ⟨0, _, rfl, rfl, n.succ_pos, fun h => absurd h (by simp)⟩
    · obtain ⟨hlater, hmem, hreports, hlast⟩ := ih hstalled.underway
      simp only [hpending]
      refine ⟨?_, ?_, ?_, fun _ => ?_⟩
      · exact List.forall_mem_append.mpr ⟨hmoments, hlater⟩
      · refine List.forall_mem_cons.mpr ⟨List.mem_append_left _ hworld, fun x hx => ?_⟩
        exact List.mem_append_right _ (hmem x hx)
      · intro k x hx
        cases k with
        | zero =>
          obtain rfl := Option.some.inj hx
          exact hstalled.report
        | succ k =>
          have hk : p + (k + 1) = p + 1 + k := by omega
          rw [hk]
          exact hreports k x hx
      · rcases Nat.eq_zero_or_pos n with rfl | hn
        · exact ⟨0, _, rfl, rfl, Nat.one_pos, fun _ => rfl⟩
        · obtain ⟨k, x, hx, hk, hkn, hfalse⟩ := hlast hn
          refine ⟨k + 1, x, ?_, hk, by omega, fun h => by rw [hfalse h]⟩
          rw [List.getLast?_cons, hx, Option.getD_some]

/-- After up to `p` polls just those items have been started that the `p`-th poll gets to, and those
have been finished whose own gate it is behind as well. The traversal is ready with one poll more
than all of its gates block. Until then one item waits, and no item is ever started while the one
before it is not finished. -/
theorem traversal_keeps_time (items : List α) (gates : List (Option Nat)) (p : Nat) (hp : 1 ≤ p) :
    let polls : List (Traversal α × Bool) := pollUpTo p (stops gates items) {}
    let states : List (Traversal α) := moments p (stops gates items) {}
    (∃ t ready, polls.getLast? = some (t, ready) ∧
      (∀ i < items.length, (i < t.started.length ↔ Through gates i p) ∧
        (i < t.finished ↔ Through gates (i + 1) p)) ∧
      (ready = true ↔ Through gates items.length p)) ∧
    (∀ k t ready, polls[k]? = some (t, ready) →
      t ∈ states ∧
      (ready = true ↔ Opens gates items.length ∧ k + 1 = 1 + delay gates items.length) ∧
      (ready = false → t.started.length = t.finished + 1)) ∧
    ∀ t ∈ states, t.started <+: items ∧ t.finished ≤ t.started.length ∧
      t.started.length ≤ t.finished + 1 := by
  intro polls states
  obtain ⟨horderly, hstates, hreports, hlast⟩ := (underway_stops gates items).polls p
  have hreport (k : Nat) (t : Traversal α) (ready : Bool) (hk : polls[k]? = some (t, ready)) :
      Report gates items (k + 1) t ready := by
    rw [Nat.add_comm]
    exact hreports k _ hk
  refine ⟨?_, fun k t ready hk => ⟨?_, ?_, ?_⟩, fun t ht => ?_⟩
  · obtain ⟨k, ⟨t, ready⟩, hx, hk, hkp, hsame⟩ := hlast hp
    exact ⟨t, ready, hx, (hreport k t ready hk).last hkp hsame⟩
  · exact hstates _ (List.mem_of_getElem? hk)
  · have h := hreport k t ready hk
    rw [h.ready_iff]
    exact ⟨fun hall => ⟨hall.1, h.first hall⟩, fun hall => ⟨hall.1, hall.2.ge⟩⟩
  · exact (hreport k t ready hk).one_waits
  · exact ⟨(horderly t ht).in_order, (horderly t ht).finished_le, (horderly t ht).started_le⟩

/-- The second item blocks two polls, and the last one for ever; the first gate is open. -/
theorem stuck_traversal_times :
    let polls := pollUpTo 4 (stops [some 0, some 2, some 0, none] ["a", "b", "c", "d"]) {}
    1 ≤ 4 ∧ ∃ t ready, polls.getLast? = some (t, ready) ∧ 3 < t.started.length ∧
      ¬ 3 < t.finished ∧ ready = false := by
  intro polls
  obtain ⟨⟨t, ready, hlast, hitems, hready⟩, _, _⟩ :=
    traversal_keeps_time ["a", "b", "c", "d"] [some 0, some 2, some 0, none] 4 (by decide)
  obtain ⟨hstarted, hfinished⟩ := hitems 3 (by decide)
  refine ⟨by decide, t, ready, hlast, hstarted.mpr (by decide), ?_, ?_⟩
  · exact fun h => absurd (hfinished.mp h) (by decide)
  · exact Bool.eq_false_iff.mpr fun h => absurd (hready.mp h) (by decide)

end Traversal

end FeatureRun
