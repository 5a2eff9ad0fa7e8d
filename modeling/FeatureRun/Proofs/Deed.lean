import Mathlib.Data.List.Induction
import FeatureRun.Proofs.Plan

/-!
Whatever the environment does to a run comes down to polling it, and to parting with completions,
which are known by the tickets of their calls. The deeds make a ledger.
-/

namespace FeatureRun

universe u

inductive Deed
  | poll
  | signal (ticket : Nat) (s : Signal)
  | drop (ticket : Nat)
  deriving DecidableEq, Repr, Inhabited

namespace Deed

/-- The completion parted with, and how its step stands from then on. -/
def parting? : Deed → Option (Nat × Standing)
  | .poll => none
  | .signal ticket s => some (ticket, .settled s.result)
  | .drop ticket => some (ticket, .lost)

def ticket? (d : Deed) : Option Nat := d.parting?.map (·.1)

def tickets (deeds : List Deed) : List Nat := deeds.filterMap ticket?

/-- What is known after a deed. -/
def record (F : Ledger) (d : Deed) : Ledger :=
  match d.parting? with
  | some (ticket, now) => F.enter ticket now
  | none => F

/-- What has become of the completions after some deeds. -/
def ledger (deeds : List Deed) : Ledger := deeds.foldl record .blank

theorem ledger_append_singleton (deeds : List Deed) (d : Deed) :
    ledger (deeds ++ [d]) = record (ledger deeds) d := by
  rw [ledger, List.foldl_append]
  rfl

theorem ledger_append_poll (deeds : List Deed) : ledger (deeds ++ [.poll]) = ledger deeds :=
  ledger_append_singleton deeds .poll

theorem tickets_append (a b : List Deed) : tickets (a ++ b) = tickets a ++ tickets b :=
  List.filterMap_append

theorem tickets_singleton (d : Deed) : tickets [d] = d.ticket?.toList := by
  cases h : d.ticket? <;> simp [tickets, h]

theorem record_of_ne (F : Ledger) (d : Deed) (ticket : Nat) (h : d.ticket? ≠ some ticket) :
    record F d ticket = F ticket := by
  cases hd : d.parting? with
  | none => simp only [record, hd]
  | some p =>
    have hne : ticket ≠ p.1 := by
      intro he
      exact h (by rw [ticket?, hd, he]; rfl)
    simp only [record, hd, Ledger.enter, if_neg hne]

theorem record_of_eq (F : Ledger) (d : Deed) (ticket : Nat) (now : Standing)
    (h : d.parting? = some (ticket, now)) : record F d ticket = now := by
  simp only [record, h, Ledger.enter, if_true]

theorem ledger_of_not_mem (deeds : List Deed) (ticket : Nat) (h : ticket ∉ tickets deeds) :
    ledger deeds ticket = .waiting := by
  induction deeds using List.reverseRecOn with
  | nil => rfl
  | append_singleton deeds d ih =>
    rw [tickets_append, List.mem_append, not_or, tickets_singleton] at h
    rw [ledger_append_singleton, record_of_ne _ d ticket fun hd => h.2 (by rw [hd]; simp)]
    exact ih h.1

/-- The ledger tells of a completion what a deed has made of it. -/
theorem exists_deed (deeds : List Deed) (ticket : Nat) (h : ledger deeds ticket ≠ .waiting) :
    ∃ d ∈ deeds, d.parting? = some (ticket, ledger deeds ticket) := by
  -- the last deed has the last word, so the induction is from the end
  induction deeds using List.reverseRecOn with
  | nil => exact absurd rfl h
  | append_singleton deeds d ih =>
    rw [ledger_append_singleton] at h ⊢
    by_cases hd : d.ticket? = some ticket
    · obtain ⟨⟨_, now⟩, hparting, rfl⟩ := Option.map_eq_some_iff.mp hd
      refine ⟨d, List.mem_append_right _ (List.mem_singleton.mpr rfl), ?_⟩
      rw [record_of_eq _ d _ now hparting, hparting]
    · rw [record_of_ne _ d ticket hd] at h ⊢
      obtain ⟨d', hmem, hparting⟩ := ih h
      exact ⟨d', List.mem_append_left _ hmem, hparting⟩

theorem ledger_of_mem (deeds : List Deed) (d : Deed) (ticket : Nat) (now : Standing)
    (honce : (tickets deeds).Nodup) (hmem : d ∈ deeds) (hd : d.parting? = some (ticket, now)) :
    ledger deeds ticket = now := by
  have hticket : d.ticket? = some ticket := by rw [ticket?, hd, Option.map_some]
  induction deeds using List.reverseRecOn with
  | nil => exact absurd hmem (by simp)
  | append_singleton deeds d' ih =>
    rw [tickets_append, tickets_singleton] at honce
    rw [ledger_append_singleton]
    rcases List.mem_append.mp hmem with hearlier | hlast
    · have hin : ticket ∈ tickets deeds := List.mem_filterMap.mpr ⟨d, hearlier, hticket⟩
      rw [record_of_ne, ih (List.nodup_append.mp honce).1 hearlier]
      intro hd'
      rw [hd'] at honce
      exact (List.nodup_append.mp honce).2.2 ticket hin ticket (by simp) rfl
    · obtain rfl := List.mem_singleton.mp hlast
      exact record_of_eq _ d ticket now hd

/-- With every completion parted with once, a deed is the only one on its completion. -/
theorem filter_ticket (deeds : List Deed) (d : Deed) (ticket : Nat)
    (honce : (tickets deeds).Nodup) (hmem : d ∈ deeds) (hd : d.ticket? = some ticket) :
    deeds.filter (fun d' => d'.ticket? == some ticket) = [d] := by
  induction deeds with
  | nil => exact absurd hmem (by simp)
  | cons d' rest ih =>
    have htickets : tickets (d' :: rest) = d'.ticket?.toList ++ tickets rest := by
      rw [← List.singleton_append, tickets_append, tickets_singleton]
    rw [htickets, List.nodup_append] at honce
    obtain ⟨_, hrest, hdisjoint⟩ := honce
    rcases List.mem_cons.mp hmem with rfl | hin
    · have hnone : rest.filter (fun d' => d'.ticket? == some ticket) = [] := by
        rw [List.filter_eq_nil_iff]
        intro d' hd' he
        have hmem' : ticket ∈ tickets rest :=
          List.mem_filterMap.mpr ⟨d', hd', beq_iff_eq.mp he⟩
        exact hdisjoint ticket (by rw [hd]; simp) ticket hmem' rfl
      rw [List.filter_cons_of_pos (by rw [hd]; exact beq_self_eq_true _), hnone]
    · have hne : ¬(d'.ticket? == some ticket) = true := by
        intro he
        have hmem' : ticket ∈ tickets rest := List.mem_filterMap.mpr ⟨d, hin, hd⟩
        exact hdisjoint ticket (by rw [beq_iff_eq.mp he]; simp) ticket hmem' rfl
      rw [List.filter_cons, if_neg hne]
      exact ih hrest hin

/-- A completion is known to be settled by the one signal on it. -/
theorem exists_signal (deeds : List Deed) (ticket : Nat) (r : StepResult)
    (honce : (tickets deeds).Nodup) (h : ledger deeds ticket = .settled r) :
    ∃ signal, r = signal.result ∧
      deeds.filter (fun d => d.ticket? == some ticket) = [.signal ticket signal] := by
  obtain ⟨d, hmem, hparting⟩ := exists_deed deeds ticket (by rw [h]; exact Standing.noConfusion)
  rw [h] at hparting
  have hticket : d.ticket? = some ticket := by rw [ticket?, hparting, Option.map_some]
  have honly := filter_ticket deeds d ticket honce hmem hticket
  cases d with
  | poll => exact absurd hparting (by simp [parting?])
  | signal t s =>
    obtain ⟨rfl, hr⟩ := Prod.mk.inj (Option.some.inj hparting)
    exact ⟨s, (Standing.settled.inj hr).symm, honly⟩
  | drop t =>
    exact absurd (Prod.mk.inj (Option.some.inj hparting)).2 Standing.noConfusion

end Deed

namespace Session

variable {W : Type u}

/-- The deeds that an action amounts to. -/
def deeds (s : Session W) : Action → List Deed
  | .poll => [.poll]
  | .signal position signal => (s.desk.held[position]?).toList.map (.signal · signal)
  | .discard position => (s.desk.held[position]?).toList.map .drop
  | .discardAll => s.desk.held.map .drop
  | .abandon => []

/-- The deeds of actions taken one after another. -/
def deedsAll (s : Session W) : List Action → List Deed
  | [] => []
  | a :: rest => s.deeds a ++ (s.act a).session.deedsAll rest

/-- The session after actions taken one after another. -/
def after (s : Session W) (actions : List Action) : Session W :=
  actions.foldl (fun s a => (s.act a).session) s

/-- What happens during actions taken one after another. -/
def logAll (s : Session W) (actions : List Action) : List Occurrence :=
  (s.actAll actions).flatMap (·.log)

/-- What actions taken one after another lead to. -/
def outcomes (s : Session W) (actions : List Action) : List Outcome :=
  (s.actAll actions).map (·.outcome)

theorem logAll_cons (s : Session W) (a : Action) (rest : List Action) :
    s.logAll (a :: rest) = (s.act a).log ++ (s.act a).session.logAll rest := by
  simp only [logAll, actAll, List.flatMap_cons]

theorem logAll_poll (s : Session W) : s.logAll [.poll] = s.poll.log := List.append_nil _

theorem outcomes_cons (s : Session W) (a : Action) (rest : List Action) :
    s.outcomes (a :: rest) = (s.act a).outcome :: (s.act a).session.outcomes rest := rfl

theorem logAll_append (s : Session W) (a b : List Action) :
    s.logAll (a ++ b) = s.logAll a ++ (s.after a).logAll b := by
  induction a generalizing s with
  | nil => rfl
  | cons action rest ih =>
    rw [List.cons_append, logAll_cons, logAll_cons, ih, List.append_assoc]
    rfl

theorem deedsAll_append (s : Session W) (a b : List Action) :
    s.deedsAll (a ++ b) = s.deedsAll a ++ (s.after a).deedsAll b := by
  induction a generalizing s with
  | nil => rfl
  | cons action rest ih =>
    rw [List.cons_append, deedsAll, deedsAll, ih, List.append_assoc]
    rfl

theorem log_act (s : Session W) (a : Action) (h : a ≠ .poll) : (s.act a).log = [] := by
  cases a with
  | poll => exact absurd rfl h
  | signal position signal =>
    simp only [act, releaseAt]
    cases s.desk.held[position]? <;> rfl
  | discard position =>
    simp only [act, releaseAt]
    cases s.desk.held[position]? <;> rfl
  | discardAll => rfl
  | abandon => rfl

theorem poll_of_over (s : Session W) (h : s.stage = .over) : s.poll = ⟨s, .gone, []⟩ := by
  simp only [poll, h]

end Session

end FeatureRun
