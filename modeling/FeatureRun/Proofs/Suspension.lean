import FeatureRun.Proofs.History
import FeatureRun.Proofs.WalkOrder

namespace FeatureRun

universe u

namespace Deed

/-- A completion is settled just by having been signalled. -/
theorem isSettled_ledger_iff (deeds : List Deed) (ticket : Nat) (honce : (tickets deeds).Nodup) :
    (ledger deeds ticket).isSettled = true ↔ ∃ s, .signal ticket s ∈ deeds := by
  constructor
  · intro h
    obtain ⟨r, hr⟩ := Standing.exists_of_isSettled _ h
    obtain ⟨s, _, honly⟩ := exists_signal deeds ticket r honce hr
    have hmem : .signal ticket s ∈ deeds.filter (fun d => d.ticket? == some ticket) := by
      rw [honly]
      exact List.mem_singleton.mpr rfl
    exact ⟨s, (List.mem_filter.mp hmem).1⟩
  · rintro ⟨s, hmem⟩
    rw [ledger_of_mem deeds (.signal ticket s) ticket _ honce hmem rfl]
    rfl

end Deed

/-- A call leaves its step open if it has not panicked, and the completion is not signalled. -/
theorem Reaction.open_iff (r : Reaction) (now : Standing) :
    (r.standing.given now).isSettled = false ↔ r.panic = none ∧
      match r.handling with
      | .signalled _ => False
      | .kept => now.isSettled = false
      | .dropped => True := by
  rcases r with ⟨handling, _ | p⟩
  · cases handling <;>
      simp [Reaction.standing, Handling.standing, Standing.given, Standing.isSettled]
  · simp [Reaction.standing, Standing.given, Standing.isSettled]

namespace Message

theorem upToStep_prefix (k : Nat) (ms : List Message) : upToStep k ms <+: ms := by
  induction ms generalizing k with
  | nil => exact List.nil_prefix
  | cons m rest ih =>
    cases hm : m.begins? with
    | none =>
      simp only [upToStep, hm]
      exact (List.prefix_cons_inj m).mpr (ih k)
    | some s =>
      cases k with
      | zero =>
        simp only [upToStep, hm]
        exact (List.prefix_cons_inj m).mpr List.nil_prefix
      | succ k =>
        simp only [upToStep, hm]
        exact (List.prefix_cons_inj m).mpr (ih k)

end Message

namespace Library

/-- The step with `k` steps before it has a definition, its callback returns without a panic, and
its completion has not been signalled. -/
def Unsignalled (library : Library) (steps : List Step) (deeds : List Deed) (k : Nat) : Prop :=
  ∃ s d, steps[k]? = some s ∧ library.lookup? s.name = some d ∧
    (d.invoke s.name s.docString).panic = none ∧
      match (d.invoke s.name s.docString).handling with
      | .signalled _ => False
      | .kept => ∀ signal, .signal (library.ticket steps k) signal ∉ deeds
      | .dropped => True

variable (library : Library) (steps : List Step) (deeds : List Deed)

theorem unsignalled_iff (k : Nat) (honce : (Deed.tickets deeds).Nodup) :
    library.Unsignalled steps deeds k ↔
      ∃ x, (library.standings (Deed.ledger deeds) 0 steps)[k]? = some x ∧ x.isSettled = false := by
  rw [library.standings_getElem?, Nat.zero_add]
  cases hs : steps[k]? with
  | none => simp [Unsignalled, hs]
  | some s =>
    cases hl : library.lookup? s.name with
    | none => simp [Unsignalled, hs, hl, standing, Standing.given, Standing.isSettled]
    | some d =>
      have hkept : (Deed.ledger deeds (library.ticket steps k)).isSettled = false ↔
          ∀ signal, .signal (library.ticket steps k) signal ∉ deeds := by
        rw [← not_exists, ← Deed.isSettled_ledger_iff deeds _ honce, Bool.not_eq_true]
      have hopen := (d.invoke s.name s.docString).open_iff
        (Deed.ledger deeds (library.ticket steps k))
      simp only [Unsignalled, hs, hl, Option.some.injEq, exists_and_left, exists_eq_left',
        Option.map_some, standing, ← hkept]
      exact hopen.symm

/-- The first unsignalled step is where the plan of the steps is held up. -/
theorem findIdx?_of_unsignalled (k : Nat) (honce : (Deed.tickets deeds).Nodup)
    (h : library.Unsignalled steps deeds k)
    (hfirst : ∀ j < k, ¬library.Unsignalled steps deeds j) :
    (library.standings (Deed.ledger deeds) 0 steps).findIdx? (fun x => !x.isSettled) = some k := by
  obtain ⟨x, hx, hopen⟩ := (library.unsignalled_iff steps deeds k honce).mp h
  obtain ⟨hlt, hget⟩ := List.getElem?_eq_some_iff.mp hx
  rw [List.findIdx?_eq_some_iff_getElem]
  refine ⟨hlt, by rw [hget, hopen]; rfl, fun j hj hsettled => ?_⟩
  apply hfirst j hj
  rw [library.unsignalled_iff steps deeds j honce]
  refine ⟨_, List.getElem?_eq_getElem (Nat.lt_trans hj hlt), ?_⟩
  simpa using hsettled

theorem findIdx?_of_signalled (honce : (Deed.tickets deeds).Nodup)
    (h : ∀ k, ¬library.Unsignalled steps deeds k) :
    (library.standings (Deed.ledger deeds) 0 steps).findIdx? (fun x => !x.isSettled) = none := by
  rw [List.findIdx?_eq_none_iff]
  intro x hx
  obtain ⟨k, hk⟩ := List.getElem?_of_mem hx
  cases hopen : x.isSettled with
  | true => rfl
  | false => exact absurd ((library.unsignalled_iff steps deeds k honce).mpr ⟨x, hk, hopen⟩) (h k)

end Library

section

variable {L : Type u} [Listener L]

theorem Bear.earlier {ms ms' : List Message} {listeners : List L} (h : Bear ms' listeners)
    (hp : ms <+: ms') : Bear ms listeners := by
  obtain ⟨rest, rfl⟩ := hp
  exact fun l hl => Listener.hearAll_panic_left ms rest l (h l hl)

/-- What every poll of a walk comes to, whatever its environment has done before. -/
theorem suspended_at_first_unsignalled (library : Library) (n : Node) (listeners : List L)
    (hbear : ∀ r, Bear (n.listing r) listeners) (actions : List Action)
    (ha : .abandon ∉ actions) :
    let walk := Session.ofNode library n listeners
    let reply := (walk.after actions).poll
    let log := walk.logAll actions ++ reply.log
    let deeds := walk.deedsAll actions
    let listing := n.listing (library.outcomes (Deed.ledger deeds) n.steps)
    (∀ k, library.Unsignalled n.steps deeds k →
      (∀ j < k, ¬library.Unsignalled n.steps deeds j) →
        reply.outcome = .pending ∧
        Occurrence.messages log = Message.upToStep k listing ∧
        Occurrence.calls log = library.calls (n.steps.take (k + 1))) ∧
    ((∀ k, ¬library.Unsignalled n.steps deeds k) →
      (.ready ∉ walk.outcomes actions → reply.outcome = .ready) ∧
        Occurrence.messages log = listing ∧
        Occurrence.calls log = library.calls n.steps) ∧
    (∀ i < listeners.length, Occurrence.heardBy i log = Occurrence.messages log) ∧
    (∀ a, a ≠ .poll → ((walk.after actions).act a).log = []) ∧
    ∀ p, p <+: Occurrence.messages log →
      (Message.begun p).length ≤ (Message.ended p).length + 1 := by
  intro walk reply log deeds listing
  have hsound : Sound library n listeners (walk.logAll actions) (walk.outcomes actions) deeds
      (walk.after actions) := sound_walk library n listeners actions ha
  obtain ⟨hnone, hsome⟩ := library.plan_agenda (Deed.ledger deeds) n
  have hprefix : Cue.messages (library.plan (Deed.ledger deeds) 0 n.agenda).cues <+: listing := by
    cases hfirst : (library.standings (Deed.ledger deeds) 0 n.steps).findIdx?
        (fun x => !x.isSettled) with
    | none => exact (hnone hfirst).2.1 ▸ List.prefix_refl _
    | some k => exact (hsome k hfirst).2.1 ▸ Message.upToStep_prefix k listing
  obtain ⟨_, hpanic, hheard⟩ := play_of_no_panic _ listeners ((hbear _).earlier hprefix)
  obtain ⟨hlog, houtcome⟩ := hsound.course.poll_outcome hsound.visitor hsound.opening
    hsound.ledger_fresh
  have hlog' : log = _ := hlog
  rw [hpanic] at houtcome
  have hmessages := messages_play _ listeners hpanic
  rw [hlog', hmessages]
  refine ⟨fun k hk hbefore => ?_, fun hall => ?_, fun i hi => hheard i hi,
    fun a h => (walk.after actions).log_act a h, fun p hp => ?_⟩
  · have hfirst := library.findIdx?_of_unsignalled n.steps deeds k hsound.once hk hbefore
    obtain ⟨htodo, hannounced, hcalled⟩ := hsome k hfirst
    refine ⟨?_, hannounced, (calls_play _ listeners hpanic).trans hcalled⟩
    obtain ⟨todo, htodo⟩ := Option.isSome_iff_exists.mp htodo
    rcases houtcome with houtcome | ⟨_, hover⟩
    · rw [houtcome]
      simp only [Plan.ending, htodo, Ending.outcome]
    · exact absurd (htodo.symm.trans (hover rfl).1) (by simp)
  · have hfirst := library.findIdx?_of_signalled n.steps deeds hsound.once hall
    obtain ⟨htodo, hannounced, hcalled⟩ := hnone hfirst
    refine ⟨fun hready => ?_, hannounced, (calls_play _ listeners hpanic).trans hcalled⟩
    rcases houtcome with houtcome | ⟨_, hover⟩
    · rw [houtcome]
      simp only [Plan.ending, htodo, Ending.outcome]
    · exact absurd (hover rfl).2 hready
  · apply Scene.length_begun_le (library.outcomes (Deed.ledger deeds) n.steps) 0 n.scenes
    rw [← n.listing_eq_scenes]
    exact hp.trans hprefix

end

/-- A callback that keeps its completion if it is told to. -/
def keeping : List String → Reaction
  | ["keep"] => ⟨.kept, none⟩
  | _ => ⟨.signalled .done, none⟩

def keepingLibrary : Library := ⟨[⟨.findsG, 0, keeping⟩]⟩

def keepingTree : Node :=
  .scenario {
    keyword := "Scenario", name := "two kept"
    steps := [⟨"* ", "go", 1, some "keep"⟩, ⟨"* ", "run", 2, none⟩, ⟨"* ", "go", 3, some "keep"⟩,
      ⟨"* ", "go", 4, none⟩] }

/-- The first completion is signalled between two polls; the second poll ends at the next one. -/
theorem keepingTree_suspends :
    (∀ r, Bear (keepingTree.listing r) [({} : Statistics)]) ∧
      .abandon ∉ [Action.poll, .signal 0 (.fail "late")] ∧
      let walk := Session.ofNode keepingLibrary keepingTree [({} : Statistics)]
      let actions := [Action.poll, .signal 0 (.fail "late")]
      let reply := (walk.after actions).poll
      let log := walk.logAll actions ++ reply.log
      let listing := keepingTree.listing
        (keepingLibrary.outcomes (Deed.ledger (walk.deedsAll actions)) keepingTree.steps)
      reply.outcome = .pending ∧
        Occurrence.messages log = Message.upToStep 2 listing ∧
        Message.results (Message.upToStep 2 listing) = [.failed (.failed "late"), .undefined] ∧
        Occurrence.calls log = keepingLibrary.calls (keepingTree.steps.take 3) := by
  have hbear : ∀ r, Bear (keepingTree.listing r) [({} : Statistics)] :=
    fun r => bear_statistics _ _
  have habandon : .abandon ∉ [Action.poll, .signal 0 (.fail "late")] := by decide
  obtain ⟨hfirst, _⟩ := suspended_at_first_unsignalled keepingLibrary keepingTree
    [({} : Statistics)] hbear [.poll, .signal 0 (.fail "late")] habandon
  have hopen (k : Nat) := keepingLibrary.unsignalled_iff keepingTree.steps
    ((Session.ofNode keepingLibrary keepingTree [({} : Statistics)]).deedsAll
      [.poll, .signal 0 (.fail "late")]) k (by decide)
  have hlast := (hopen 2).mpr ⟨.waiting, by decide, rfl⟩
  have hbefore : ∀ k < 2, ¬keepingLibrary.Unsignalled keepingTree.steps
      ((Session.ofNode keepingLibrary keepingTree [({} : Statistics)]).deedsAll
        [.poll, .signal 0 (.fail "late")]) k := by
    intro k hk h
    obtain ⟨x, hx, hnot⟩ := (hopen k).mp h
    have hfailed : x = .settled (.failed (.failed "late")) ∨ x = .settled .undefined := by
      rcases (by omega : k = 0 ∨ k = 1) with rfl | rfl
      · exact Or.inl (Option.some.inj (hx.symm.trans (by decide)))
      · exact Or.inr (Option.some.inj (hx.symm.trans (by decide)))
    rcases hfailed with rfl | rfl <;> exact absurd hnot (by decide)
  obtain ⟨houtcome, hmessages, hcalls⟩ := hfirst 2 hlast hbefore
  exact ⟨hbear, habandon, houtcome, hmessages, by decide, hcalls⟩

end FeatureRun
