import FeatureRun.Proofs.SuspendedWalk

/-!
Where nobody panics, what happens is the script itself, and behind every message its hearing by each
listener in turn; what one listener makes of that is what it makes of the messages alone.
-/

namespace FeatureRun

universe u v

namespace Occurrence

def emissionOf? (k : Nat) : Occurrence → Option Emission
  | .emitted i e => if i = k then some e else none
  | _ => none

/-- What one listener emits, in order. -/
def emissionsOf (k : Nat) (log : List Occurrence) : List Emission := log.filterMap (emissionOf? k)

@[simp] theorem emissionsOf_append (k : Nat) (a b : List Occurrence) :
    emissionsOf k (a ++ b) = emissionsOf k a ++ emissionsOf k b :=
  List.filterMap_append

theorem emissionsOf_emitted (k i : Nat) (es : List Emission) :
    emissionsOf k (es.map (.emitted i)) = if i = k then es else [] := by
  by_cases h : i = k <;> simp [emissionsOf, emissionOf?, List.filterMap_map, Function.comp_def, h]

end Occurrence

theorem Cue.emissionsOf_log (k : Nat) (c : Cue) : Occurrence.emissionsOf k c.log = [] := by
  cases c <;> rfl

theorem Listener.state_hearAll_cons {σ : Type u} [Listener σ] (m : Message) (ms : List Message)
    (s : σ) (h : (hear m s).panic = none) :
    (hearAll (m :: ms) s).state = (hearAll ms (hear m s).state).state := by
  rw [hearAll_cons, Effect.andThen_of_no_panic _ _ h]

namespace Listener

instance {σ τ : Type} [Listener σ] [Listener τ] [Steady σ] [Steady τ] : Steady (σ ⊕ τ) where
  no_panic n s := by
    cases s with
    | inl s => exact Steady.no_panic n s
    | inr t => exact Steady.no_panic n t
  hear_eq m s := by
    cases s with
    | inl s =>
      have hs : hear m (.inl s : σ ⊕ τ) = (hear m s).map .inl := rfl
      rw [hs, Steady.hear_eq]
      cases m.notice? <;> rfl
    | inr t =>
      have ht : hear m (.inr t : σ ⊕ τ) = (hear m t).map .inr := rfl
      rw [ht, Steady.hear_eq]
      cases m.notice? <;> rfl

end Listener

theorem bear_of_steady {L : Type u} [Listener L] [Listener.Steady L] (ms : List Message)
    (listeners : List L) : Bear ms listeners :=
  fun l _ => (Listener.hearAll_of_steady ms l).1

/-- Among the numbers of all listeners, that of one. -/
theorem flatMap_range_ite {β : Type} (n k : Nat) (xs : List β) (h : k < n) :
    ((List.range n).flatMap fun j => if j = k then xs else []) = xs := by
  induction n with
  | zero => exact absurd h (Nat.not_lt_zero k)
  | succ n ih =>
    rw [List.range_succ, List.flatMap_append, List.flatMap_singleton]
    rcases Nat.lt_succ_iff_lt_or_eq.mp h with hlt | rfl
    · rw [ih hlt, if_neg (by omega), List.append_nil]
    · have hnone : ((List.range k).flatMap fun j => if j = k then xs else []) = [] := by
        rw [List.flatMap_eq_nil_iff]
        intro j hj
        exact if_neg (Nat.ne_of_lt (List.mem_range.mp hj))
      rw [hnone, if_pos rfl, List.nil_append]

section

variable {L : Type u} [Listener L]

/-- What happens when the listener numbered `k` hears a message. -/
def hearing (k : Nat) (m : Message) (l : L) : List Occurrence :=
  .handed k m :: (Listener.hear m l).log.map (.emitted k)

/-- A message that all bear is heard by one after another. -/
theorem tell_log_of_no_panic (m : Message) (i : Nat) (ls : List L)
    (h : ∀ l ∈ ls, (Listener.hear m l).panic = none) :
    (tell m i ls).log = (ls.zipIdx i).flatMap fun (l, k) => hearing k m l := by
  induction ls generalizing i with
  | nil => rfl
  | cons l rest ih =>
    have hl : (Listener.hear m l).panic = none := h l (List.mem_cons_self ..)
    have hrest := ih (i + 1) fun l' hl' => h l' (List.mem_cons_of_mem _ hl')
    simp only [tell, hl, hrest, List.zipIdx_cons, List.flatMap_cons, hearing]

/-- A view to which all that the hearing of a message by a listener shows is `g` of its number. -/
theorem filterMap_tell_of_no_panic {β : Type} (f : Occurrence → Option β) (g : Nat → List β)
    (m : Message) (ls : List L) (h : ∀ l ∈ ls, (Listener.hear m l).panic = none)
    (hg : ∀ k l, ls[k]? = some l → (hearing k m l).filterMap f = g k) :
    (tell m 0 ls).log.filterMap f = (List.range ls.length).flatMap g := by
  have hshown : ∀ p ∈ ls.zipIdx, (hearing p.2 m p.1).filterMap f = g p.2 := by
    intro p hp
    exact hg p.2 p.1 (List.mem_zipIdx_iff_getElem?.mp hp)
  calc (tell m 0 ls).log.filterMap f
      = ls.zipIdx.flatMap fun p => (hearing p.2 m p.1).filterMap f := by
        rw [tell_log_of_no_panic m 0 ls h, List.filterMap_flatMap]
    _ = ls.zipIdx.flatMap fun p => g p.2 := List.flatMap_congr hshown
    _ = (ls.zipIdx.map Prod.snd).flatMap g := (List.flatMap_map ..).symm
    _ = (List.range ls.length).flatMap g := by
        rw [List.zipIdx_map_snd, List.range_eq_range']

/-- A message that all bear, with what follows it, leaves listeners that bear what follows. -/
theorem play_announce_of_bear (m : Message) (rest : List Cue) (ls : List L)
    (hbear : Bear (m :: Cue.messages rest) ls) :
    let later := ls.map fun l => (Listener.hear m l).state
    (∀ l ∈ ls, (Listener.hear m l).panic = none) ∧ Bear (Cue.messages rest) later ∧
      play (.announce m :: rest) ls =
        ⟨(play rest later).state,
          .traced (.broadcasting m) :: (tell m 0 ls).log ++ (play rest later).log,
          (play rest later).panic⟩ := by
  have hfirst (l : L) (hl : l ∈ ls) := Listener.hearAll_cons_of_no_panic m _ l (hbear l hl)
  have hquiet : ∀ l ∈ ls, (Listener.hear m l).panic = none := fun l hl => (hfirst l hl).1
  obtain ⟨htold, hpanic, _⟩ := tell_of_no_panic m 0 ls hquiet
  refine ⟨hquiet, fun l hl => ?_, ?_⟩
  · obtain ⟨l', hl', rfl⟩ := List.mem_map.mp hl
    exact (hfirst l' hl').2.1
  · rw [play_announce_of_no_panic m rest ls hpanic, htold]

/-- What a view shows of a script that all bear: its own occurrences and, behind every message, what
each listener shows of it, if that is the same whatever came before. -/
theorem filterMap_play_of_bear {β : Type} (f : Occurrence → Option β) (g : Nat → Message → List β)
    (cues : List Cue) (ls : List L) (hbear : Bear (Cue.messages cues) ls)
    (hg : ∀ k l, ls[k]? = some l → ∀ before m after,
      Cue.messages cues = before ++ m :: after →
        (hearing k m (Listener.hearAll before l).state).filterMap f = g k m) :
    (play cues ls).log.filterMap f = cues.flatMap fun c =>
      c.log.filterMap f ++
        c.message?.toList.flatMap fun m => (List.range ls.length).flatMap (g · m) := by
  induction cues generalizing ls with
  | nil => rfl
  | cons c rest ih =>
    cases hm : c.message? with
    | none =>
      rw [Cue.messages_cons, hm] at hbear hg
      rw [play_silent c rest ls hm, List.filterMap_append, ih ls hbear hg, List.flatMap_cons, hm]
      simp only [Option.toList_none, List.flatMap_nil, List.append_nil]
    | some m =>
      obtain rfl := Cue.eq_announce c m hm
      obtain ⟨hquiet, hlater, hplay⟩ := play_announce_of_bear m rest ls hbear
      have hhead : (tell m 0 ls).log.filterMap f = (List.range ls.length).flatMap (g · m) :=
        filterMap_tell_of_no_panic f (g · m) m ls hquiet fun k l hl =>
          hg k l hl [] m (Cue.messages rest) rfl
      have htail := ih _ hlater (by
        intro k l hl before m' after heq
        rw [List.getElem?_map] at hl
        obtain ⟨l', hl', rfl⟩ := Option.map_eq_some_iff.mp hl
        rw [← Listener.state_hearAll_cons m before l' (hquiet l' (List.mem_of_getElem? hl'))]
        exact hg k l' hl' (m :: before) m' after (congrArg (m :: ·) heq))
      rw [hplay, List.filterMap_append, htail, List.length_map, List.flatMap_cons]
      simp only [Cue.message?, Cue.log, Option.toList_some, List.flatMap_singleton,
        List.filterMap_cons, List.filterMap_nil, hhead]
      cases f (.traced (.broadcasting m)) <;> rfl

/-- A listener among others emits what it emits alone. -/
theorem emissionsOf_play (cues : List Cue) (ls : List L) (hbear : Bear (Cue.messages cues) ls)
    (k : Nat) (l : L) (hl : ls[k]? = some l) :
    Occurrence.emissionsOf k (play cues ls).log =
      (Listener.hearAll (Cue.messages cues) l).log := by
  induction cues generalizing ls l with
  | nil => rfl
  | cons c rest ih =>
    cases hm : c.message? with
    | none =>
      rw [Cue.messages_cons, hm] at hbear ⊢
      rw [play_silent c rest ls hm, Occurrence.emissionsOf_append, c.emissionsOf_log,
        List.nil_append]
      exact ih ls hbear l hl
    | some m =>
      obtain rfl := Cue.eq_announce c m hm
      obtain ⟨hquiet, hlater, hplay⟩ := play_announce_of_bear m rest ls hbear
      have hrest := ih _ hlater _ (by rw [List.getElem?_map, hl, Option.map_some])
      have hseen (j : Nat) (l' : L) (hl' : ls[j]? = some l') :
          (hearing j m l').filterMap (Occurrence.emissionOf? k) =
            if j = k then (Listener.hear m l).log else [] := by
        refine (Occurrence.emissionsOf_emitted k j _).trans ?_
        by_cases hj : j = k
        · subst hj
          obtain rfl : l' = l := Option.some.inj (hl'.symm.trans hl)
          rfl
        · rw [if_neg hj, if_neg hj]
      have hhead : (tell m 0 ls).log.filterMap (Occurrence.emissionOf? k) =
          (Listener.hear m l).log := by
        rw [filterMap_tell_of_no_panic _ _ m ls hquiet hseen]
        exact flatMap_range_ite _ k _ (List.getElem?_eq_some_iff.mp hl).1
      have hshown : Occurrence.emissionsOf k (.traced (.broadcasting m) :: (tell m 0 ls).log) =
          (tell m 0 ls).log.filterMap (Occurrence.emissionOf? k) := rfl
      rw [hplay, Occurrence.emissionsOf_append, hshown, hhead, hrest]
      have hheard := Effect.andThen_of_no_panic (Listener.hear m l)
        (Listener.hearAll (Cue.messages rest)) (hquiet l (List.mem_of_getElem? hl))
      exact (congrArg Effect.log hheard).symm

/-- A message is handed to all listeners, in the order of their attachment, before the next is. -/
theorem deliveries_play (cues : List Cue) (ls : List L) (hbear : Bear (Cue.messages cues) ls) :
    Occurrence.deliveries (play cues ls).log =
      (Cue.messages cues).flatMap fun m => (List.range ls.length).map (·, m) := by
  have hhanded (k : Nat) (m : Message) (l : L) :
      (hearing k m l).filterMap Occurrence.delivery? = [(k, m)] := by
    simp [hearing, Occurrence.delivery?, List.filterMap_map, Function.comp_def]
  have hsilent (c : Cue) : c.log.filterMap Occurrence.delivery? = [] := by
    cases c <;> rfl
  rw [Occurrence.deliveries, filterMap_play_of_bear Occurrence.delivery? (fun k m => [(k, m)])
    cues ls hbear fun k l _ before m _ _ => hhanded k m _]
  simp only [hsilent, List.nil_append, ← List.map_eq_flatMap]
  rw [Cue.messages, List.filterMap_eq_flatMap_toList, List.flatMap_assoc]

end

namespace Session

variable {W : Type u}

theorem after_append (s : Session W) (a b : List Action) :
    s.after (a ++ b) = (s.after a).after b :=
  List.foldl_append

theorem outcomes_append (s : Session W) (a b : List Action) :
    s.outcomes (a ++ b) = s.outcomes a ++ (s.after a).outcomes b := by
  induction a generalizing s with
  | nil => rfl
  | cons action rest ih =>
    rw [List.cons_append, outcomes_cons, outcomes_cons, ih, List.cons_append]
    rfl

/-- Only a poll can bring a run to an end, or to a panic. -/
theorem outcome_act (s : Session W) (a : Action) (h : a ≠ .poll) :
    (s.act a).outcome = .signalled ∨ (s.act a).outcome = .nothingHeld ∨
      (s.act a).outcome = .dropped := by
  cases a with
  | poll => exact absurd rfl h
  | signal position signal =>
    simp only [act, releaseAt]
    cases s.desk.held[position]? with
    | none => exact Or.inr (Or.inl rfl)
    | some t => exact Or.inl rfl
  | discard position =>
    simp only [act, releaseAt]
    cases s.desk.held[position]? with
    | none => exact Or.inr (Or.inl rfl)
    | some t => exact Or.inr (Or.inr rfl)
  | discardAll => exact Or.inr (Or.inr rfl)
  | abandon => exact Or.inr (Or.inr rfl)

theorem over_of_ready (s : Session W) (actions : List Action)
    (h : .ready ∈ s.outcomes actions) : (s.after actions).stage = .over := by
  induction actions generalizing s with
  | nil => exact absurd h List.not_mem_nil
  | cons a rest ih =>
    rw [outcomes_cons] at h
    rcases List.mem_cons.mp h with hready | hrest
    · have ha : a = .poll := by
        by_contra hne
        rcases s.outcome_act a hne with he | he | he <;>
          exact Outcome.noConfusion (hready.trans he)
      subst ha
      have hover : s.poll.session.stage = .over := by
        cases hstage : s.stage with
        | refused e => simp only [poll, hstage]
        | «over» => simp only [poll, hstage]
        | underway todo =>
          simp only [act, poll, hstage] at hready ⊢
          cases he : (Agenda.resume (Desk.perform s.visitor) todo s.desk).ending with
          | ready => rfl
          | pending left => exact absurd hready (by simp [he])
          | crashed m => rfl
      exact s.poll.session.after_of_over rest hover
    · exact ih _ hrest

end Session

section

variable {L : Type u} [Listener L] (library : Library) (n : Node) (listeners : List L)

/-- A session that no listener has disturbed: it has played the beginning of a plan, and once it is
ready, a whole plan that leaves nothing to do. -/
structure Undisturbed (log : List Occurrence) (outcomes : List Outcome) (s : Session (List L)) :
    Prop where
  calm : ∀ m, .panicked m ∉ outcomes
  played : ∃ (F : Ledger) (told : List Cue), told <+: (library.plan F 0 n.agenda).cues ∧
    play told listeners = ⟨s.desk.world, log, none⟩ ∧
    (.ready ∈ outcomes →
      told = (library.plan F 0 n.agenda).cues ∧ (library.plan F 0 n.agenda).todo = none)

namespace Undisturbed

variable {library n listeners} {log : List Occurrence} {outcomes : List Outcome}
  {deeds : List Deed} {s : Session (List L)}

theorem ofNode : Undisturbed library n listeners [] [] (Session.ofNode library n listeners) where
  calm _ h := absurd h List.not_mem_nil
  played := ⟨.blank, [], List.nil_prefix, rfl, fun h => absurd h List.not_mem_nil⟩

/-- Whatever leaves the listeners alone disturbs nothing. -/
theorem idle (h : Undisturbed library n listeners log outcomes s) (s' : Session (List L))
    (outcome : Outcome) (hworld : s'.desk.world = s.desk.world)
    (hcalm : ∀ m, outcome ≠ .panicked m) (hready : outcome ≠ .ready) :
    Undisturbed library n listeners log (outcomes ++ [outcome]) s' := by
  obtain ⟨F, told, htold, hplay, hwhole⟩ := h.played
  refine ⟨fun m hmem => ?_, F, told, htold, by rw [hworld]; exact hplay, fun hmem => ?_⟩
  · rcases List.mem_append.mp hmem with hmem | hmem
    · exact h.calm m hmem
    · exact hcalm m (List.mem_singleton.mp hmem).symm
  · rcases List.mem_append.mp hmem with hmem | hmem
    · exact hwhole hmem
    · exact absurd (List.mem_singleton.mp hmem).symm hready

/-- A poll of a walk that is underway plays the plan as it is now known. -/
theorem poll (h : Undisturbed library n listeners log outcomes s)
    (hsound : Sound library n listeners log outcomes deeds s)
    (hbear : ∀ r, Bear (n.listing r) listeners)
    (hover : .ready ∈ outcomes → s.stage = .over) :
    Undisturbed library n listeners (log ++ s.poll.log) (outcomes ++ [s.poll.outcome])
      s.poll.session := by
  cases hsound.course with
  | ended hended =>
    rw [s.poll_of_over hended.stage, List.append_nil]
    exact h.idle s .gone rfl (fun _ => Outcome.noConfusion) Outcome.noConfusion
  | underway todo told hunderway =>
    let F := Deed.ledger deeds
    obtain ⟨houtcome, hlog, _, hworld, _⟩ := Session.poll_eq_plan library F todo s hsound.visitor
      hsound.opening hunderway.stage hsound.ledger_fresh hunderway.no_pause
    obtain ⟨_, hpanic, _⟩ := play_of_no_panic (library.plan F 0 n.agenda).cues listeners
      ((hbear _).earlier (library.messages_plan_prefix F n))
    rw [hunderway.play_now] at hpanic
    have hcalm : (play (library.plan F s.desk.calls todo).cues s.desk.world).panic = none := hpanic
    rw [hcalm] at houtcome
    have hnow : play (library.plan F 0 n.agenda).cues listeners =
        ⟨s.poll.session.desk.world, log ++ s.poll.log, none⟩ := by
      rw [hunderway.play_now, hworld, hlog, ← hcalm]
    have hends : s.poll.outcome = .pending ∨
        s.poll.outcome = .ready ∧ (library.plan F 0 n.agenda).todo = none := by
      rw [houtcome, hunderway.plan_now]
      cases htodo : (library.plan F s.desk.calls todo).todo with
      | none => exact Or.inr ⟨by simp only [Plan.ending, htodo, Ending.outcome], htodo⟩
      | some left => exact Or.inl (by simp only [Plan.ending, htodo, Ending.outcome])
    refine ⟨fun m hmem => ?_, F, _, List.prefix_refl _, hnow, fun hmem => ⟨rfl, ?_⟩⟩
    · rcases List.mem_append.mp hmem with hmem | hmem
      · exact h.calm m hmem
      · have he := List.mem_singleton.mp hmem
        rcases hends with hpending | ⟨hready, _⟩
        · exact Outcome.noConfusion (he.trans hpending)
        · exact Outcome.noConfusion (he.trans hready)
    · rcases List.mem_append.mp hmem with hmem | hmem
      · exact absurd (hunderway.stage.symm.trans (hover hmem)) Stage.noConfusion
      · rcases hends with hpending | ⟨_, htodo⟩
        · exact Outcome.noConfusion ((List.mem_singleton.mp hmem).trans hpending)
        · exact htodo

theorem act (h : Undisturbed library n listeners log outcomes s)
    (hsound : Sound library n listeners log outcomes deeds s)
    (hbear : ∀ r, Bear (n.listing r) listeners)
    (hover : .ready ∈ outcomes → s.stage = .over) (a : Action) :
    Undisturbed library n listeners (log ++ (s.act a).log) (outcomes ++ [(s.act a).outcome])
      (s.act a).session := by
  by_cases hpoll : a = .poll
  · subst hpoll
    exact h.poll hsound hbear hover
  · rw [s.log_act a hpoll, List.append_nil]
    have houtcome := s.outcome_act a hpoll
    apply h.idle _ _ (s.world_act a hpoll)
    · intro m he
      rw [he] at houtcome
      exact absurd houtcome (by simp)
    · intro he
      rw [he] at houtcome
      exact absurd houtcome (by simp)

/-- Every listener has heard the messages so far, and made of them what it would alone. -/
theorem heard (h : Undisturbed library n listeners log outcomes s) :
    let heard := Occurrence.messages log
    s.desk.world = listeners.map (fun l => (Listener.hearAll heard l).state) ∧
      (∀ k l, listeners[k]? = some l → Occurrence.heardBy k log = heard ∧
        Occurrence.emissionsOf k log = (Listener.hearAll heard l).log) ∧
      Occurrence.deliveries log =
        heard.flatMap fun m => (List.range listeners.length).map (·, m) := by
  obtain ⟨F, told, _, hplay, _⟩ := h.played
  have hpanic : (play told listeners).panic = none := by rw [hplay]
  have hbear : Bear (Cue.messages told) listeners := no_panic_of_play told listeners hpanic
  have hmessages := messages_play told listeners hpanic
  obtain ⟨hworld, _, hheard⟩ := play_of_no_panic told listeners hbear
  have hemitted := emissionsOf_play told listeners hbear
  have hdeliveries := deliveries_play told listeners hbear
  simp only [hplay] at hmessages hworld hheard hemitted hdeliveries
  intro heard
  rw [show heard = Cue.messages told from hmessages]
  refine ⟨hworld, fun k l hl => ⟨hheard k ?_, hemitted k l hl⟩, hdeliveries⟩
  exact (List.getElem?_eq_some_iff.mp hl).1

end Undisturbed

/-- Listeners that bear whatever can be listed of a tree disturb no walk of it. -/
theorem undisturbed_walk (hbear : ∀ r, Bear (n.listing r) listeners) (actions : List Action)
    (ha : .abandon ∉ actions) :
    let walk := Session.ofNode library n listeners
    Undisturbed library n listeners (walk.logAll actions) (walk.outcomes actions)
      (walk.after actions) := by
  intro walk
  -- every action finds a sound session, so the induction is from the end
  induction actions using List.reverseRecOn with
  | nil => exact .ofNode
  | append_singleton actions a ih =>
    have hbefore : .abandon ∉ actions := fun h => ha (List.mem_append_left _ h)
    have hact := (ih hbefore).act (sound_walk library n listeners actions hbefore) hbear
      (walk.over_of_ready actions) a
    have hlog : walk.logAll (actions ++ [a]) =
        walk.logAll actions ++ ((walk.after actions).act a).log := by
      rw [walk.logAll_append, Session.logAll_cons]
      exact congrArg _ (List.append_nil _)
    rw [hlog, walk.outcomes_append, walk.after_append]
    exact hact

end

/-- A listener of one kind among those of another has heard what all hear, and made of it what it
would alone. -/
theorem Undisturbed.heard_inl {σ : Type u} {τ : Type v} [Listener σ] [Listener τ]
    {library : Library} {n : Node} {listeners : List (σ ⊕ τ)} {log : List Occurrence}
    {outcomes : List Outcome} {s : Session (List (σ ⊕ τ))}
    (h : Undisturbed library n listeners log outcomes s) (k : Nat) (l : σ)
    (hl : listeners[k]? = some (.inl l)) :
    let heard := Occurrence.messages log
    s.desk.world[k]? = some (.inl (Listener.hearAll heard l).state) ∧
      Occurrence.heardBy k log = heard ∧
      Occurrence.emissionsOf k log = (Listener.hearAll heard l).log := by
  intro heard
  obtain ⟨hworld, hheard, _⟩ := h.heard
  obtain ⟨hby, hemitted⟩ := hheard k _ hl
  have halone : Listener.hearAll heard (.inl l : σ ⊕ τ) = (Listener.hearAll heard l).map .inl :=
    Listener.hearAll_inl heard l
  refine ⟨?_, hby, hemitted.trans (congrArg Effect.log halone)⟩
  rw [hworld, List.getElem?_map, hl, Option.map_some, halone]
  rfl

end FeatureRun
