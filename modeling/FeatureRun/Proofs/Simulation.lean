import FeatureRun.Proofs.Deed

/-!
Walks that mirror each other. Two visitors work on worlds of their own, which a relation pairs, and
do the same on paired worlds as far as a view of what happens shows.
-/

namespace FeatureRun

universe u v w

variable {W : Type u} {W' : Type v} {β : Type w}

/-- A task that looks up no other names than given ones. -/
def Task.Within (names : String → Prop) : Task → Prop
  | .execute s => names s.name
  | _ => True

theorem Task.within_all (t : Task) : t.Within fun _ => True := by
  cases t <;> trivial

section

variable (R : W → W' → Prop) (view : Occurrence → Option β) (strict : Prop)

/-- Effects that lead to paired worlds, strictly by the same panic if by any. -/
structure Effect.Mirrors (e : Effect Occurrence W) (e' : Effect Occurrence W') : Prop where
  state : R e.state e'.state
  log : e.log.filterMap view = e'.log.filterMap view
  panic : strict → e.panic = e'.panic

/-- Visitors that do the same on paired worlds, and find the same for the given names. -/
structure Visitor.Mirrors (names : String → Prop) (v : Visitor W) (v' : Visitor W') : Prop where
  enter : ∀ n w w', R w w' → Effect.Mirrors R view strict (v.enter n w) (v'.enter n w')
  leave : ∀ n w w', R w w' → Effect.Mirrors R view strict (v.leave n w) (v'.leave n w')
  conclude : ∀ r w w', R w w' →
    Effect.Mirrors R view strict (v.conclude r w) (v'.conclude r w')
  found : ∀ name, names name → (v.lookup name).1 = (v'.lookup name).1
  looked : ∀ name, names name →
    (v.lookup name).2.filterMap view = (v'.lookup name).2.filterMap view

structure Desk.Mirrors (d : Desk W) (d' : Desk W') : Prop where
  world : R d.world d'.world
  calls : d.calls = d'.calls
  held : d.held = d'.held

/-- Moves that get equally far, at least if neither crashes. -/
structure Move.Mirrors (names : String → Prop) (a : Move W) (b : Move W') : Prop where
  world : Desk.Mirrors R a.world b.world
  log : a.log.filterMap view = b.log.filterMap view
  attempt : strict ∨ (∀ m, a.attempt ≠ .crashed m) ∧ (∀ m, b.attempt ≠ .crashed m) →
    a.attempt = b.attempt
  within : ∀ t, a.attempt = .blocked t → t.Within names

/-- Sessions at the same stage, with tasks that look up the given names. -/
structure Session.Mirrors (names : String → Prop) (s : Session W) (s' : Session W') : Prop where
  visitor : Visitor.Mirrors R view strict names s.visitor s'.visitor
  opening : s.opening.filterMap view = s'.opening.filterMap view
  stage : s.stage = s'.stage
  desk : Desk.Mirrors R s.desk s'.desk
  within : ∀ todo, s.stage = .underway todo → ∀ t ∈ todo, t.Within names

end

/-- What a view shows, any coarser view shows as well. -/
theorem filterMap_eq_of_view {γ : Type w} {view : Occurrence → Option Occurrence}
    {a b : List Occurrence} (h : a.filterMap view = b.filterMap view)
    (f : Occurrence → Option γ) (hf : ∀ o, (view o).bind f = f o) :
    a.filterMap f = b.filterMap f := by
  have hview (log : List Occurrence) : (log.filterMap view).filterMap f = log.filterMap f := by
    rw [List.filterMap_filterMap]
    exact List.filterMap_congr fun o _ => hf o
  rw [← hview a, h, hview]

variable {R : W → W' → Prop} {view : Occurrence → Option β} {strict : Prop}
  {names : String → Prop} {v : Visitor W} {v' : Visitor W'} {d : Desk W} {d' : Desk W'}

/-- A task that is finished without a crash brings no panic with it. -/
theorem Desk.panic_of_finish {e : Effect Occurrence W}
    (h : ∀ m, (d.finish e).attempt ≠ .crashed m) : e.panic = none := by
  cases hp : e.panic with
  | none => rfl
  | some m => exact absurd (by simp only [finish, hp]) (h m)

namespace Desk.Mirrors

theorem finish (h : Desk.Mirrors R d d') {e : Effect Occurrence W} {e' : Effect Occurrence W'}
    (he : Effect.Mirrors R view strict e e') :
    Move.Mirrors R view strict names (d.finish e) (d'.finish e') := by
  refine ⟨⟨he.state, h.calls, h.held⟩, he.log, ?_, fun t ht => ?_⟩
  · rintro (hstrict | ⟨hno, hno'⟩)
    · simp only [Desk.finish, he.panic hstrict]
    · simp only [Desk.finish, Desk.panic_of_finish hno, Desk.panic_of_finish hno']
  · simp only [Desk.finish] at ht
    split at ht <;> exact absurd ht (by simp)

theorem eq {d d' : Desk W} (h : Desk.Mirrors Eq d d') : d = d' := by
  rcases d with ⟨world, calls, held⟩
  rcases d' with ⟨world', calls', held'⟩
  obtain ⟨rfl, rfl, rfl⟩ := h
  rfl

theorem block (h : Desk.Mirrors R d d') (log : List Occurrence) (t : Task)
    (ht : t.Within names) :
    Move.Mirrors R view strict names (d.block log t) (d'.block log t) := by
  refine ⟨h, rfl, fun _ => rfl, fun t' ht' => ?_⟩
  cases ht'
  exact ht

theorem settle (h : Desk.Mirrors R d d') (hv : Visitor.Mirrors R view strict names v v')
    (ticket : Nat) (s : Standing) :
    Move.Mirrors R view strict names (d.settle v ticket s) (d'.settle v' ticket s) := by
  cases s with
  | settled r => exact h.finish (hv.conclude r _ _ h.world)
  | waiting => exact h.block [] _ trivial
  | lost => exact h.block _ _ trivial

theorem execute (h : Desk.Mirrors R d d') (hv : Visitor.Mirrors R view strict names v v')
    (s : Step) (hs : names s.name) :
    Move.Mirrors R view strict names (d.execute v s) (d'.execute v' s) := by
  have hfound := hv.found s.name hs
  have hlooked := hv.looked s.name hs
  rcases hl : v.lookup s.name with ⟨found, looked⟩
  rcases hl' : v'.lookup s.name with ⟨found', looked'⟩
  rw [hl, hl'] at hfound hlooked
  obtain rfl : found = found' := hfound
  simp only [Desk.execute, hl, hl']
  cases found with
  | none =>
    have hmove : Move.Mirrors R view strict names _ _ :=
      h.finish (hv.conclude .undefined _ _ h.world)
    refine ⟨hmove.world, ?_, hmove.attempt, hmove.within⟩
    rw [List.filterMap_append, List.filterMap_append, hlooked, List.filterMap_cons,
      List.filterMap_cons, hmove.log]
  | some definition =>
    let reaction := definition.invoke s.name s.docString
    have hrecord : Desk.Mirrors R (d.recordCall reaction) (d'.recordCall reaction) := by
      refine ⟨h.world, congrArg (· + 1) h.calls, ?_⟩
      simp only [recordCall, h.calls, h.held]
    have hmove := hrecord.settle hv d.calls reaction.standing
    rw [← h.calls]
    refine ⟨hmove.world, ?_, hmove.attempt, hmove.within⟩
    rw [List.filterMap_append, List.filterMap_append, List.filterMap_append,
      List.filterMap_append, hlooked, hmove.log]

theorem perform (h : Desk.Mirrors R d d') (hv : Visitor.Mirrors R view strict names v v')
    (t : Task) (ht : t.Within names) :
    Move.Mirrors R view strict names (Desk.perform v t d) (Desk.perform v' t d') := by
  cases t with
  | enter n => exact h.finish (hv.enter n _ _ h.world)
  | leave n => exact h.finish (hv.leave n _ _ h.world)
  | execute s => exact h.execute hv s ht
  | await ticket standing => exact h.settle hv ticket standing
  | stuck => exact h.block [] .stuck trivial
  | pause polls =>
    rcases polls with _ | _ | polls
    · exact h.block [] _ trivial
    · exact h.finish ⟨h.world, rfl, fun _ => rfl⟩
    · exact h.block [] _ trivial

/-- A round of work goes equally far. -/
theorem resume (h : Desk.Mirrors R d d') (hv : Visitor.Mirrors R view strict names v v')
    (tasks : List Task) (htasks : ∀ t ∈ tasks, t.Within names) :
    let round := Agenda.resume (Desk.perform v) tasks d
    let round' := Agenda.resume (Desk.perform v') tasks d'
    strict ∨ (∀ m, round.ending ≠ .crashed m) ∧ (∀ m, round'.ending ≠ .crashed m) →
    Desk.Mirrors R round.world round'.world ∧
      round.log.filterMap view = round'.log.filterMap view ∧ round.ending = round'.ending ∧
      ∀ todo, round.ending = .pending todo → ∀ t ∈ todo, t.Within names := by
  induction tasks generalizing d d' with
  | nil =>
    refine fun _ => ⟨h, rfl, rfl, fun todo htodo => ?_⟩
    exact absurd htodo (by simp [Agenda.resume])
  | cons t rest ih =>
    have hrest : ∀ t ∈ rest, t.Within names := fun t' ht' => htasks t' (List.mem_cons_of_mem t ht')
    have hmove := h.perform hv t (htasks t (List.mem_cons_self ..))
    simp only [Agenda.resume]
    intro hcalm
    have hattempt : (Desk.perform v t d).attempt = (Desk.perform v' t d').attempt := by
      apply hmove.attempt
      apply hcalm.imp_right
      rintro ⟨hno, hno'⟩
      constructor
      · intro m ha
        rw [ha] at hno
        exact hno m rfl
      · intro m ha
        rw [ha] at hno'
        exact hno' m rfl
    rw [← hattempt] at hcalm ⊢
    cases ha : (Desk.perform v t d).attempt with
    | finished =>
      rw [ha] at hcalm
      obtain ⟨hworld, hlog, hending, hwithin⟩ := ih hmove.world hrest hcalm
      refine ⟨hworld, ?_, hending, hwithin⟩
      rw [List.filterMap_append, List.filterMap_append, hmove.log, hlog]
    | blocked t' =>
      refine ⟨hmove.world, hmove.log, rfl, ?_⟩
      rintro todo ⟨⟩ t'' ht''
      rcases List.mem_cons.mp ht'' with rfl | ht''
      · exact hmove.within _ ha
      · exact hrest t'' ht''
    | crashed m =>
      refine ⟨hmove.world, hmove.log, rfl, fun todo htodo => ?_⟩
      exact absurd htodo (by simp)

end Desk.Mirrors

/-- Only a step that waits is told anything, and its task looks up nothing. -/
theorem Stage.within_inform {stage : Stage} {ticket : Nat} {now : Standing}
    (h : ∀ todo, stage = .underway todo → ∀ t ∈ todo, t.Within names) :
    ∀ todo, stage.inform ticket now = .underway todo → ∀ t ∈ todo, t.Within names := by
  intro todo htodo
  unfold Stage.inform at htodo
  split at htodo
  case h_1 t rest =>
    cases htodo
    exact List.forall_mem_cons.mpr ⟨trivial, fun t' ht' => h _ rfl t' (List.mem_cons_of_mem _ ht')⟩
  case h_2 => exact h todo htodo

namespace Session.Mirrors

variable {s : Session W} {s' : Session W'}

theorem poll (h : Session.Mirrors R view strict names s s')
    (hcalm : strict ∨ (∀ m, s.poll.outcome ≠ .panicked m) ∧
      (∀ m, s'.poll.outcome ≠ .panicked m)) :
    s.poll.outcome = s'.poll.outcome ∧
      s.poll.log.filterMap view = s'.poll.log.filterMap view ∧
      Session.Mirrors R view strict names s.poll.session s'.poll.session := by
  rcases s with ⟨visitor, opening, stage, desk⟩
  rcases s' with ⟨visitor', opening', stage', desk'⟩
  obtain ⟨hvisitor, hopening, rfl, hdesk, hwithin⟩ := h
  cases stage with
  | refused e =>
    exact ⟨rfl, hopening, hvisitor, rfl, rfl, hdesk, fun _ h => absurd h (by simp [Session.poll])⟩
  | «over» => exact ⟨rfl, rfl, hvisitor, hopening, rfl, hdesk, hwithin⟩
  | underway todo =>
    simp only [Session.poll] at hcalm ⊢
    have hround := hdesk.resume hvisitor todo (hwithin todo rfl)
    obtain ⟨hworld, hlog, hending, hpending⟩ := hround <| by
      apply hcalm.imp_right
      rintro ⟨hno, hno'⟩
      exact ⟨fun m he => hno m (by rw [he]), fun m he => hno' m (by rw [he])⟩
    rw [← hending]
    refine ⟨rfl, ?_, hvisitor, rfl, rfl, hworld, fun todo' htodo' => ?_⟩
    · rw [List.filterMap_append, List.filterMap_append, hopening, hlog]
    · apply hpending todo'
      revert htodo'
      cases (Agenda.resume (Desk.perform visitor) todo desk).ending <;> simp

theorem release (h : Session.Mirrors R view strict names s s') (ticket : Nat) (now : Standing) :
    Session.Mirrors R view strict names (s.release ticket now) (s'.release ticket now) := by
  refine ⟨h.visitor, h.opening, ?_, ?_, ?_⟩
  · exact congrArg (Stage.inform ticket now) h.stage
  · exact ⟨h.desk.world, h.desk.calls, congrArg (List.erase · ticket) h.desk.held⟩
  · exact Stage.within_inform h.within

theorem releaseAt (h : Session.Mirrors R view strict names s s') (position : Nat) (now : Standing)
    (outcome : Outcome) :
    let reply := s.releaseAt position now outcome
    let reply' := s'.releaseAt position now outcome
    reply.outcome = reply'.outcome ∧ reply.log.filterMap view = reply'.log.filterMap view ∧
      Session.Mirrors R view strict names reply.session reply'.session := by
  simp only [Session.releaseAt, h.desk.held]
  cases s'.desk.held[position]? with
  | none => exact ⟨rfl, rfl, h⟩
  | some ticket => exact ⟨rfl, rfl, h.release ticket now⟩

theorem releaseAll (h : Session.Mirrors R view strict names s s') (now : Standing) :
    Session.Mirrors R view strict names (s.releaseAll now) (s'.releaseAll now) := by
  rw [Session.releaseAll, Session.releaseAll, ← h.desk.held]
  generalize s.desk.held = held
  induction held generalizing s s' with
  | nil => exact h
  | cons ticket rest ih => exact ih (h.release ticket now)

theorem act (h : Session.Mirrors R view strict names s s') (a : Action)
    (hcalm : strict ∨ (∀ m, (s.act a).outcome ≠ .panicked m) ∧
      (∀ m, (s'.act a).outcome ≠ .panicked m)) :
    (s.act a).outcome = (s'.act a).outcome ∧
      (s.act a).log.filterMap view = (s'.act a).log.filterMap view ∧
      Session.Mirrors R view strict names (s.act a).session (s'.act a).session := by
  cases a with
  | poll => exact h.poll hcalm
  | signal position signal => exact h.releaseAt position _ _
  | discard position => exact h.releaseAt position _ _
  | discardAll => exact ⟨rfl, rfl, h.releaseAll .lost⟩
  | abandon =>
    refine ⟨rfl, rfl, h.visitor, h.opening, rfl, h.desk, fun todo htodo => ?_⟩
    exact absurd htodo (by simp [Session.act])

/-- Strict or not, whole runs that nobody panics over do and lead to the same. -/
theorem after (h : Session.Mirrors R view strict names s s') (actions : List Action)
    (hcalm : strict ∨ (∀ m, .panicked m ∉ s.outcomes actions) ∧
      (∀ m, .panicked m ∉ s'.outcomes actions)) :
    s.outcomes actions = s'.outcomes actions ∧
      (s.logAll actions).filterMap view = (s'.logAll actions).filterMap view ∧
      Session.Mirrors R view strict names (s.after actions) (s'.after actions) := by
  induction actions generalizing s s' with
  | nil => exact ⟨rfl, rfl, h⟩
  | cons a rest ih =>
    simp only [outcomes_cons, List.mem_cons, not_or] at hcalm
    have hone := h.act a <| by
      apply hcalm.imp_right
      rintro ⟨hno, hno'⟩
      exact ⟨fun m he => (hno m).1 he.symm, fun m he => (hno' m).1 he.symm⟩
    obtain ⟨houtcome, hlog, hact⟩ := hone
    have hothers := ih hact <| by
      apply hcalm.imp_right
      rintro ⟨hno, hno'⟩
      exact ⟨fun m => (hno m).2, fun m => (hno' m).2⟩
    obtain ⟨houtcomes, hlogs, hafter⟩ := hothers
    rw [outcomes_cons, outcomes_cons, logAll_cons, logAll_cons, List.filterMap_append,
      List.filterMap_append, houtcome, houtcomes, hlog, hlogs]
    exact ⟨rfl, rfl, hafter⟩

/-- Walks of a node begin alike if their visitors find the same for its tasks. -/
theorem ofNode {L : Type u} {L' : Type v} [Listener L] [Listener L'] {library library' : Library}
    {R : List L → List L' → Prop} {ls : List L} {ls' : List L'} (n : Node)
    (hv : Visitor.Mirrors R view strict names library.visitor library'.visitor) (h : R ls ls')
    (hn : ∀ t ∈ n.agenda, t.Within names) :
    Session.Mirrors R view strict names (Session.ofNode library n ls)
      (Session.ofNode library' n ls') := by
  refine ⟨hv, rfl, rfl, ⟨h, rfl, rfl⟩, ?_⟩
  rintro todo ⟨⟩
  exact hn

end Session.Mirrors

section

variable {L : Type u} {L' : Type v}

/-- Listeners place by place in the relation of the place. -/
inductive Paired : List (L → L' → Prop) → List L → List L' → Prop
  | nil : Paired [] [] []
  | cons (r : L → L' → Prop) (l : L) (l' : L') (rs ls ls')
      (head : r l l') (tail : Paired rs ls ls') : Paired (r :: rs) (l :: ls) (l' :: ls')

variable {rs : List (L → L' → Prop)} {ls : List L} {ls' : List L'}

theorem Paired.getElem? (h : Paired rs ls ls') (k : Nat) (r : L → L' → Prop)
    (hr : rs[k]? = some r) : ∃ l l', ls[k]? = some l ∧ ls'[k]? = some l' ∧ r l l' := by
  induction h generalizing k with
  | nil => exact absurd hr (by simp)
  | cons r' l l' rs ls ls' head _ ih =>
    cases k with
    | zero =>
      cases hr
      exact ⟨l, l', rfl, rfl, head⟩
    | succ k => exact ih k hr

variable [Listener L] [Listener L']

/-- A relation that two listeners keep while they hear the same: they panic over the same messages,
and a view shows the same of what they emit. -/
structure Listener.Kept (view : Occurrence → Option β) (r : L → L' → Prop) : Prop where
  state : ∀ m l l', r l l' → r (Listener.hear m l).state (Listener.hear m l').state
  log : ∀ m l l' i, r l l' → ((Listener.hear m l).log.map (.emitted i)).filterMap view =
    ((Listener.hear m l').log.map (.emitted i)).filterMap view
  panic : ∀ m l l', r l l' → (Listener.hear m l).panic = (Listener.hear m l').panic

/-- Listeners in pairs hear a message in pairs, up to the first pair that panics. -/
theorem mirrors_tell (hkept : ∀ r ∈ rs, Listener.Kept view r) (h : Paired rs ls ls') (m : Message)
    (i : Nat) : Effect.Mirrors (Paired rs) view True (tell m i ls) (tell m i ls') := by
  induction h generalizing i with
  | nil => exact ⟨.nil, rfl, fun _ => rfl⟩
  | cons r l l' rs ls ls' head tail ih =>
    have hr := hkept r (List.mem_cons_self ..)
    obtain ⟨hstate, hlog, hpanic⟩ := ih (fun r' hr' => hkept r' (List.mem_cons_of_mem r hr')) (i + 1)
    have hheard : (Occurrence.handed i m :: (Listener.hear m l).log.map (.emitted i)).filterMap view =
        (Occurrence.handed i m :: (Listener.hear m l').log.map (.emitted i)).filterMap view := by
      rw [List.filterMap_cons, List.filterMap_cons, hr.log m l l' i head]
    simp only [tell, ← hr.panic m l l' head]
    cases (Listener.hear m l).panic with
    | some p =>
      exact ⟨.cons r _ _ rs ls ls' (hr.state m l l' head) tail, hheard, fun _ => rfl⟩
    | none =>
      refine ⟨.cons r _ _ rs _ _ (hr.state m l l' head) hstate, ?_, hpanic⟩
      rw [List.filterMap_append, List.filterMap_append, hheard, hlog]

theorem mirrors_broadcast (hkept : ∀ r ∈ rs, Listener.Kept view r) (h : Paired rs ls ls')
    (m : Message) : Effect.Mirrors (Paired rs) view True (broadcast m ls) (broadcast m ls') := by
  obtain ⟨hstate, hlog, hpanic⟩ := mirrors_tell hkept h m 0
  refine ⟨hstate, ?_, hpanic⟩
  simp only [broadcast, List.filterMap_cons, hlog]

theorem mirrors_announceResult (hkept : ∀ r ∈ rs, Listener.Kept view r) (h : Paired rs ls ls')
    (r : StepResult) :
    Effect.Mirrors (Paired rs) view True (announceResult r ls) (announceResult r ls') := by
  obtain ⟨hstate, hlog, hpanic⟩ := mirrors_broadcast hkept h (.result r)
  simp only [announceResult]
  cases r.error? with
  | none => exact ⟨hstate, hlog, hpanic⟩
  | some e =>
    refine ⟨hstate, ?_, hpanic⟩
    simp only [List.filterMap_cons, hlog]

/-- Walks of one node with listeners in pairs do and lead to the same, and leave the listeners in
pairs. -/
theorem mirrored_walks (hkept : ∀ r ∈ rs, Listener.Kept view r) (h : Paired rs ls ls')
    (library : Library) (n : Node) (actions : List Action) :
    let walk := Session.ofNode library n ls
    let walk' := Session.ofNode library n ls'
    walk.outcomes actions = walk'.outcomes actions ∧
      (walk.logAll actions).filterMap view = (walk'.logAll actions).filterMap view ∧
      Paired rs (walk.after actions).desk.world (walk'.after actions).desk.world := by
  intro walk walk'
  have hvisitor : Visitor.Mirrors (Paired rs) view True (fun _ => True) library.visitor
      library.visitor :=
    { enter := fun n _ _ h => mirrors_broadcast hkept h (.before n.event)
      leave := fun n _ _ h => mirrors_broadcast hkept h (.after n.event)
      conclude := fun r _ _ h => mirrors_announceResult hkept h r
      found := fun _ _ => rfl
      looked := fun _ _ => rfl }
  have hstart := Session.Mirrors.ofNode n hvisitor h fun t _ => t.within_all
  obtain ⟨houtcomes, hlog, hafter⟩ := hstart.after actions (Or.inl trivial)
  exact ⟨houtcomes, hlog, hafter.desk.world⟩

end

end FeatureRun
