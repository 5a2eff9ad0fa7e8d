import FeatureRun.Proofs.Deed
import FeatureRun.Proofs.Prospect

/-!
A session that is sound for the deeds done to it has done just what the plan of its tree is under
their ledger, and will go on with the plan of any ledger that tells more. Every action keeps a
session sound, unless the run is abandoned.
-/

namespace FeatureRun

universe u

namespace Desk

variable {W : Type u}

/-- A desk that has only taken further calls and kept completions of them. -/
def Grows (d d' : Desk W) : Prop :=
  d.calls ≤ d'.calls ∧ ∃ new, d'.held = d.held ++ new ∧ new.Nodup ∧
    ∀ t ∈ new, d.calls ≤ t ∧ t < d'.calls

theorem Grows.of_held {d d' : Desk W} (hcalls : d'.calls = d.calls) (hheld : d'.held = d.held) :
    d.Grows d' :=
  ⟨Nat.le_of_eq hcalls.symm, [], by rw [hheld, List.append_nil], List.nodup_nil,
    fun _ h => absurd h (by simp)⟩

theorem Grows.trans {d d' d'' : Desk W} (h : d.Grows d') (h' : d'.Grows d'') : d.Grows d'' := by
  obtain ⟨hcalls, new, hheld, hnodup, hnew⟩ := h
  obtain ⟨hcalls', new', hheld', hnodup', hnew'⟩ := h'
  refine ⟨Nat.le_trans hcalls hcalls', new ++ new', ?_, ?_, ?_⟩
  · rw [hheld', hheld, List.append_assoc]
  · rw [List.nodup_append]
    refine ⟨hnodup, hnodup', fun t ht t' ht' he => ?_⟩
    have hlt : t < d'.calls := (hnew t ht).2
    have hle : d'.calls ≤ t' := (hnew' t' ht').1
    omega
  · intro t ht
    rcases List.mem_append.mp ht with ht | ht
    · have hlt := hnew t ht
      omega
    · have hlt := hnew' t ht
      omega

theorem grows_recordCall (r : Reaction) (d : Desk W) : d.Grows (d.recordCall r) := by
  refine ⟨Nat.le_succ _, if r.keepsCompletion then [d.calls] else [], ?_, ?_, ?_⟩
  · cases h : r.keepsCompletion <;> simp [recordCall, h]
  · cases r.keepsCompletion <;> simp
  · intro t ht
    cases h : r.keepsCompletion with
    | true =>
      rw [h] at ht
      obtain rfl := List.mem_singleton.mp ht
      exact ⟨Nat.le_refl _, Nat.lt_succ_self _⟩
    | false =>
      rw [h] at ht
      exact absurd ht (by simp)

theorem grows_settle (v : Visitor W) (ticket : Nat) (s : Standing) (d : Desk W) :
    d.Grows (d.settle v ticket s).world := by
  cases s <;> exact .of_held rfl rfl

theorem grows_perform (v : Visitor W) (t : Task) (d : Desk W) : d.Grows (perform v t d).world := by
  cases t with
  | enter n => exact .of_held rfl rfl
  | leave n => exact .of_held rfl rfl
  | execute s =>
    simp only [perform, execute]
    cases (v.lookup s.name).1 with
    | none => exact .of_held rfl rfl
    | some definition =>
      have hcall := d.grows_recordCall (definition.invoke s.name s.docString)
      exact hcall.trans (grows_settle v d.calls _ _)
  | await ticket standing => exact grows_settle v ticket standing d
  | stuck => exact .of_held rfl rfl
  | pause polls => rcases polls with _ | _ | _ <;> exact .of_held rfl rfl

theorem grows_resume (v : Visitor W) (tasks : List Task) (d : Desk W) :
    d.Grows (Agenda.resume (perform v) tasks d).world := by
  induction tasks generalizing d with
  | nil => exact .of_held rfl rfl
  | cons t rest ih =>
    have hturn := grows_perform v t d
    simp only [Agenda.resume]
    cases (perform v t d).attempt with
    | finished => exact hturn.trans (ih _)
    | blocked t' => exact hturn
    | crashed m => exact hturn

end Desk

namespace Session

variable {W : Type u}

theorem visitor_poll (s : Session W) : s.poll.session.visitor = s.visitor := by
  cases h : s.stage <;> simp only [poll, h]

theorem opening_poll (s : Session W) (h : s.opening = []) : s.poll.session.opening = [] := by
  cases hs : s.stage with
  | refused e => simp only [poll, hs]
  | underway todo => simp only [poll, hs]
  | «over» => simpa only [poll, hs] using h

theorem grows_poll (s : Session W) : s.desk.Grows s.poll.session.desk := by
  cases h : s.stage with
  | refused e =>
    simp only [poll, h]
    exact .of_held rfl rfl
  | underway todo =>
    simp only [poll, h]
    exact Desk.grows_resume s.visitor todo s.desk
  | «over» =>
    simp only [poll, h]
    exact .of_held rfl rfl

end Session

section

variable {L : Type u} [Listener L] (library : Library) (n : Node) (listeners : List L)

/-- A walk that has tasks left, after cues that have been played. Whatever a later ledger tells, its
plan goes on from here. -/
structure Underway (F : Ledger) (log : List Occurrence) (s : Session (List L)) (todo : List Task)
    (told : List Cue) : Prop where
  stage : s.stage = .underway todo
  current : ∀ t ∈ todo, t.Current F
  fresh : ∀ t ∈ todo.tail, t.Fresh
  /-- The callback whose completion is awaited has not panicked. -/
  awaited : ∀ ticket now rest, todo = .await ticket now :: rest →
    ∃ call, (library.calls n.steps)[ticket]? = some call ∧ (call.1.callback call.2).panic = none
  played : play told listeners = ⟨s.desk.world, log, none⟩
  resumes : ∀ F' : Ledger, F.Extends F' → library.plan F' 0 n.agenda =
    (library.plan F' s.desk.calls (todo.map (Task.informed F'))).after told s.desk.calls

/-- A walk to which no later ledger makes a difference. -/
structure Ended (F : Ledger) (log : List Occurrence) (outcomes : List Outcome)
    (s : Session (List L)) : Prop where
  stage : s.stage = .over
  played : ∀ F' : Ledger, F.Extends F' →
    (play (library.plan F' 0 n.agenda).cues listeners).log = log
  ready : ∀ F' : Ledger, F.Extends F' →
    (play (library.plan F' 0 n.agenda).cues listeners).panic = none →
      (library.plan F' 0 n.agenda).todo = none ∧ .ready ∈ outcomes

/-- How far a walk has come under a ledger. -/
inductive Course (F : Ledger) (log : List Occurrence) (outcomes : List Outcome)
    (s : Session (List L)) : Prop
  | underway (todo : List Task) (told : List Cue)
      (h : Underway library n listeners F log s todo told)
  | ended (h : Ended library n listeners F log outcomes s)

/-- A session that a walk of the node can have come to by the given deeds. -/
structure Sound (log : List Occurrence) (outcomes : List Outcome) (deeds : List Deed)
    (s : Session (List L)) : Prop where
  visitor : s.visitor = library.visitor
  opening : s.opening = []
  held_nodup : s.desk.held.Nodup
  held_open : ∀ t ∈ s.desk.held, t < s.desk.calls ∧ t ∉ Deed.tickets deeds
  parted : ∀ t ∈ Deed.tickets deeds, t < s.desk.calls
  once : (Deed.tickets deeds).Nodup
  course : Course library n listeners (Deed.ledger deeds) log outcomes s

variable {library n listeners} {F : Ledger} {log : List Occurrence}
  {outcomes outcomes' : List Outcome} {deeds : List Deed} {s : Session (List L)}

theorem Sound.ofNode :
    Sound library n listeners [] [] [] (Session.ofNode library n listeners) where
  visitor := rfl
  opening := rfl
  held_nodup := List.nodup_nil
  held_open t h := absurd h (by simp [Session.ofNode, Session.ofTasks])
  parted t h := absurd h (by simp [Deed.tickets])
  once := List.nodup_nil
  course := by
    refine .underway n.agenda [] ⟨rfl, ?_, ?_, ?_, rfl, ?_⟩
    · exact fun t ht => (n.fresh_agenda t ht).current _ t
    · exact fun t ht => n.fresh_agenda t (List.mem_of_mem_tail ht)
    · intro ticket now rest h
      exact (n.fresh_agenda (.await ticket now) (h ▸ List.mem_cons_self ..)).elim
    · intro F' _
      rw [Task.map_informed_of_fresh F' n.agenda n.fresh_agenda]
      simp [Plan.after, Session.ofNode, Session.ofTasks]

namespace Underway

variable {todo : List Task} {told : List Cue}
  (h : Underway library n listeners F log s todo told)

include h

/-- What is played later comes on top of what has been told. -/
theorem play_told (cues : List Cue) :
    play (told ++ cues) listeners =
      ⟨(play cues s.desk.world).state, log ++ (play cues s.desk.world).log,
        (play cues s.desk.world).panic⟩ := by
  rw [play_append_of_no_panic told cues listeners (by rw [h.played]), h.played]

theorem plan_later (F' : Ledger) (hF' : F.Extends F') :
    library.plan F' 0 n.agenda =
      ((library.plan F s.desk.calls todo).resumed library F' s.desk.calls).after told
        s.desk.calls := by
  have hext := library.plan_extends F F' hF' s.desk.calls todo
  rw [Task.map_informed_of_current F todo h.current] at hext
  rw [h.resumes F' hF', hext]

theorem plan_now :
    library.plan F 0 n.agenda = (library.plan F s.desk.calls todo).after told s.desk.calls := by
  have hself := h.resumes F (.refl F)
  rwa [Task.map_informed_of_current F todo h.current] at hself

theorem play_now :
    play (library.plan F 0 n.agenda).cues listeners =
      let e := play (library.plan F s.desk.calls todo).cues s.desk.world
      ⟨e.state, log ++ e.log, e.panic⟩ := by
  rw [h.plan_now]
  exact h.play_told _

/-- After a panic, later ledgers have no say. -/
theorem play_of_panic (m : String)
    (hpanic : (play (library.plan F s.desk.calls todo).cues s.desk.world).panic = some m)
    (F' : Ledger) (hF' : F.Extends F') :
    play (library.plan F' 0 n.agenda).cues listeners =
      play (library.plan F 0 n.agenda).cues listeners := by
  obtain ⟨more, hmore⟩ := (library.plan F s.desk.calls todo).cues_resumed library F' s.desk.calls
  rw [h.plan_later F' hF', h.play_now, Plan.after, hmore, h.play_told,
    play_append_of_panic _ _ _ m hpanic]

/-- A plan that comes to its end is the same under later ledgers. -/
theorem plan_of_ready (htodo : (library.plan F s.desk.calls todo).todo = none)
    (F' : Ledger) (hF' : F.Extends F') :
    library.plan F' 0 n.agenda = library.plan F 0 n.agenda := by
  rw [h.plan_later F' hF', h.plan_now, Plan.resumed, htodo]

theorem awaited_left (left : List Task)
    (hleft : (library.plan F s.desk.calls todo).todo = some left) (ticket : Nat) (now : Standing)
    (rest : List Task) (hhead : left = .await ticket now :: rest) :
    ∃ call, (library.calls n.steps)[ticket]? = some call ∧
      (call.1.callback call.2).panic = none := by
  have hplan : (library.plan F 0 n.agenda).todo = some (.await ticket now :: rest) := by
    rw [h.plan_now, ← hhead, ← hleft]
    rfl
  obtain ⟨k, call, hticket, hcall, hcalm⟩ :=
    (library.prospect_agenda F n).awaited ticket now rest hplan
  have hk : ticket = k := by omega
  rw [n.flatMap_steps_scenes, ← hk] at hcall
  exact ⟨call, hcall, hcalm⟩

theorem no_pause (polls : Option Nat) : .pause polls ∉ todo :=
  fun hmem => (h.current _ hmem).2 polls rfl

end Underway

theorem Ended.weaken (h : Ended library n listeners F log outcomes s)
    (hsub : outcomes ⊆ outcomes') : Ended library n listeners F log outcomes' s := by
  refine ⟨h.stage, h.played, fun F' hF' hpanic => ?_⟩
  obtain ⟨htodo, hready⟩ := h.ready F' hF' hpanic
  exact ⟨htodo, hsub hready⟩

theorem Course.weaken (h : Course library n listeners F log outcomes s)
    (hsub : outcomes ⊆ outcomes') : Course library n listeners F log outcomes' s := by
  cases h with
  | underway todo told h => exact .underway todo told h
  | ended h => exact .ended (h.weaken hsub)

/-- What has happened is, under any view that shows no listener, the beginning of the plan. -/
theorem Course.filterMap_prefix {β : Type} (f : Occurrence → Option β)
    (hf : ∀ m (ls : List L), (tell m 0 ls).log.filterMap f = [])
    (h : Course library n listeners F log outcomes s) :
    log.filterMap f <+:
      (library.plan F 0 n.agenda).cues.flatMap (fun c => c.log.filterMap f) := by
  cases h with
  | underway todo told h =>
    have htold := (filterMap_play f hf told listeners).2 (by rw [h.played])
    rw [h.played] at htold
    rw [htold, h.plan_now, Plan.after, List.flatMap_append]
    exact List.prefix_append _ _
  | ended h =>
    rw [← h.played F (.refl F)]
    exact (filterMap_play f hf _ listeners).1

section

variable (hvisitor : s.visitor = library.visitor) (hopening : s.opening = [])
  (hF : ∀ t, s.desk.calls ≤ t → F t = .waiting)

include hvisitor hopening hF

/-- What a poll adds to what has happened is what the plan under the ledger has beyond it. -/
theorem Course.poll_outcome (h : Course library n listeners F log outcomes s) :
    let p := library.plan F 0 n.agenda
    let e := play p.cues listeners
    log ++ s.poll.log = e.log ∧ (s.poll.outcome = (p.ending e.panic).outcome ∨
      s.poll.outcome = .gone ∧ (e.panic = none → p.todo = none ∧ .ready ∈ outcomes)) := by
  cases h with
  | underway todo told h =>
    obtain ⟨houtcome, hlog, _⟩ :=
      Session.poll_eq_plan library F todo s hvisitor hopening h.stage hF h.no_pause
    intro p e
    have he : e = _ := h.play_now
    have hp : p = _ := h.plan_now
    refine ⟨?_, Or.inl ?_⟩
    · rw [he, hlog]
    · rw [he, hp, houtcome]
      rfl
  | ended h =>
    rw [s.poll_of_over h.stage, List.append_nil]
    exact ⟨(h.played F (.refl F)).symm, Or.inr ⟨rfl, h.ready F (.refl F)⟩⟩

/-- A poll goes on with the course of a walk. -/
theorem Course.poll (h : Course library n listeners F log outcomes s) :
    Course library n listeners F (log ++ s.poll.log) (outcomes ++ [s.poll.outcome])
      s.poll.session := by
  cases h with
  | ended h =>
    rw [s.poll_of_over h.stage, List.append_nil]
    exact .ended (h.weaken (List.subset_append_left _ _))
  | underway todo told h =>
    obtain ⟨houtcome, hlog, hstage, hworld, hcalls⟩ :=
      Session.poll_eq_plan library F todo s hvisitor hopening h.stage hF h.no_pause
    have hnow : (play (library.plan F 0 n.agenda).cues listeners).log = log ++ s.poll.log := by
      rw [h.play_now, hlog]
    cases hpanic : (play (library.plan F s.desk.calls todo).cues s.desk.world).panic with
    | some m =>
      rw [hpanic] at hstage
      have hsame := h.play_of_panic m hpanic
      refine .ended ⟨hstage, fun F' hF' => by rw [hsame F' hF', hnow], fun F' hF' hnone => ?_⟩
      rw [hsame F' hF', h.play_now] at hnone
      exact absurd (hpanic.symm.trans hnone) (by simp)
    | none =>
      rw [hpanic] at hstage houtcome
      cases htodo : (library.plan F s.desk.calls todo).todo with
      | none =>
        simp only [Plan.ending, htodo] at hstage houtcome
        have hsame := h.plan_of_ready htodo
        refine .ended ⟨hstage, fun F' hF' => by rw [hsame F' hF', hnow], fun F' hF' _ => ?_⟩
        rw [hsame F' hF', h.plan_now, houtcome]
        exact ⟨htodo, List.mem_append_right _ (List.mem_singleton.mpr rfl)⟩
      | some left =>
        simp only [Plan.ending, htodo] at hstage
        obtain ⟨hcurrent, htail⟩ := library.plan_todo F s.desk.calls todo left h.current htodo
        refine .underway left (told ++ (library.plan F s.desk.calls todo).cues)
          ⟨hstage, hcurrent, fun t ht => h.fresh t (htail ht), h.awaited_left left htodo, ?_, ?_⟩
        · rw [h.play_told, hworld, hlog, hpanic]
        · intro F' hF'
          rw [h.plan_later F' hF', Plan.resumed, htodo, hcalls hpanic]
          exact Plan.after_after ..

end

theorem Underway.release {todo : List Task} {told : List Cue}
    (h : Underway library n listeners F log s todo told) (ticket : Nat) (now : Standing)
    (hF : F ticket = .waiting) :
    Underway library n listeners (F.enter ticket now) log (s.release ticket now)
      (todo.map (Task.informed (F.enter ticket now))) told := by
  have hinform := Stage.inform_eq_map F todo ticket now h.current h.fresh hF
  refine ⟨?_, ?_, ?_, ?_, h.played, ?_⟩
  · rw [← hinform, ← h.stage]
    rfl
  · intro t ht
    obtain ⟨u, hu, rfl⟩ := List.mem_map.mp ht
    refine ⟨Task.informed_informed _ _ u, fun polls hpause => ?_⟩
    cases u with
    | pause polls' => exact (h.current _ hu).2 polls' rfl
    | _ => exact Task.noConfusion hpause
  · rw [← List.map_tail, Task.map_informed_of_fresh _ _ h.fresh]
    exact h.fresh
  · intro t standing rest htodo
    cases todo with
    | nil => exact absurd htodo (by simp)
    | cons u others =>
      cases u with
      | await t' standing' =>
        obtain rfl : t' = t := (Task.await.inj (List.cons.inj htodo).1).1
        exact h.awaited t' standing' others rfl
      | _ => exact Task.noConfusion (List.cons.inj htodo).1
  · intro F' hF'
    rw [Task.map_informed_map]
    exact h.resumes F' ((Ledger.extends_enter F ticket now hF).trans hF')

theorem Ended.release (h : Ended library n listeners F log outcomes s) (ticket : Nat)
    (now : Standing) (hF : F ticket = .waiting) :
    Ended library n listeners (F.enter ticket now) log outcomes (s.release ticket now) := by
  have hext : F.Extends (F.enter ticket now) := Ledger.extends_enter F ticket now hF
  refine ⟨?_, fun F' hF' => h.played F' (hext.trans hF'), fun F' hF' => h.ready F' (hext.trans hF')⟩
  show s.stage.inform ticket now = .over
  rw [h.stage]
  rfl

theorem Course.release (h : Course library n listeners F log outcomes s) (ticket : Nat)
    (now : Standing) (hF : F ticket = .waiting) :
    Course library n listeners (F.enter ticket now) log outcomes (s.release ticket now) := by
  cases h with
  | underway todo told h => exact .underway _ told (h.release ticket now hF)
  | ended h => exact .ended (h.release ticket now hF)

/-- Nothing has become of completions whose calls are still to come. -/
theorem Sound.ledger_fresh (h : Sound library n listeners log outcomes deeds s) :
    ∀ t, s.desk.calls ≤ t → Deed.ledger deeds t = .waiting := by
  intro t ht
  apply Deed.ledger_of_not_mem
  intro hmem
  have hlt := h.parted t hmem
  omega

/-- A poll keeps a session sound. -/
theorem Sound.poll (h : Sound library n listeners log outcomes deeds s) :
    Sound library n listeners (log ++ s.poll.log) (outcomes ++ [s.poll.outcome])
      (deeds ++ [.poll]) s.poll.session := by
  have htickets : Deed.tickets (deeds ++ [.poll]) = Deed.tickets deeds := by
    rw [Deed.tickets_append]
    exact List.append_nil _
  obtain ⟨hcalls, new, hheld, hnodup, hnew⟩ := s.grows_poll
  constructor
  case visitor => exact s.visitor_poll.trans h.visitor
  case opening => exact s.opening_poll h.opening
  case held_nodup =>
    rw [hheld, List.nodup_append]
    refine ⟨h.held_nodup, hnodup, fun t ht t' ht' he => ?_⟩
    have hlt : t < s.desk.calls := (h.held_open t ht).1
    have hle : s.desk.calls ≤ t' := (hnew t' ht').1
    omega
  case held_open =>
    intro t ht
    rw [htickets]
    rw [hheld] at ht
    rcases List.mem_append.mp ht with hearlier | hlater
    · obtain ⟨hlt, hopen⟩ := h.held_open t hearlier
      exact ⟨Nat.lt_of_lt_of_le hlt hcalls, hopen⟩
    · refine ⟨(hnew t hlater).2, fun hparted => ?_⟩
      have hlt : t < s.desk.calls := h.parted t hparted
      have hle : s.desk.calls ≤ t := (hnew t hlater).1
      omega
  case parted =>
    intro t ht
    rw [htickets] at ht
    exact Nat.lt_of_lt_of_le (h.parted t ht) hcalls
  case once =>
    rw [htickets]
    exact h.once
  case course =>
    rw [Deed.ledger_append_poll]
    exact h.course.poll h.visitor h.opening h.ledger_fresh

/-- Parting with a completion that is held keeps a session sound. -/
theorem Sound.release (h : Sound library n listeners log outcomes deeds s) (d : Deed)
    (ticket : Nat) (now : Standing) (hd : d.parting? = some (ticket, now))
    (hheld : ticket ∈ s.desk.held) :
    Sound library n listeners log outcomes (deeds ++ [d]) (s.release ticket now) := by
  have htickets : Deed.tickets (deeds ++ [d]) = Deed.tickets deeds ++ [ticket] := by
    rw [Deed.tickets_append, Deed.tickets_singleton, Deed.ticket?, hd]
    rfl
  have hledger : Deed.ledger (deeds ++ [d]) = (Deed.ledger deeds).enter ticket now := by
    rw [Deed.ledger_append_singleton, Deed.record, hd]
  obtain ⟨hlt, hopen⟩ := h.held_open ticket hheld
  constructor
  case visitor => exact h.visitor
  case opening => exact h.opening
  case held_nodup => exact h.held_nodup.erase ticket
  case held_open =>
    intro t ht
    obtain ⟨hne, hmem⟩ := (h.held_nodup.mem_erase_iff).mp ht
    refine ⟨(h.held_open t hmem).1, fun hparted => ?_⟩
    rw [htickets] at hparted
    rcases List.mem_append.mp hparted with hearlier | hlast
    · exact (h.held_open t hmem).2 hearlier
    · exact hne (List.mem_singleton.mp hlast)
  case parted =>
    intro t ht
    rw [htickets] at ht
    rcases List.mem_append.mp ht with hearlier | hlast
    · exact h.parted t hearlier
    · rw [List.mem_singleton.mp hlast]
      exact hlt
  case once =>
    rw [htickets, List.nodup_append]
    refine ⟨h.once, by simp, fun t ht t' ht' he => ?_⟩
    rw [List.mem_singleton.mp ht'] at he
    exact hopen (he ▸ ht)
  case course =>
    rw [hledger]
    exact h.course.release ticket now (Deed.ledger_of_not_mem deeds ticket hopen)

/-- So does parting with several of them, one after another. -/
theorem Sound.drop_all (held : List Nat) (h : Sound library n listeners log outcomes deeds s)
    (hnodup : held.Nodup) (hheld : ∀ t ∈ held, t ∈ s.desk.held) :
    Sound library n listeners log outcomes (deeds ++ held.map .drop)
      (held.foldl (fun s ticket => s.release ticket .lost) s) := by
  induction held generalizing deeds s with
  | nil =>
    rw [List.map_nil, List.append_nil]
    exact h
  | cons t rest ih =>
    obtain ⟨hnot, hrest⟩ := List.nodup_cons.mp hnodup
    have hone := h.release (.drop t) t .lost rfl (hheld t (List.mem_cons_self ..))
    have hstill : ∀ u ∈ rest, u ∈ (s.release t .lost).desk.held := by
      intro u hu
      apply (h.held_nodup.mem_erase_iff).mpr
      exact ⟨fun he => hnot (he ▸ hu), hheld u (List.mem_cons_of_mem _ hu)⟩
    have hall := ih hone hrest hstill
    rw [List.append_assoc] at hall
    exact hall

theorem Sound.weaken (h : Sound library n listeners log outcomes deeds s)
    (hsub : outcomes ⊆ outcomes') : Sound library n listeners log outcomes' deeds s :=
  { h with course := h.course.weaken hsub }

theorem Sound.releaseAt (h : Sound library n listeners log outcomes deeds s) (position : Nat)
    (now : Standing) (outcome : Outcome) (deed : Nat → Deed)
    (hdeed : ∀ t, (deed t).parting? = some (t, now)) :
    Sound library n listeners log outcomes
      (deeds ++ (s.desk.held[position]?).toList.map deed)
      (s.releaseAt position now outcome).session := by
  cases hp : s.desk.held[position]? with
  | none =>
    simp only [Session.releaseAt, hp, Option.toList_none, List.map_nil, List.append_nil]
    exact h
  | some t =>
    simp only [Session.releaseAt, hp, Option.toList_some, List.map_cons, List.map_nil]
    exact h.release (deed t) t now (hdeed t) (List.mem_of_getElem? hp)

theorem Sound.act (h : Sound library n listeners log outcomes deeds s) (a : Action)
    (ha : a ≠ .abandon) :
    Sound library n listeners (log ++ (s.act a).log) (outcomes ++ [(s.act a).outcome])
      (deeds ++ s.deeds a) (s.act a).session := by
  cases a with
  | poll => exact h.poll
  | signal position signal =>
    rw [s.log_act _ Action.noConfusion, List.append_nil]
    exact (h.releaseAt position (.settled signal.result) .signalled (.signal · signal)
      fun _ => rfl).weaken (List.subset_append_left _ _)
  | discard position =>
    rw [s.log_act _ Action.noConfusion, List.append_nil]
    exact (h.releaseAt position .lost .dropped .drop fun _ => rfl).weaken
      (List.subset_append_left _ _)
  | discardAll =>
    rw [s.log_act _ Action.noConfusion, List.append_nil]
    exact (h.drop_all s.desk.held h.held_nodup fun _ ht => ht).weaken
      (List.subset_append_left _ _)
  | abandon => exact absurd rfl ha

/-- Whatever the environment does, a session stays sound. -/
theorem Sound.after (h : Sound library n listeners log outcomes deeds s)
    (actions : List Action) (ha : .abandon ∉ actions) :
    Sound library n listeners (log ++ s.logAll actions) (outcomes ++ s.outcomes actions)
      (deeds ++ s.deedsAll actions) (s.after actions) := by
  -- log, outcomes and deeds have grown by the first action when the others are taken
  induction actions generalizing log outcomes deeds s with
  | nil =>
    simpa [Session.logAll, Session.outcomes, Session.actAll, Session.deedsAll, Session.after]
      using h
  | cons a rest ih =>
    have hact := h.act a fun he => ha (he ▸ List.mem_cons_self ..)
    have hrest := ih hact fun hmem => ha (List.mem_cons_of_mem _ hmem)
    simp only [List.append_assoc] at hrest
    exact hrest

/-- How a walk stands after any actions of its environment. -/
theorem sound_walk (library : Library) (n : Node) (listeners : List L) (actions : List Action)
    (ha : .abandon ∉ actions) :
    let s := Session.ofNode library n listeners
    Sound library n listeners (s.logAll actions) (s.outcomes actions) (s.deedsAll actions)
      (s.after actions) :=
  Sound.ofNode.after actions ha

end

end FeatureRun
