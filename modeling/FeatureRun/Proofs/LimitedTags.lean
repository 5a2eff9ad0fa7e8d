import FeatureRun.Proofs.ClippedTags
import FeatureRun.Proofs.Simulation

namespace FeatureRun

universe u

open Text (bytes)

namespace Occurrence

/-- All but the warnings of tags that could not be written. -/
def unwarned? : Occurrence → Option Occurrence
  | .emitted _ (.traced .markupUnwritten) => none
  | o => some o

/-- What shows nothing of what listeners emit does not need the warnings. -/
theorem bind_unwarned {β : Type u} (f : Occurrence → Option β) (hf : ∀ i e, f (.emitted i e) = none)
    (o : Occurrence) : (unwarned? o).bind f = f o := by
  unfold unwarned?
  split
  · exact (hf _ _).symm
  · rfl

theorem filterMap_unwarned (k i : Nat) :
    ((List.replicate k (.traced .markupUnwritten)).map (Occurrence.emitted i)).filterMap unwarned? =
      [] := by
  rw [List.map_replicate]
  apply List.filterMap_eq_nil_iff.mpr
  intro o ho
  rw [List.eq_of_mem_replicate ho]
  rfl

end Occurrence

section

variable {τ : Type u}

/-- A listener whose writer, if it is a tag log, takes any number of bytes. -/
def unlimited : TagLog ⊕ τ → TagLog ⊕ τ := Sum.map (fun t => { t with room := none }) id

/-- How a listener that was attached as given stands to its counterpart with an unlimited writer. -/
def Counterpart : TagLog ⊕ τ → TagLog ⊕ τ → TagLog ⊕ τ → Prop
  | .inl new, l, l' => ∃ t tags,
      let u : TagLog := { output := new.output ++ Tag.write tags }
      l = .inl t ∧ l' = .inl u ∧
        match new.room with
        | some room => TagLog.Clipped (new.output.length + room) t u
        | none => t = u
  | .inr _, l, l' => ∃ s, l = .inr s ∧ l' = .inr s

theorem counterpart_unlimited (l : TagLog ⊕ τ) : Counterpart l l (unlimited l) := by
  rcases l with ⟨output, room⟩ | s
  · have hnothing : output ++ Tag.write [] = output := String.append_empty
    refine ⟨⟨output, room⟩, [], rfl, ?_, ?_⟩
    · rw [hnothing]
      rfl
    · cases room with
      | none => exact congrArg (TagLog.mk · none) hnothing.symm
      | some room =>
        simp only [hnothing]
        refine ⟨?_, congrArg some (Nat.add_sub_cancel_left _ _).symm, rfl⟩
        rw [List.take_of_length_le]
        rw [String.length_toList]
        exact Nat.le_add_right _ _
  · exact ⟨s, rfl, rfl⟩

theorem paired_unlimited (listeners : List (TagLog ⊕ τ)) :
    Paired (listeners.map Counterpart) listeners (listeners.map unlimited) := by
  induction listeners with
  | nil => exact .nil
  | cons l rest ih => exact .cons _ _ _ _ _ _ (counterpart_unlimited l) ih

variable [Listener τ]

theorem kept_counterpart (new : TagLog ⊕ τ) :
    Listener.Kept Occurrence.unwarned? (Counterpart new) := by
  rcases new with ⟨written, room⟩ | new
  · have hcalm (m : Message) (t : TagLog) : (Listener.hear m t).panic = none :=
      (Listener.take_of_steady (.hear m) t).1
    constructor
    case state =>
      rintro m _ _ ⟨t, tags, rfl, rfl, h⟩
      obtain ⟨more, hmore⟩ := TagLog.written_hear (written ++ Tag.write tags) m
      rw [String.append_assoc, ← Tag.write_append] at hmore
      refine ⟨(Listener.hear m t).state, tags ++ more, rfl, congrArg Sum.inl hmore, ?_⟩
      cases room with
      | none =>
        obtain rfl := h
        exact hmore
      | some room =>
        obtain ⟨hclipped, _⟩ := TagLog.Clipped.hear h m
        rw [hmore] at hclipped
        exact hclipped
    case log =>
      rintro m _ _ i ⟨t, tags, rfl, rfl, h⟩
      cases room with
      | none =>
        obtain rfl := h
        rfl
      | some room =>
        obtain ⟨_, hsilent, k, hwarned⟩ := TagLog.Clipped.hear h m
        have hleft : (Listener.hear m (Sum.inl t : TagLog ⊕ τ)).log =
            List.replicate k (.traced .markupUnwritten) := hwarned
        have hright : (Listener.hear m (Sum.inl { output := written ++ Tag.write tags } :
            TagLog ⊕ τ)).log = [] := hsilent
        rw [hleft, hright, Occurrence.filterMap_unwarned]
        rfl
    case panic =>
      rintro m _ _ ⟨t, tags, rfl, rfl, _⟩
      exact (hcalm m t).trans (hcalm m _).symm
  · constructor
    case state =>
      rintro m _ _ ⟨s, rfl, rfl⟩
      exact ⟨(Listener.hear m s).state, rfl, rfl⟩
    case log =>
      rintro m _ _ i ⟨s, rfl, rfl⟩
      rfl
    case panic =>
      rintro m _ _ ⟨s, rfl, rfl⟩
      rfl

theorem walks_alike_but_for_warnings (library : Library) (n : Node)
    (listeners : List (TagLog ⊕ τ)) (actions : List Action) :
    let walk := Session.ofNode library n listeners
    let walk' := Session.ofNode library n (listeners.map unlimited)
    walk.outcomes actions = walk'.outcomes actions ∧
      (walk.logAll actions).filterMap Occurrence.unwarned? =
        (walk'.logAll actions).filterMap Occurrence.unwarned? ∧
      Paired (listeners.map Counterpart) (walk.after actions).desk.world
        (walk'.after actions).desk.world := by
  apply mirrored_walks
  · intro r hr
    obtain ⟨l, _, rfl⟩ := List.mem_map.mp hr
    exact kept_counterpart l
  · exact paired_unlimited listeners

/-- A tag log on a writer that takes a number of bytes in all has written, after any calls, as much
of what a log on a text has written, and has warned of the tags that end beyond. Once it has warned it
writes nothing more and warns of every tag. In a walk nothing else differs from a walk whose writers
are unlimited. -/
theorem limited_writers_cut_tags (capacity : Nat) (calls : List Listener.Call) (library : Library)
    (n : Node) (listeners : List (TagLog ⊕ τ)) (actions : List Action) :
    (∀ k, let limited := Listener.takeAll (calls.take k) ({ room := some capacity } : TagLog)
      let text := Listener.takeAll (calls.take k) ({} : TagLog)
      limited.panic = none ∧ text.panic = none ∧ text.log = [] ∧
      bytes limited.state.output = (bytes text.state.output).take capacity ∧
      limited.log = List.replicate
        (TagLog.endBeyond capacity (Listener.heard (calls.take k))) (.traced .markupUnwritten)) ∧
    (∀ j k, j ≤ k →
      let before := Listener.takeAll (calls.take j) ({ room := some capacity } : TagLog)
      let limited := Listener.takeAll (calls.take k) ({ room := some capacity } : TagLog)
      before.log ≠ [] → limited.state = before.state ∧
        limited.log = before.log ++ List.replicate
          (Listener.heard ((calls.take k).drop j)).length (.traced .markupUnwritten)) ∧
    let walk := Session.ofNode library n listeners
    let walk' := Session.ofNode library n (listeners.map unlimited)
    let log := walk.logAll actions
    let log' := walk'.logAll actions
    let world : List (TagLog ⊕ τ) := (walk.after actions).desk.world
    let world' : List (TagLog ⊕ τ) := (walk'.after actions).desk.world
    walk.outcomes actions = walk'.outcomes actions ∧
    log.filterMap Occurrence.unwarned? = log'.filterMap Occurrence.unwarned? ∧
    Occurrence.messages log = Occurrence.messages log' ∧
    Occurrence.calls log = Occurrence.calls log' ∧
    Occurrence.deliveries log = Occurrence.deliveries log' ∧
    (∀ (k : Nat) (s : τ), listeners[k]? = some (.inr s) →
      ∃ s', world[k]? = some (.inr s') ∧ world'[k]? = some (.inr s')) ∧
    ∀ k room : Nat, listeners[k]? = some (.inl { room := some room }) →
      ∃ t u, world[k]? = some (.inl t) ∧ world'[k]? = some (.inl u) ∧
        bytes t.output = (bytes u.output).take room := by
  refine ⟨fun k => TagLog.takeAll_limited capacity _, ?_, ?_⟩
  · intro j k hjk before limited hwarned
    have hsplit : calls.take k = calls.take j ++ (calls.take k).drop j := by
      have htake : (calls.take k).take j = calls.take j := by
        rw [List.take_take, Nat.min_eq_left hjk]
      rw [← htake, List.take_append_drop]
    have hbehind := TagLog.takeAll_behind_warning capacity (calls.take j) ((calls.take k).drop j)
    rw [← hsplit] at hbehind
    exact hbehind hwarned
  · intro walk walk' log log' world world'
    obtain ⟨houtcomes, hlog, hpaired⟩ := walks_alike_but_for_warnings library n listeners actions
    refine ⟨houtcomes, hlog, ?_, ?_, ?_, fun k s hk => ?_, fun k room hk => ?_⟩
    · exact filterMap_eq_of_view hlog _ (Occurrence.bind_unwarned _ fun _ _ => rfl)
    · exact filterMap_eq_of_view hlog _ (Occurrence.bind_unwarned _ fun _ _ => rfl)
    · exact filterMap_eq_of_view hlog _ (Occurrence.bind_unwarned _ fun _ _ => rfl)
    · have hr : (listeners.map Counterpart)[k]? = some (Counterpart (.inr s)) := by
        rw [List.getElem?_map, hk]
        rfl
      obtain ⟨l, l', hl, hl', s', rfl, rfl⟩ := hpaired.getElem? k _ hr
      exact ⟨s', hl, hl'⟩
    · have hr : (listeners.map Counterpart)[k]? =
          some (Counterpart (.inl { room := some room })) := by
        rw [List.getElem?_map, hk]
        rfl
      obtain ⟨l, l', hl, hl', t, tags, rfl, rfl, hclipped⟩ := hpaired.getElem? k _ hr
      have hwritten : ("" : String) ++ Tag.write tags = Tag.write tags := String.empty_append
      have hroom : ("" : String).length + room = room := Nat.zero_add room
      simp only [hwritten, hroom] at hclipped
      refine ⟨t, _, hl, hl', ?_⟩
      simp only [hwritten]
      exact hclipped.bytes_eq (TagLog.ascii_write tags)

end

/-- The second line fits without its line feed, and a message that amounts to no notice is no tag. In
the walk the log is attached behind statistics. -/
theorem lineFeed_cut :
    let f : Feature := { keyword := "F", name := "f", description := "" }
    let calls : List Listener.Call := [.notice .beforeFeatures, .hear (.before (.feature f)),
      .hear ⟨.instant, .feature f⟩, .notice (.afterFeature f)]
    let new : TagLog := { room := some 22 }
    let before := Listener.takeAll (calls.take 2) new
    let limited := Listener.takeAll (calls.take 4) new
    let listeners : List (TagLog ⊕ Statistics) := [.inr {}, .inl new]
    let walk := Session.ofNode obedientLibrary (.features [f]) listeners
    let walk' := Session.ofNode obedientLibrary (.features [f]) (listeners.map unlimited)
    let world : List (TagLog ⊕ Statistics) := (walk.after [.poll]).desk.world
    let world' : List (TagLog ⊕ Statistics) := (walk'.after [.poll]).desk.world
    2 ≤ 4 ∧ before.state.output = "<features>\n  <feature>" ∧
      before.log = [.traced .markupUnwritten] ∧ limited.state = before.state ∧
      limited.log = [.traced .markupUnwritten, .traced .markupUnwritten] ∧
      listeners[0]? = some (.inr {}) ∧ listeners[1]? = some (.inl new) ∧
      (∃ s, world[0]? = some (.inr s) ∧ world'[0]? = some (.inr s)) ∧
      ∃ t u, world[1]? = some (.inl t) ∧ world'[1]? = some (.inl u) ∧
        bytes t.output = (bytes u.output).take 22 := by
  intro f calls new before limited listeners walk walk' world world'
  obtain ⟨_, hlater, hwalks⟩ := limited_writers_cut_tags 22 calls obedientLibrary (.features [f])
    listeners [.poll]
  obtain ⟨_, _, _, _, _, hothers, htags⟩ := hwalks
  have hwarned : before.log = [.traced .markupUnwritten] := by decide +kernel
  obtain ⟨hstate, hlog⟩ := hlater 2 4 (by decide) (by rw [hwarned]; exact List.cons_ne_nil _ _)
  have hmore : List.replicate (Listener.heard ((calls.take 4).drop 2)).length
      (Emission.traced .markupUnwritten) = [.traced .markupUnwritten] := by decide
  refine ⟨by decide, by decide +kernel, hwarned, hstate, ?_, rfl, rfl, hothers 0 {} rfl,
    htags 1 22 rfl⟩
  exact hlog.trans (congrArg₂ (· ++ ·) hwarned hmore)

end FeatureRun
