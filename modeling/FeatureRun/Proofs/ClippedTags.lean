import FeatureRun.Proofs.Encoding
import FeatureRun.Proofs.TagWalk

namespace FeatureRun

open Listener (after after_cons after_append take_eq_of_steady)
open Text (bytes Ascii bytes_of_ascii)

namespace TagLog

/-- A text written in as many goes as it takes, with what is written already and the room there is.
A writer takes what still fits, and it is an error if that is nothing. -/
def pour (written text : List Char) (room : Nat) : List Char × Nat × Bool :=
  if text = [] then (written, room, true)
  else if room = 0 then (written, 0, false)
  else pour (written ++ text.take room) (text.drop room) (room - (text.take room).length)
termination_by text.length
decreasing_by
  have htext : 0 < text.length := List.length_pos_iff.mpr ‹_›
  rw [List.length_drop]
  omega

theorem pour_eq (written text : List Char) (room : Nat) :
    pour written text room =
      (written ++ text.take room, room - (text.take room).length, decide (text.length ≤ room)) := by
  rw [pour]
  by_cases htext : text = []
  · simp [htext]
  · have hlength : 0 < text.length := List.length_pos_iff.mpr htext
    rw [if_neg htext]
    by_cases hroom : room = 0
    · have hlong : ¬ text.length ≤ 0 := by omega
      simp [hroom, htext]
    · rw [if_neg hroom, pour]
      by_cases hfits : text.length ≤ room
      · have hdrop : text.drop room = [] := List.drop_eq_nil_of_le hfits
        rw [if_pos hdrop, decide_eq_true hfits]
      · have hdrop : text.drop room ≠ [] := fun h => hfits (List.drop_eq_nil_iff.mp h)
        have hfull : room - (text.take room).length = 0 := by
          rw [List.length_take]
          omega
        rw [if_neg hdrop, hfull, if_pos rfl, decide_eq_false hfits]

/-- Writing a text is writing it in goes. -/
theorem write_eq_pour (text output : String) (room : Nat) :
    write text { output, room := some room } =
      let (written, left, done) := pour output.toList text.toList room
      ({ output := String.ofList written, room := some left }, done) := by
  have houtput : output ++ String.ofList (text.toList.take room) =
      String.ofList (output.toList ++ text.toList.take room) := by
    rw [String.ofList_append, String.ofList_toList]
  simp only [pour_eq, write, houtput, String.length_toList]

theorem notice_eq (n : Notice) (t : TagLog) :
    Listener.notice n t = match t.writeLine (tag n) with
      | (t, true) => .quiet t
      | (t, false) => .emit t [.traced .markupUnwritten] := rfl

/-- A log that has been clipped at a capacity, beside one that has not. -/
structure Clipped (capacity : Nat) (t u : TagLog) : Prop where
  output : t.output.toList = u.output.toList.take capacity
  room : t.room = some (capacity - u.output.length)
  unlimited : u.room = none

variable {capacity : Nat} {t u : TagLog}

namespace Clipped

theorem write (h : Clipped capacity t u) (text : String) :
    Clipped capacity (t.write text).1 { u with output := u.output ++ text } ∧
      (t.write text).2 = decide (text.length ≤ capacity - u.output.length) := by
  rcases t with ⟨output, room⟩
  obtain ⟨houtput, hroom, hunlimited⟩ := h
  obtain rfl : room = some (capacity - u.output.length) := hroom
  refine ⟨⟨?_, ?_, hunlimited⟩, rfl⟩
  · have hwritten :
        (output ++ String.ofList (text.toList.take (capacity - u.output.length))).toList =
          u.output.toList.take capacity ++ text.toList.take (capacity - u.output.length) := by
      rw [String.toList_append, String.toList_ofList, houtput]
    rw [String.toList_append, List.take_append, String.length_toList]
    exact hwritten
  · have hleft : capacity - u.output.length -
        (text.toList.take (capacity - u.output.length)).length =
          capacity - (u.output ++ text).length := by
      rw [List.length_take, String.length_toList, String.length_append]
      omega
    exact congrArg some hleft

/-- What is written beyond the capacity changes nothing. -/
theorem beyond (h : Clipped capacity t u) (hfull : capacity ≤ u.output.length) (text : String) :
    Clipped capacity t { u with output := u.output ++ text } := by
  refine ⟨?_, ?_, h.unlimited⟩
  · rw [h.output, String.toList_append, List.take_append_of_le_length]
    rw [String.length_toList]
    exact hfull
  · rw [h.room, String.length_append]
    congr 1
    omega

/-- A line is written if it fits together with its line feed. -/
theorem writeLine (h : Clipped capacity t u) (line : String) :
    Clipped capacity (t.writeLine line).1 { u with output := u.output ++ line ++ "\n" } ∧
      (t.writeLine line).2 = decide ((u.output ++ line ++ "\n").length ≤ capacity) := by
  have hlength : (u.output ++ line ++ "\n").length = u.output.length + line.length + 1 := by
    rw [String.length_append, String.length_append]
    rfl
  obtain ⟨hline, hwritten⟩ := h.write line
  rcases hw : t.write line with ⟨t', done⟩
  rw [hw] at hline hwritten
  simp only [TagLog.writeLine, hw]
  cases done with
  | true =>
    obtain ⟨hfeed, hfed⟩ := hline.write "\n"
    have hfits : line.length ≤ capacity - u.output.length := of_decide_eq_true hwritten.symm
    refine ⟨hfeed, hfed.trans (decide_eq_decide.mpr ?_)⟩
    have hone : ("\n" : String).length = 1 := rfl
    rw [hlength, hone, String.length_append]
    omega
  | false =>
    have hlong : ¬ line.length ≤ capacity - u.output.length := of_decide_eq_false hwritten.symm
    refine ⟨hline.beyond ?_ "\n", (decide_eq_false ?_).symm⟩
    · rw [String.length_append]
      omega
    · rw [hlength]
      omega

theorem notice (h : Clipped capacity t u) (n : Notice) :
    let done := Listener.notice n t
    let done' := Listener.notice n u
    Clipped capacity done.state done'.state ∧ done'.log = [] ∧
      done.log = if done'.state.output.length ≤ capacity then [] else [.traced .markupUnwritten] := by
  have hunlimited : Listener.notice n u =
      .quiet { u with output := u.output ++ tag n ++ "\n" } := by
    rcases u with ⟨output, room⟩
    obtain rfl : room = none := h.unlimited
    rfl
  obtain ⟨hline, hwritten⟩ := h.writeLine (tag n)
  rw [hunlimited, notice_eq]
  rcases hw : t.writeLine (tag n) with ⟨t', done⟩
  rw [hw] at hline hwritten
  cases done with
  | true =>
    have hfits := of_decide_eq_true hwritten.symm
    exact ⟨hline, rfl, (if_pos hfits).symm⟩
  | false =>
    have hlong := of_decide_eq_false hwritten.symm
    exact ⟨hline, rfl, (if_neg hlong).symm⟩

end Clipped

/-- How many notices make a log write beyond a capacity. -/
def overflows (capacity : Nat) (u : TagLog) (ns : List Notice) : Nat :=
  (List.range ns.length).countP fun j => capacity < (after (ns.take (j + 1)) u).output.length

theorem overflows_cons (n : Notice) (ns : List Notice) (u : TagLog) :
    overflows capacity u (n :: ns) =
      (if (Listener.notice n u).state.output.length ≤ capacity then 0 else 1) +
        overflows capacity (Listener.notice n u).state ns := by
  let long (j : Nat) : Bool := decide (capacity < (after ((n :: ns).take (j + 1)) u).output.length)
  have hlater : (List.range ns.length).countP (long ∘ Nat.succ) =
      overflows capacity (Listener.notice n u).state ns := rfl
  have hfirst : (if long 0 = true then 1 else 0) =
      if (Listener.notice n u).state.output.length ≤ capacity then 0 else 1 := by
    have hone : long 0 = decide (capacity < (Listener.notice n u).state.output.length) := rfl
    by_cases hfits : (Listener.notice n u).state.output.length ≤ capacity
    · rw [hone, if_pos hfits, decide_eq_false (Nat.not_lt.mpr hfits), if_neg (by simp)]
    · rw [hone, if_neg hfits, decide_eq_true (Nat.lt_of_not_le hfits), if_pos rfl]
  have hsplit : overflows capacity u (n :: ns) =
      (List.range ns.length).countP (long ∘ Nat.succ) + if long 0 = true then 1 else 0 := by
    rw [overflows, List.length_cons, List.range_succ_eq_map, List.countP_cons, List.countP_map]
  rw [hsplit, hlater, hfirst, Nat.add_comm]

/-- Calls leave a clipped log clipped, and warn of every tag beyond the capacity. -/
theorem Clipped.takeAll (h : Clipped capacity t u) (calls : List Listener.Call) :
    Clipped capacity (Listener.takeAll calls t).state (Listener.takeAll calls u).state ∧
      (Listener.takeAll calls u).log = [] ∧
      (Listener.takeAll calls t).log =
        List.replicate (overflows capacity u (Listener.heard calls)) (.traced .markupUnwritten) := by
  induction calls generalizing t u with
  | nil => exact ⟨h, rfl, rfl⟩
  | cons c rest ih =>
    have hcalm (s : TagLog) : (Listener.take c s).panic = none := (Listener.take_of_steady c s).1
    rw [Listener.takeAll, Listener.takeAll, Effect.andThen_of_no_panic _ _ (hcalm t),
      Effect.andThen_of_no_panic _ _ (hcalm u), take_eq_of_steady, take_eq_of_steady]
    cases hc : c.notice? with
    | none =>
      have hheard : Listener.heard (c :: rest) = Listener.heard rest := List.filterMap_cons_none hc
      rw [hheard]
      exact ih h
    | some n =>
      have hheard : Listener.heard (c :: rest) = n :: Listener.heard rest :=
        List.filterMap_cons_some hc
      obtain ⟨hone, hsilent, hlog⟩ := h.notice n
      obtain ⟨hstate, hrest, hwarned⟩ := ih hone
      refine ⟨hstate, ?_, ?_⟩
      · exact (congrArg₂ (· ++ ·) hsilent hrest)
      · simp only [hlog, hwarned, hheard, overflows_cons]
        split
        · rw [List.nil_append, Nat.zero_add]
        · rw [List.replicate_add]
          rfl

/-- Nothing more is written where there is no room, and every tag is warned of. -/
theorem takeAll_of_full (output : String) (calls : List Listener.Call) :
    Listener.takeAll calls ({ output, room := some 0 } : TagLog) =
      ⟨{ output, room := some 0 },
        List.replicate (Listener.heard calls).length (.traced .markupUnwritten), none⟩ := by
  have hnotice (n : Notice) : Listener.notice n ({ output, room := some 0 } : TagLog) =
      .emit { output, room := some 0 } [.traced .markupUnwritten] := by
    have hall : ∀ t ∈ Tag.all, t.line.length ≠ 0 := by decide +kernel
    have hlength : (tag n).length ≠ 0 := by
      rw [tag_eq_line, String.length_ofList]
      exact hall _ (Tag.mem_all _)
    have hline : ({ output, room := some 0 } : TagLog).writeLine (tag n) =
        ({ output, room := some 0 }, false) := by
      have hnothing : output ++ String.ofList [] = output := String.append_empty
      simp [writeLine, write, hnothing, hlength]
    rw [notice_eq, hline]
  induction calls with
  | nil => rfl
  | cons c rest ih =>
    rw [Listener.takeAll, take_eq_of_steady]
    cases hc : c.notice? with
    | none =>
      have hheard : Listener.heard (c :: rest) = Listener.heard rest := List.filterMap_cons_none hc
      rw [hheard, Effect.quiet_andThen, ih]
    | some n =>
      have hheard : Listener.heard (c :: rest) = n :: Listener.heard rest :=
        List.filterMap_cons_some hc
      rw [hheard]
      simp only [hnotice]
      rw [Effect.andThen_of_no_panic _ _ rfl]
      simp only [Effect.emit, ih, List.length_cons, List.replicate_succ, List.singleton_append]

theorem ascii_write (tags : List Tag) : Ascii (Tag.write tags) := by
  have hall : ∀ t ∈ Tag.all, t.line.all (fun c => c.toNat < 128) = true := by decide +kernel
  intro c hc
  rw [Tag.write, Text.written, String.toList_ofList] at hc
  obtain ⟨l, hl, hc⟩ := List.mem_flatMap.mp hc
  obtain ⟨t, _, rfl⟩ := List.mem_map.mp hl
  rcases List.mem_append.mp hc with hc | hc
  · exact of_decide_eq_true (List.all_eq_true.mp (hall t t.mem_all) c hc)
  · obtain rfl := List.mem_singleton.mp hc
    decide

/-- How many tags end beyond a number of bytes, where they are written to a text. -/
def endBeyond (capacity : Nat) (ns : List Notice) : Nat :=
  (List.range ns.length).countP fun j =>
    capacity < (bytes (after (ns.take (j + 1)) ({} : TagLog)).output).length

theorem ascii_output (ns : List Notice) : Ascii (after ns ({} : TagLog)).output := by
  rw [output_after]
  exact ascii_write _

theorem length_bytes_of_ascii (text : String) (h : Ascii text) :
    (bytes text).length = text.length := by
  rw [bytes_of_ascii text h, List.length_map, String.length_toList]

theorem overflows_new (capacity : Nat) (ns : List Notice) :
    overflows capacity {} ns = endBeyond capacity ns := by
  rw [overflows, endBeyond]
  apply List.countP_congr
  intro j _
  rw [length_bytes_of_ascii _ (ascii_output _)]

/-- What is written first is no longer than all that is written. -/
theorem length_output_take_le (ns : List Notice) (k : Nat) :
    (after (ns.take k) ({} : TagLog)).output.length ≤ (after ns ({} : TagLog)).output.length := by
  have hsplit : Tag.write (ns.map Tag.ofNotice) =
      Tag.write ((ns.take k).map Tag.ofNotice) ++ Tag.write ((ns.drop k).map Tag.ofNotice) := by
    rw [← Tag.write_append, ← List.map_append, List.take_append_drop]
  rw [output_after, output_after, hsplit, String.length_append]
  exact Nat.le_add_right _ _

theorem clipped_new (capacity : Nat) :
    Clipped capacity ({ room := some capacity } : TagLog) ({} : TagLog) := by
  refine ⟨?_, rfl, rfl⟩
  exact List.take_nil.symm

/-- Once a log has warned, its writer is full. -/
theorem full_of_warned (capacity : Nat) (calls : List Listener.Call)
    (h : (Listener.takeAll calls ({ room := some capacity } : TagLog)).log ≠ []) :
    (Listener.takeAll calls ({ room := some capacity } : TagLog)).state.room = some 0 := by
  obtain ⟨hclipped, _, hlog⟩ := (clipped_new capacity).takeAll calls
  rw [hlog] at h
  have hcount : 0 < overflows capacity {} (Listener.heard calls) := by
    apply Nat.pos_of_ne_zero
    intro hzero
    exact h (by rw [hzero, List.replicate_zero])
  obtain ⟨j, _, hlong⟩ := List.countP_pos_iff.mp hcount
  have hbeyond := of_decide_eq_true hlong
  have hall := length_output_take_le (Listener.heard calls) (j + 1)
  rw [hclipped.room, (Listener.takeAll_of_steady calls _).2]
  congr 1
  omega

/-- The bytes of a clipped log are the first ones of a log that writes tags to a text. -/
theorem Clipped.bytes_eq (h : Clipped capacity t u) (hascii : Ascii u.output) :
    bytes t.output = (bytes u.output).take capacity := by
  have hclipped : Ascii t.output := by
    intro c hc
    rw [h.output] at hc
    exact hascii c (List.mem_of_mem_take hc)
  rw [bytes_of_ascii _ hclipped, bytes_of_ascii _ hascii, h.output, List.map_take]

theorem takeAll_limited (capacity : Nat) (calls : List Listener.Call) :
    let limited := Listener.takeAll calls ({ room := some capacity } : TagLog)
    let text := Listener.takeAll calls ({} : TagLog)
    limited.panic = none ∧ text.panic = none ∧ text.log = [] ∧
      bytes limited.state.output = (bytes text.state.output).take capacity ∧
      limited.log =
        List.replicate (endBeyond capacity (Listener.heard calls)) (.traced .markupUnwritten) := by
  intro limited text
  obtain ⟨hcalm, _⟩ := Listener.takeAll_of_steady calls ({ room := some capacity } : TagLog)
  obtain ⟨hcalm', htext⟩ := Listener.takeAll_of_steady calls ({} : TagLog)
  obtain ⟨hclipped, hsilent, hlog⟩ := (clipped_new capacity).takeAll calls
  have hascii : Ascii text.state.output := by
    rw [htext]
    exact ascii_output _
  rw [overflows_new] at hlog
  exact ⟨hcalm, hcalm', hsilent, hclipped.bytes_eq hascii, hlog⟩

/-- Nothing is written any more once there has been a warning, and everything is warned of. -/
theorem takeAll_behind_warning (capacity : Nat) (calls more : List Listener.Call) :
    let before := Listener.takeAll calls ({ room := some capacity } : TagLog)
    let limited := Listener.takeAll (calls ++ more) ({ room := some capacity } : TagLog)
    before.log ≠ [] → limited.state = before.state ∧
      limited.log =
        before.log ++ List.replicate (Listener.heard more).length (.traced .markupUnwritten) := by
  intro before limited hwarned
  have hcalm : before.panic = none := (Listener.takeAll_of_steady calls _).1
  have hfull : before.state = { output := before.state.output, room := some 0 } := by
    have hroom : before.state.room = some 0 := full_of_warned capacity calls hwarned
    rw [← hroom]
  have hmore := takeAll_of_full before.state.output more
  rw [← hfull] at hmore
  have hboth : limited = before.andThen (Listener.takeAll more) :=
    Listener.takeAll_append calls more _
  rw [hboth, Effect.andThen_of_no_panic _ _ hcalm, hmore]
  exact ⟨rfl, rfl⟩

theorem Clipped.hear (h : Clipped capacity t u) (m : Message) :
    Clipped capacity (Listener.hear m t).state (Listener.hear m u).state ∧
      (Listener.hear m u).log = [] ∧
      ∃ k, (Listener.hear m t).log = List.replicate k (.traced .markupUnwritten) := by
  have hone (s : TagLog) : Listener.takeAll [.hear m] s = Listener.hear m s :=
    Listener.hearAll_singleton m s
  obtain ⟨hstate, hsilent, hlog⟩ := h.takeAll [.hear m]
  rw [hone, hone] at hstate
  rw [hone] at hsilent hlog
  exact ⟨hstate, hsilent, _, hlog⟩

/-- A log on a text goes on writing tags. -/
theorem written_hear (output : String) (m : Message) :
    ∃ tags, (Listener.hear m ({ output } : TagLog)).state =
      { output := output ++ Tag.write tags } := by
  have htaken := (Listener.take_of_steady (.hear m) ({ output } : TagLog)).2
  exact ⟨_, htaken.trans (after_eq _ output)⟩

end TagLog

end FeatureRun
