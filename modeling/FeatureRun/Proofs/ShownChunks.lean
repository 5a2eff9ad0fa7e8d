import FeatureRun.Proofs.Acts
import FeatureRun.Proofs.ColoredText
import Mathlib.Data.List.Induction

namespace FeatureRun

universe u

open Listener (Steady)
open Text (Plain deleteCodes)

namespace Emission

def printed? : Emission → Option String
  | .printed text => some text
  | _ => none

def line? : Emission → Option String
  | .linePassed line => some line
  | _ => none

end Emission

/-- The texts that an event brings to those who hear of it. -/
def Event.texts : Event → List String
  | .features => []
  | .feature f => [f.keyword, f.name, f.description]
  | .scenario s => [s.keyword, s.name]
  | .step s => [s.keyword, s.name] ++ s.docString.toList
  | .stepResult r => r.error?.toList.map StepError.message

def Notice.texts (n : Notice) : List String := n.message.event.texts

namespace Act

variable {μ β γ : Type} {σ : Type u}

/-- What acts make visible one after another. -/
def emissions [Listener σ] [Owned μ σ] : List (Act μ) → σ → List Emission
  | [], _ => []
  | a :: rest, s => (a.perform s).log ++ emissions rest (a.perform s).state

theorem emissions_append [Listener σ] [Owned μ σ] (a b : List (Act μ)) (s : σ) :
    emissions (a ++ b) s = emissions a s ++ emissions b (performAll a s) := by
  induction a generalizing s with
  | nil => rfl
  | cons x rest ih =>
    rw [List.cons_append, emissions, ih, emissions, List.append_assoc]
    rfl

/-- What acts make, place by place, where each makes its own of the notices before it. -/
def pieces (piecesOf : List Notice → Act μ → List β) (acts : List (Act μ)) : List β :=
  acts.zipIdx.flatMap fun (a, i) => piecesOf (heard (acts.take i)) a

theorem pieces_concat (piecesOf : List Notice → Act μ → List β) (acts : List (Act μ)) (a : Act μ) :
    pieces piecesOf (acts ++ [a]) = pieces piecesOf acts ++ piecesOf (heard acts) a :=
  flatMap_take_concat (fun before a => piecesOf (heard before) a) acts a

theorem map_pieces (f : β → γ) (piecesOf : List Notice → Act μ → List β) (acts : List (Act μ)) :
    (pieces piecesOf acts).map f = pieces (fun ns a => (piecesOf ns a).map f) acts :=
  List.map_flatMap

/-- The texts that an act feeds in, where those of a listener's own methods are given. -/
def texts (textsOf : μ → List String) : Act μ → List String
  | .call c => c.notice?.toList.flatMap Notice.texts
  | .own method => textsOf method

theorem texts_heard_subset (textsOf : μ → List String) (acts : List (Act μ)) :
    (heard acts).flatMap Notice.texts ⊆ acts.flatMap (texts textsOf) := by
  intro t ht
  obtain ⟨n, hn, ht⟩ := List.mem_flatMap.mp ht
  obtain ⟨c, hc, hnotice⟩ := List.mem_filterMap.mp hn
  obtain ⟨a, ha, hcall⟩ := List.mem_filterMap.mp hc
  refine List.mem_flatMap.mpr ⟨a, ha, ?_⟩
  cases a with
  | own method => exact absurd hcall (by simp [call?])
  | call c' =>
    cases Option.some.inj hcall
    rw [texts, hnotice, Option.toList_some, List.flatMap_singleton]
    exact ht

/-- What one act makes of plain texts, those before it and its own, is made of acts as well. -/
theorem plain_pieces (piecesOf : List Notice → Act μ → List β) (textsOf : μ → List String)
    (P : β → Prop)
    (h : ∀ ns a, (∀ t ∈ ns.flatMap Notice.texts, Plain t) → (∀ t ∈ texts textsOf a, Plain t) →
      ∀ b ∈ piecesOf ns a, P b)
    (acts : List (Act μ)) (hacts : ∀ t ∈ acts.flatMap (texts textsOf), Plain t) :
    ∀ b ∈ pieces piecesOf acts, P b := by
  induction acts using List.reverseRecOn with
  | nil => exact List.forall_mem_nil _
  | append_singleton acts a ih =>
    rw [List.flatMap_append, List.flatMap_singleton] at hacts
    have hbefore : ∀ t ∈ acts.flatMap (texts textsOf), Plain t :=
      fun t ht => hacts t (List.mem_append_left _ ht)
    intro b hb
    rw [pieces_concat] at hb
    rcases List.mem_append.mp hb with hb | hb
    · exact ih hbefore b hb
    · apply h (heard acts) a _ _ b hb
      · exact fun t ht => hbefore t (texts_heard_subset textsOf acts ht)
      · exact fun t ht => hacts t (List.mem_append_right _ ht)

end Act

/-- A log that may be printed to a terminal and passed to a function. -/
class Displayed (σ : Type u) where
  logs : σ → String
  terminal : σ → Option Styles
  forwarded : σ → Bool

instance : Displayed ProgressLog := ⟨ProgressLog.logs, ProgressLog.terminal, fun _ => false⟩

instance : Displayed OutlineLog :=
  ⟨OutlineLog.logs, OutlineLog.terminal, OutlineLog.forwarded⟩

namespace Displayed

variable {σ : Type u} [Displayed σ]

/-- The texts that the terminal of a log, if it has one, is given for chunks. -/
def printed (p : σ) (cs : List Chunk) : List String :=
  (terminal p).toList.flatMap fun styles => cs.map (Chunk.shown styles.enabled)

/-- The texts that the function of a log, if it has one, is given for chunks. -/
def passed (p : σ) (cs : List Chunk) : List String :=
  if forwarded p then cs.map Chunk.text else []

theorem printed_append (p : σ) (a b : List Chunk) :
    printed p (a ++ b) = printed p a ++ printed p b := by
  rw [printed, printed, printed]
  cases terminal p <;> simp

theorem passed_append (p : σ) (a b : List Chunk) :
    passed p (a ++ b) = passed p a ++ passed p b := by
  rw [passed, passed, passed]
  cases forwarded p <;> simp

/-- What is done to a log adds chunks to it, and shows these wherever the log is shown. -/
structure Adds (cs : List Chunk) (p : σ) (e : Effect Emission σ) : Prop where
  logs : logs e.state = logs p ++ Chunk.join cs
  terminal : terminal e.state = terminal p
  forwarded : forwarded e.state = forwarded p
  printed : e.log.filterMap Emission.printed? = printed p cs
  passed : e.log.filterMap Emission.line? = passed p cs

namespace Adds

variable {p : σ} {e f : Effect Emission σ} {a b : List Chunk}

theorem printed_eq (h : Adds a p e) (cs : List Chunk) :
    Displayed.printed e.state cs = Displayed.printed p cs := by
  rw [Displayed.printed, Displayed.printed, h.terminal]

theorem passed_eq (h : Adds a p e) (cs : List Chunk) :
    Displayed.passed e.state cs = Displayed.passed p cs := by
  rw [Displayed.passed, Displayed.passed, h.forwarded]

/-- Nothing is added where nothing is shown and the log stays what it is. -/
theorem nothing (hlogs : Displayed.logs e.state = Displayed.logs p)
    (hterminal : Displayed.terminal e.state = Displayed.terminal p)
    (hforwarded : Displayed.forwarded e.state = Displayed.forwarded p)
    (hprinted : e.log.filterMap Emission.printed? = [])
    (hpassed : e.log.filterMap Emission.line? = []) : Adds [] p e := by
  refine ⟨?_, hterminal, hforwarded, ?_, ?_⟩
  · rw [hlogs]
    exact String.append_empty.symm
  · rw [hprinted, Displayed.printed]
    cases Displayed.terminal p <;> rfl
  · rw [hpassed, Displayed.passed]
    cases Displayed.forwarded p <;> rfl

/-- Hooks print nothing and pass nothing on. -/
theorem hooks {q : σ} (hooks : Nat) (s : Scenario)
    (hlogs : Displayed.logs q = Displayed.logs p)
    (hterminal : Displayed.terminal q = Displayed.terminal p)
    (hforwarded : Displayed.forwarded q = Displayed.forwarded p) :
    Adds [] p (Effect.emit q (hookCalls hooks s)) := by
  have hnone (f : Emission → Option String) (h : ∀ i, f (.hookCalled i s) = none) :
      (hookCalls hooks s).filterMap f = [] := by
    apply List.filterMap_eq_nil_iff.mpr
    intro e he
    obtain ⟨i, _, rfl⟩ := List.mem_map.mp he
    exact h i
  exact .nothing hlogs hterminal hforwarded (hnone _ fun _ => rfl) (hnone _ fun _ => rfl)

/-- Chunks added behind others. -/
theorem behind (h : Adds a p e) (hf : Adds b e.state f) :
    Adds (a ++ b) p ⟨f.state, e.log ++ f.log, f.panic⟩ := by
  refine ⟨?_, hf.terminal.trans h.terminal, hf.forwarded.trans h.forwarded, ?_, ?_⟩
  · have hjoin : Chunk.join (a ++ b) = Chunk.join a ++ Chunk.join b := by
      rw [Chunk.join, List.map_append, String.join_append]
      rfl
    rw [hjoin, ← String.append_assoc, ← h.logs]
    exact hf.logs
  · rw [List.filterMap_append, h.printed, hf.printed, h.printed_eq, printed_append]
  · rw [List.filterMap_append, h.passed, hf.passed, h.passed_eq, passed_append]

theorem andThen {next : σ → Effect Emission σ} (h : Adds a p e) (hcalm : e.panic = none)
    (hnext : Adds b e.state (next e.state)) : Adds (a ++ b) p (e.andThen next) := by
  rw [Effect.andThen_of_no_panic e next hcalm]
  exact h.behind hnext

end Adds

/-- A call adds what its notice adds. -/
theorem Adds.take [Listener σ] [Steady σ] (chunksOf : Notice → List Chunk) (p : σ)
    (h : ∀ n, Adds (chunksOf n) p (Listener.notice n p)) (c : Listener.Call) :
    Adds (c.notice?.toList.flatMap chunksOf) p (Listener.take c p) := by
  rw [Listener.take_eq_of_steady]
  cases c.notice? with
  | none => exact .nothing rfl rfl rfl rfl rfl
  | some n =>
    rw [Option.toList_some, List.flatMap_singleton]
    exact h n

/-- If every act adds its chunks, acts one after another add all of their chunks. -/
theorem adds_emissions {μ : Type} [Listener σ] [Owned μ σ]
    (chunksOf : List Notice → Act μ → List Chunk) (new : σ)
    (h : ∀ acts (a : Act μ), let p := Act.performAll acts new
      Adds (chunksOf (Act.heard acts) a) p (a.perform p)) (acts : List (Act μ)) :
    Adds (Act.pieces chunksOf acts) new
      ⟨Act.performAll acts new, Act.emissions acts new, none⟩ := by
  induction acts using List.reverseRecOn with
  | nil => exact .nothing rfl rfl rfl rfl rfl
  | append_singleton acts a ih =>
    have hboth := ih.behind (h acts a)
    rw [Act.pieces_concat, Act.performAll_append, Act.emissions_append]
    have hone (p : σ) : Act.emissions [a] p = (a.perform p).log := List.append_nil _
    rw [hone]
    exact ⟨hboth.logs, hboth.terminal, hboth.forwarded, hboth.printed, hboth.passed⟩

end Displayed

/-- What a terminal is given of a log of chunks. -/
structure Shows (d : Display) (cs : List Chunk) (texts : List String) (logs : String)
    (printed : List String) : Prop where
  logged : logs = Chunk.join cs
  shown : printed = if d.terminal then cs.map (Chunk.shown d.styled) else []
  plain : d.terminal = true → d.styled = false → String.join printed = logs
  erased : d.terminal = true → (∀ t ∈ texts, Plain t) →
    deleteCodes (String.join printed).toList = logs.toList

theorem shows_of_adds {σ : Type u} [Displayed σ] {p : σ} {e : Effect Emission σ} {cs : List Chunk}
    (h : Displayed.Adds cs p e) (d : Display) (texts : List String)
    (hnew : Displayed.logs p = "") (hterminal : Displayed.terminal p = d.styles?)
    (hplain : (∀ t ∈ texts, Plain t) → ∀ c ∈ cs, Plain c.logged) :
    Shows d cs texts (Displayed.logs e.state) (e.log.filterMap Emission.printed?) := by
  have hlogs : Displayed.logs e.state = Chunk.join cs := by
    rw [h.logs, hnew, String.empty_append]
  have hprinted : e.log.filterMap Emission.printed? =
      if d.terminal then cs.map (Chunk.shown d.styled) else [] := by
    rw [h.printed, Displayed.printed, hterminal, Display.styles?]
    cases d.terminal with
    | false => rfl
    | true =>
      rw [if_pos rfl, if_pos rfl, Option.toList_some, List.flatMap_singleton, d.styles_enabled]
  refine ⟨hlogs, hprinted, fun hd hs => ?_, fun hd ht => ?_⟩
  · rw [hprinted, if_pos hd, hs, Chunk.join_shown_false, hlogs]
  · rw [hprinted, if_pos hd, Chunk.deleteCodes_join _ _ (hplain ht), hlogs]

end FeatureRun
