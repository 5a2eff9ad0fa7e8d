import Mathlib.Algebra.Ring.Nat
import FeatureRun.Proofs.Summary
import FeatureRun.Proofs.SuspendedWalk
import FeatureRun.Proofs.WrittenLines

namespace FeatureRun

open Listener (after after_append)

namespace Summary

/-- Letters and digits, and one of them at least. -/
def IsWord (w : List Char) : Prop := w ≠ [] ∧ ∀ c ∈ w, c.isAlphanum = true

instance (w : List Char) : Decidable (IsWord w) :=
  decidable_of_iff ((!w.isEmpty && w.all Char.isAlphanum) = true) (by simp [IsWord])

def words (cs : List Char) : List (List Char) :=
  (cs.splitOnP fun c => !c.isAlphanum).filter fun w => !w.isEmpty

theorem words_append_cons (cs : List Char) (c : Char) (rest : List Char)
    (hc : c.isAlphanum = false) : words (cs ++ c :: rest) = words cs ++ words rest := by
  rw [words, List.splitOnP_append_cons cs rest (by rw [hc]; rfl), List.filter_append]
  rfl

theorem words_cons (c : Char) (rest : List Char) (hc : c.isAlphanum = false) :
    words (c :: rest) = words rest :=
  words_append_cons [] c rest hc

theorem IsWord.words_eq {w : List Char} (h : IsWord w) : words w = [w] := by
  have hwhole : w.splitOnP (fun c => !c.isAlphanum) = [w] :=
    List.splitOnP_eq_singleton fun c hc => by rw [h.2 c hc]; rfl
  have hsome : (!w.isEmpty) = true := by simpa using h.1
  rw [words, hwhole, List.filter_singleton, hsome]
  rfl

theorem IsWord.lineFeed_not_mem {w : List Char} (h : IsWord w) : '\n' ∉ w :=
  fun hmem => absurd (h.2 _ hmem) (by decide)

theorem IsWord.concat {w : List Char} (h : IsWord w) (c : Char) (hc : c.isAlphanum = true) :
    IsWord (w ++ [c]) := by
  refine ⟨List.concat_ne_nil c w, fun d hd => ?_⟩
  rcases List.mem_append.mp hd with hd | hd
  · exact h.2 d hd
  · obtain rfl := List.mem_singleton.mp hd
    exact hc

theorem isWord_number (n : Nat) : IsWord (toString n).toList := by
  have hdigits : (toString n).toList = Nat.toDigits 10 n := Nat.toList_repr
  rw [hdigits]
  refine ⟨Nat.toDigits_ne_nil, fun c hc => ?_⟩
  have hdigit := Nat.isDigit_of_mem_toDigits (by decide) (by decide) hc
  rw [Char.isAlphanum, hdigit, Bool.or_true]

/-- The number that a word is. -/
def number? (w : List Char) : Option Nat :=
  if w.all Char.isDigit then some (Nat.ofDigitChars 10 w 0) else none

theorem number?_toString (n : Nat) : number? (toString n).toList = some n := by
  have hdigits : (toString n).toList = Nat.toDigits 10 n := Nat.toList_repr
  have hall : (Nat.toDigits 10 n).all Char.isDigit = true :=
    List.all_eq_true.mpr fun c hc => Nat.isDigit_of_mem_toDigits (by decide) (by decide) hc
  rw [hdigits, number?, if_pos hall, Nat.ofDigitChars_ten_toDigits]

/-- A total, what it counts, and the entries it is made up of. -/
structure Line where
  total : Nat
  unit : String
  entries : List (Nat × String)
  deriving DecidableEq, Repr

namespace Line

/-- A number and what there are so many of. -/
def entryText (entry : Nat × String) : String := toString entry.1 ++ " " ++ entry.2

/-- A line as it is written: without entries it has no parentheses. -/
def text (l : Line) : String :=
  match l.entries with
  | [] => entryText (l.total, l.unit)
  | entries =>
    entryText (l.total, l.unit) ++ " (" ++ ", ".intercalate (entries.map entryText) ++ ")"

/-- Entries read from their words. -/
def entries? : List (List Char) → Option (List (Nat × String))
  | [] => some []
  | [_] => none
  | n :: name :: rest => do
    let count ← number? n
    let others ← entries? rest
    return (count, String.ofList name) :: others

/-- A line read from its words. -/
def ofText? (text : String) : Option Line :=
  match words text.toList with
  | n :: unit :: rest => do
    let total ← number? n
    let entries ← entries? rest
    return ⟨total, String.ofList unit, entries⟩
  | _ => none

/-- All that is counted is named by one word. -/
structure Plain (l : Line) : Prop where
  unit : IsWord l.unit.toList
  entries : ∀ entry ∈ l.entries, IsWord entry.2.toList

theorem words_entryText (entry : Nat × String) (h : IsWord entry.2.toList) :
    words (entryText entry).toList = [(toString entry.1).toList, entry.2.toList] := by
  have htext : (entryText entry).toList = (toString entry.1).toList ++ ' ' :: entry.2.toList := by
    simp [entryText]
  rw [htext, words_append_cons _ _ _ rfl, (isWord_number entry.1).words_eq, h.words_eq]
  rfl

theorem words_entries (entries : List (Nat × String))
    (h : ∀ entry ∈ entries, IsWord entry.2.toList) :
    words (", ".intercalate (entries.map entryText)).toList =
      entries.flatMap fun entry => [(toString entry.1).toList, entry.2.toList] := by
  induction entries with
  | nil => rfl
  | cons entry rest ih =>
    have hentry := words_entryText entry (h entry (List.mem_cons_self ..))
    cases rest with
    | nil =>
      rw [List.map_singleton, String.intercalate_singleton, hentry]
      rfl
    | cons next others =>
      have hrest := ih fun e he => h e (List.mem_cons_of_mem entry he)
      have hparted : (", ".intercalate ((entry :: next :: others).map entryText)).toList =
          (entryText entry).toList ++
            ',' :: ' ' :: (", ".intercalate ((next :: others).map entryText)).toList := by
        simp [String.intercalate_cons_cons]
      rw [hparted, words_append_cons _ _ _ rfl, words_cons _ _ rfl, hrest, hentry]
      rfl

theorem words_text (l : Line) (h : l.Plain) :
    words l.text.toList = (toString l.total).toList :: l.unit.toList ::
      l.entries.flatMap fun entry => [(toString entry.1).toList, entry.2.toList] := by
  obtain ⟨total, unit, entries⟩ := l
  have hhead := words_entryText (total, unit) h.unit
  cases entries with
  | nil => exact hhead
  | cons entry rest =>
    have htext : (text ⟨total, unit, entry :: rest⟩).toList =
        (entryText (total, unit)).toList ++ ' ' :: '(' ::
          ((", ".intercalate ((entry :: rest).map entryText)).toList ++ ')' :: []) := by
      simp [text]
    rw [htext, words_append_cons _ ' ' _ rfl, words_cons _ _ rfl, words_append_cons _ ')' _ rfl,
      hhead, words_entries _ h.entries]
    exact congrArg (_ :: _ :: ·) (List.append_nil _)

theorem entries?_flatMap (entries : List (Nat × String)) :
    entries? (entries.flatMap fun entry => [(toString entry.1).toList, entry.2.toList]) =
      some entries := by
  induction entries with
  | nil => rfl
  | cons entry rest ih =>
    have hnumber := number?_toString entry.1
    simp only [List.flatMap_cons, List.cons_append, List.nil_append, entries?, hnumber, ih,
      String.ofList_toList]
    rfl

/-- A line is read as the one that was written. -/
theorem ofText?_text (l : Line) (h : l.Plain) : ofText? l.text = some l := by
  have hnumber := number?_toString l.total
  simp only [ofText?, words_text l h, hnumber, entries?_flatMap, String.ofList_toList]
  rfl

theorem lineFeed_not_mem_entryText (entry : Nat × String) (h : IsWord entry.2.toList) :
    '\n' ∉ (entryText entry).toList := by
  have hnumber := (isWord_number entry.1).lineFeed_not_mem
  have hname := h.lineFeed_not_mem
  simp only [entryText, String.toList_append, List.mem_append, not_or]
  exact ⟨⟨hnumber, by decide⟩, hname⟩

theorem lineFeed_not_mem_entries (entries : List (Nat × String))
    (h : ∀ entry ∈ entries, IsWord entry.2.toList) :
    '\n' ∉ (", ".intercalate (entries.map entryText)).toList := by
  induction entries with
  | nil => exact List.not_mem_nil
  | cons entry rest ih =>
    have hentry := lineFeed_not_mem_entryText entry (h entry (List.mem_cons_self ..))
    cases rest with
    | nil => rwa [List.map_singleton, String.intercalate_singleton]
    | cons next others =>
      have hrest := ih fun e he => h e (List.mem_cons_of_mem entry he)
      simp only [List.map_cons, String.intercalate_cons_cons, String.toList_append,
        List.mem_append, not_or] at hrest ⊢
      exact ⟨⟨hentry, by decide⟩, hrest⟩

theorem lineFeed_not_mem_text (l : Line) (h : l.Plain) : '\n' ∉ l.text.toList := by
  obtain ⟨total, unit, entries⟩ := l
  have hhead := lineFeed_not_mem_entryText (total, unit) h.unit
  have hentries := lineFeed_not_mem_entries entries h.entries
  cases entries with
  | nil => exact hhead
  | cons entry rest =>
    simp only [text, String.toList_append, List.mem_append, not_or]
    exact ⟨⟨⟨hhead, by decide⟩, hentries⟩, by decide⟩

/-- What the entries of one name come to. -/
def count (name : String) (l : Line) : Nat :=
  ((l.entries.filter (·.2 = name)).map Prod.fst).sum

def counts (l : Line) : Counts := ⟨l.count "passed", l.count "undefined", l.count "failed"⟩

end Line

end Summary

open Summary (IsWord Line)

namespace Counts

/-- What the line of a summary is made of. -/
def line (noun : String) (c : Counts) : Line where
  total := c.total
  unit := if c.total = 1 then noun else noun ++ "s"
  entries := c.parts

theorem text_line (noun : String) (c : Counts) : (c.line noun).text = c.summary noun := by
  let plural := if c.total = 1 then "" else "s"
  have hunit : (c.line noun).unit = noun ++ plural := by
    simp only [line, plural]
    split_ifs
    · exact String.append_empty.symm
    · rfl
  have hhead : Line.entryText (c.total, (c.line noun).unit) = s!"{c.total} {noun}{plural}" := by
    rw [Line.entryText, hunit, ← String.append_assoc]
    rfl
  rw [Line.text, summary]
  cases hparts : c.parts with
  | nil => simpa [line, hparts] using hhead
  | cons part rest =>
    simp only [line, hparts] at hhead ⊢
    rw [hhead]
    rfl

/-- The names of what is counted. -/
theorem mem_parts (c : Counts) (entry : Nat × String) (h : entry ∈ c.parts) :
    entry.2 = "passed" ∨ entry.2 = "undefined" ∨ entry.2 = "failed" := by
  have hmem := (List.mem_filter.mp h).1
  simp only [List.mem_cons, List.not_mem_nil, or_false] at hmem
  rcases hmem with rfl | rfl | rfl
  · exact Or.inl rfl
  · exact Or.inr (Or.inl rfl)
  · exact Or.inr (Or.inr rfl)

theorem plain_line (noun : String) (c : Counts) (h : IsWord noun.toList) :
    (c.line noun).Plain where
  unit := by
    rw [line]
    split_ifs
    · exact h
    · have hplural : (noun ++ "s").toList = noun.toList ++ ['s'] := String.toList_append
      exact hplural ▸ h.concat 's' rfl
  entries := by
    intro entry hentry
    rcases c.mem_parts entry hentry with hname | hname | hname <;> rw [hname] <;> decide

/-- Entries of nothing add nothing. -/
theorem sum_filter_pos (entries : List (Nat × String)) :
    ((entries.filter (0 < ·.1)).map Prod.fst).sum = (entries.map Prod.fst).sum := by
  induction entries with
  | nil => rfl
  | cons entry rest ih =>
    by_cases h : 0 < entry.1
    · simp [h, ih]
    · simp [Nat.eq_zero_of_not_pos h, ih]

theorem sum_parts (c : Counts) : (c.parts.map Prod.fst).sum = c.total := by
  rw [parts, sum_filter_pos, total]
  simp only [List.map_cons, List.map_nil, List.sum_cons, List.sum_nil]
  omega

theorem total_eq_zero_iff (c : Counts) : c.total = 0 ↔ c = {} := by
  obtain ⟨passed, undefined, failed⟩ := c
  simp only [total, Counts.mk.injEq]
  omega

theorem parts_eq_nil_iff (c : Counts) : c.parts = [] ↔ c = {} := by
  rw [← total_eq_zero_iff, parts, List.filter_eq_nil_iff, total]
  simp only [List.mem_cons, List.not_mem_nil, or_false, decide_eq_true_eq, not_lt,
    Nat.le_zero_eq, forall_eq_or_imp, forall_eq, Nat.add_eq_zero_iff]
  omega

theorem counts_line (noun : String) (c : Counts) : (c.line noun).counts = c := by
  have hcount (name : String) : (c.line noun).count name =
      (([(c.passed, "passed"), (c.undefined, "undefined"), (c.failed, "failed")].filter
        (·.2 = name)).map Prod.fst).sum := by
    rw [Line.count, line, parts, List.filter_comm, sum_filter_pos]
  rw [Line.counts, hcount, hcount, hcount]
  rfl

theorem ofText?_summary (noun : String) (c : Counts) (h : IsWord noun.toList) :
    Line.ofText? (c.summary noun) = some (c.line noun) := by
  rw [← text_line]
  exact (c.line noun).ofText?_text (c.plain_line noun h)

theorem lineFeed_not_mem_summary (noun : String) (c : Counts) (h : IsWord noun.toList) :
    '\n' ∉ (c.summary noun).toList := by
  rw [← text_line]
  exact (c.line noun).lineFeed_not_mem_text (c.plain_line noun h)

end Counts

/-- The counts read from one of the lines of a text. -/
def Summary.countsAt? (text : String) (i : Nat) : Option Counts := do
  let line ← (Text.lines text.toList)[i]?
  let l ← Line.ofText? (String.ofList line)
  return l.counts

theorem Summary.countsAt?_eq_some (text : String) (i : Nat) (noun : String) (c : Counts)
    (h : IsWord noun.toList)
    (hline : (Text.lines text.toList)[i]? = some (c.summary noun).toList) :
    countsAt? text i = some c := by
  have hread : Line.ofText? (String.ofList (c.summary noun).toList) = some (c.line noun) := by
    rw [String.ofList_toList]
    exact c.ofText?_summary noun h
  simp only [countsAt?, hline, Option.bind_eq_bind, Option.bind_some, hread, Counts.counts_line]
  rfl

/-- The counts of scenarios and of steps that a text tells, in the two lines that a summary has for
them behind a line of marks. -/
structure Summary.Tells (text : String) (s : Statistics) : Prop where
  scenarios : countsAt? text 2 = some s.scenarios
  steps : countsAt? text 3 = some s.steps

namespace ProgressLog

theorem tells_summary (marks : String) (h : '\n' ∉ marks.toList) (p : ProgressLog) :
    Summary.Tells (marks ++ String.join p.summary) p.statistics := by
  have hscenario : IsWord "scenario".toList := by decide
  have hstep : IsWord "step".toList := by decide
  let scenarios := p.statistics.scenarios.summary "scenario"
  let steps := p.statistics.steps.summary "step"
  obtain ⟨more, hmore⟩ : ∃ more : String, String.join p.summary =
      "\n\n" ++ scenarios ++ "\n" ++ steps ++ "\n" ++ more := ⟨_, String.join_cons⟩
  have htext : (marks ++ String.join p.summary).toList = marks.toList ++ '\n' ::
      ([] ++ '\n' :: (scenarios.toList ++ '\n' :: (steps.toList ++ '\n' :: more.toList))) := by
    rw [hmore]
    simp [List.append_assoc]
  have hlines : Text.lines (marks ++ String.join p.summary).toList =
      marks.toList :: [] :: scenarios.toList :: steps.toList :: Text.lines more.toList := by
    rw [htext, Text.lines_of_lineFeed _ _ h, Text.lines_of_lineFeed _ _ List.not_mem_nil,
      Text.lines_of_lineFeed _ _ (Counts.lineFeed_not_mem_summary _ _ hscenario),
      Text.lines_of_lineFeed _ _ (Counts.lineFeed_not_mem_summary _ _ hstep)]
  exact ⟨Summary.countsAt?_eq_some _ 2 "scenario" _ hscenario (by rw [hlines]; rfl),
    Summary.countsAt?_eq_some _ 3 "step" _ hstep (by rw [hlines]; rfl)⟩

end ProgressLog

/-- No notice of the end of a walk comes from within it. -/
theorem Scene.afterFeatures_not_mem (r : Results) (i : Nat) (scenes : List Scene)
    (h : ∀ all, .border .closing (.features all) ∉ scenes) :
    .afterFeatures ∉ (listing r i scenes).filterMap Message.notice? := by
  induction scenes generalizing i with
  | nil => exact List.not_mem_nil
  | cons scene rest ih =>
    have hrest (j : Nat) := ih j fun all hmem => h all (List.mem_cons_of_mem _ hmem)
    cases scene with
    | step s =>
      have hnotices : (listing r i (.step s :: rest)).filterMap Message.notice? =
          .beforeStep s :: .stepResult (r i s) :: .afterStep s ::
            (listing r (i + 1) rest).filterMap Message.notice? := rfl
      rw [hnotices]
      simpa using hrest (i + 1)
    | border side b =>
      have hother : (side.message b.node).notice? ≠ some .afterFeatures := by
        cases side with
        | opening => cases b <;> exact fun he => Notice.noConfusion (Option.some.inj he)
        | closing =>
          cases b with
          | features all => exact absurd (List.mem_cons_self ..) (h all)
          | _ => exact fun he => Notice.noConfusion (Option.some.inj he)
      rw [listing_border, List.filterMap_cons]
      cases hn : (side.message b.node).notice? with
      | none => exact hrest i
      | some n =>
        intro hmem
        rcases List.mem_cons.mp hmem with he | hmem
        · exact hother (hn.trans (congrArg some he.symm))
        · exact hrest i hmem

theorem Node.notices_of_listing (r : Results) (all : List Feature) :
    ∃ ns : List Notice, .afterFeatures ∉ ns ∧
      ((Node.features all).listing r).filterMap Message.notice? = ns ++ [.afterFeatures] := by
  let inner := all.flatMap Scene.ofFeature
  have hinner : .afterFeatures ∉ (Scene.listing r 0 inner).filterMap Message.notice? := by
    apply Scene.afterFeatures_not_mem
    intro others hmem
    simp [inner, Scene.ofFeature, Scene.ofScenario, Scene.around] at hmem
  have hlisting : (Node.features all).listing r =
      .before .features :: Scene.listing r 0 inner ++ [.after .features] := by
    rw [Node.listing_eq_scenes]
    exact Scene.listing_around r 0 (.features all) inner
  refine ⟨.beforeFeatures :: (Scene.listing r 0 inner).filterMap Message.notice?, ?_, ?_⟩
  · simpa using hinner
  · rw [hlisting, List.filterMap_append]
    rfl

theorem StepResult.lineFeed_not_mem_characters (rs : List StepResult) :
    '\n' ∉ (String.join (rs.map character)).toList := by
  induction rs with
  | nil => exact List.not_mem_nil
  | cons r rest ih =>
    have hone : '\n' ∉ r.character.toList := by
      cases r <;> exact by simp [character]
    rw [List.map_cons, String.join_cons, String.toList_append, List.mem_append, not_or]
    exact ⟨hone, ih⟩

/-- However a walk has come to its end, a new progress log tells its counts by then. -/
theorem Library.tells_of_completes (library : Library) (all : List Feature)
    (terminal : Option Styles) (hooks : Nat) (p : ProgressLog)
    (h : library.Completes all ({ terminal, hooks } : ProgressLog) p) :
    Summary.Tells p.logs p.statistics := by
  obtain ⟨r, hp⟩ := library.heard_of_completes all _ p h
  obtain ⟨ns, hns, hnotices⟩ := Node.notices_of_listing r all
  let before := after ns ({ terminal, hooks } : ProgressLog)
  have hend : p = { before with logs := before.logs ++ String.join before.summary } := by
    rw [hp, hnotices, after_append]
    exact ProgressLog.notice_afterFeatures before
  have hmarks : '\n' ∉ before.logs.toList := by
    rw [ProgressLog.logs_after ns _ hns, String.toList_append, List.mem_append, not_or]
    exact ⟨List.not_mem_nil, StepResult.lineFeed_not_mem_characters _⟩
  rw [hend]
  exact before.tells_summary before.logs hmarks

/-- The line of a summary for scenarios, or for steps, is read back: it is the line that was
written, and what its entries come to are the counts. So lines for different counts differ. The
lines that a progress log has logged when a walk comes to its end tell what it has counted. -/
theorem summary_lines_tell_counts :
    (∀ noun ∈ ["scenario", "step"], ∀ c : Counts,
      (∃ l : Line, Line.ofText? (c.summary noun) = some l ∧ l.text = c.summary noun ∧
        l.counts = c ∧ l.total = (l.entries.map Prod.fst).sum ∧ (∀ entry ∈ l.entries, 0 < entry.1) ∧
        (l.entries = [] ↔ c = {}) ∧ (l.total = 0 ↔ c = {}) ∧
        l.unit = if l.total = 1 then noun else noun ++ "s") ∧
      ∀ d : Counts, d.summary noun = c.summary noun → d = c) ∧
    (∀ p : ProgressLog, Summary.Tells (String.join p.summary) p.statistics) ∧
    ∀ (library : Library) (all : List Feature) (terminal : Option Styles) (hooks : Nat)
      (p : ProgressLog), library.Completes all ({ terminal, hooks } : ProgressLog) p →
        Summary.Tells p.logs p.statistics := by
  refine ⟨fun noun hnoun c => ?_, fun p => ?_, fun library => library.tells_of_completes⟩
  · have hword : IsWord noun.toList := by
      simp only [List.mem_cons, List.not_mem_nil, or_false] at hnoun
      rcases hnoun with rfl | rfl <;> decide
    have hread := c.ofText?_summary noun hword
    refine ⟨⟨c.line noun, hread, c.text_line noun, c.counts_line noun, c.sum_parts.symm, ?_,
      c.parts_eq_nil_iff, c.total_eq_zero_iff, rfl⟩, fun d hd => ?_⟩
    · intro entry hentry
      exact of_decide_eq_true (List.mem_filter.mp hentry).2
    · rw [← hd] at hread
      have hline := Option.some.inj ((d.ofText?_summary noun hword).symm.trans hread)
      rw [← d.counts_line noun, hline, c.counts_line]
  · have hsummary := p.tells_summary "" List.not_mem_nil
    rwa [String.empty_append] at hsummary

/-- A completion is kept past the first poll, and then fails its step. -/
theorem lateFailure_told :
    let kept : List Feature := [{
      keyword := "F", name := "f", description := ""
      scenarios := [
        { keyword := "S", name := "s"
          steps := [⟨"* ", "go", 1, some "keep"⟩, ⟨"* ", "run", 2, none⟩] },
        { keyword := "S", name := "t", steps := [⟨"* ", "go", 3, none⟩] }] }]
    let c : Counts := { passed := 1, failed := 1 }
    ∃ p : ProgressLog, keepingLibrary.Completes kept ({ hooks := 2 } : ProgressLog) p ∧
      Summary.Tells p.logs p.statistics ∧
      p.logs = "FU.\n\n2 scenarios (1 passed, 1 failed)\n" ++
        "3 steps (1 passed, 1 undefined, 1 failed)\n" ++
        "\n(::) failed steps (::)\n\n* go\n  Step failed: late\n" ++
        "\n(::) undefined steps (::)\n\n* run\n" ∧
      p.statistics.scenarios = c ∧
      ∀ d : Counts, d.summary "scenario" = "2 scenarios (1 passed, 1 failed)" → d = c := by
  intro kept c
  let p : ProgressLog :=
    { logs := "FU.\n\n2 scenarios (1 passed, 1 failed)\n" ++
        "3 steps (1 passed, 1 undefined, 1 failed)\n" ++
        "\n(::) failed steps (::)\n\n* go\n  Step failed: late\n" ++
        "\n(::) undefined steps (::)\n\n* run\n"
      statistics := ⟨1, c, ⟨1, 1, 1⟩, none⟩
      currentStep := some "* go"
      problems := [("* go", .failed (.failed "late")), ("* run", .undefined)]
      hooks := 2 }
  have hcompletes : keepingLibrary.Completes kept ({ hooks := 2 } : ProgressLog) p := by
    refine ⟨ProgressLog, inferInstance, [.inl { hooks := 2 }], 0,
      [.poll, .signal 0 (.fail "late")], ?_, rfl, ?_⟩
    · decide
    · decide +kernel
  obtain ⟨hlines, _, hwalks⟩ := summary_lines_tell_counts
  have hline : c.summary "scenario" = "2 scenarios (1 passed, 1 failed)" := by decide
  obtain ⟨_, hinjective⟩ := hlines "scenario" (by decide) c
  exact ⟨p, hcompletes, hwalks keepingLibrary kept none 2 p hcompletes, rfl, rfl,
    fun d hd => hinjective d (hd.trans hline.symm)⟩

end FeatureRun
