import FeatureRun.Proofs.SuspendedWalk
import FeatureRun.Proofs.TagDocument

namespace FeatureRun

open Tag (Nested Document around)

def Tag.ofNotice : Notice → Tag
  | .beforeFeatures => .opening .features
  | .afterFeatures => .closing .features
  | .beforeFeature _ => .opening .feature
  | .afterFeature _ => .closing .feature
  | .beforeScenario _ => .opening .scenario
  | .afterScenario _ => .closing .scenario
  | .beforeStep _ => .opening .step
  | .afterStep _ => .closing .step
  | .stepResult r => .result r.isSuccessful

def Message.tag? (m : Message) : Option Tag := m.notice?.map Tag.ofNotice

theorem TagLog.tag_eq_line (n : Notice) : TagLog.tag n = String.ofList (Tag.ofNotice n).line := by
  have hresult : ∀ success : Bool,
      "        <result success='" ++ toString success ++ "'></result>" =
        String.ofList (Tag.result success).line := by decide +kernel
  cases n with
  | beforeFeatures =>
    exact (by decide +kernel : "<features>" = String.ofList (Tag.opening .features).line)
  | afterFeatures =>
    exact (by decide +kernel : "</features>" = String.ofList (Tag.closing .features).line)
  | beforeFeature f =>
    exact (by decide +kernel : "  <feature>" = String.ofList (Tag.opening .feature).line)
  | afterFeature f =>
    exact (by decide +kernel : "  </feature>" = String.ofList (Tag.closing .feature).line)
  | beforeScenario s =>
    exact (by decide +kernel : "    <scenario>" = String.ofList (Tag.opening .scenario).line)
  | afterScenario s =>
    exact (by decide +kernel : "    </scenario>" = String.ofList (Tag.closing .scenario).line)
  | beforeStep s =>
    exact (by decide +kernel : "      <step>" = String.ofList (Tag.opening .step).line)
  | afterStep s =>
    exact (by decide +kernel : "      </step>" = String.ofList (Tag.closing .step).line)
  | stepResult r => exact hresult r.isSuccessful

/-- A tag log that writes to a text writes the tags of what it takes. -/
theorem TagLog.after_eq (ns : List Notice) (output : String) :
    Listener.after ns ({ output } : TagLog) =
      { output := output ++ Tag.write (ns.map Tag.ofNotice) } := by
  induction ns generalizing output with
  | nil =>
    have hnothing : output ++ Tag.write [] = output := String.append_empty
    rw [List.map_nil, hnothing]
    rfl
  | cons n rest ih =>
    have hline : Tag.write [Tag.ofNotice n] = TagLog.tag n ++ "\n" := by
      have hfeed : ("\n" : String) = String.ofList ['\n'] := rfl
      rw [TagLog.tag_eq_line, hfeed, ← String.ofList_append, Tag.write, List.map_singleton,
        Text.written, List.flatMap_singleton]
    have hone : (Listener.notice n ({ output } : TagLog)).state =
        { output := output ++ Tag.write [Tag.ofNotice n] } := by
      rw [hline, ← String.append_assoc]
      rfl
    have hall : Tag.write ((n :: rest).map Tag.ofNotice) =
        Tag.write [Tag.ofNotice n] ++ Tag.write (rest.map Tag.ofNotice) := Tag.write_append [_] _
    rw [Listener.after_cons, hone, ih, hall, String.append_assoc]

theorem TagLog.output_after (ns : List Notice) :
    (Listener.after ns ({} : TagLog)).output = Tag.write (ns.map Tag.ofNotice) := by
  have hnew : ({} : TagLog) = { output := "" } := rfl
  rw [hnew, TagLog.after_eq, String.empty_append]

/-- The shape of a tree, with the steps told apart that a library makes pass. -/
def Library.shape (library : Library) (all : List Feature) : Shape :=
  all.map fun f => f.scenarios.map fun s => s.steps.map fun x => library.resultOf x == .passed

theorem Library.map_ofNotice_notices (library : Library) (all : List Feature) :
    (library.notices all).map Tag.ofNotice = (library.shape all).tags := by
  have hstep (x : Step) : (library.stepNotices x).map Tag.ofNotice =
      Shape.stepTags (library.resultOf x == .passed) := by
    have hpassed : (library.resultOf x).isSuccessful = (library.resultOf x == .passed) := by
      cases library.resultOf x <;> rfl
    rw [← hpassed]
    rfl
  have hscenario (s : Scenario) : (library.scenarioNotices s).map Tag.ofNotice =
      Shape.scenarioTags (s.steps.map fun x => library.resultOf x == .passed) := by
    simp only [Library.scenarioNotices, List.map_append, List.map_cons, List.map_flatMap, hstep,
      Shape.scenarioTags, List.flatMap_map]
    rfl
  have hfeature (f : Feature) : (library.featureNotices f).map Tag.ofNotice =
      Shape.featureTags (f.scenarios.map fun s =>
        s.steps.map fun x => library.resultOf x == .passed) := by
    simp only [Library.featureNotices, List.map_append, List.map_cons, List.map_flatMap, hscenario,
      Shape.featureTags, List.flatMap_map]
    rfl
  simp only [Library.notices, List.map_append, List.map_cons, List.map_flatMap, hfeature,
    Shape.tags, Library.shape, List.flatMap_map]
  rfl

theorem Tag.nested_inTurn {α : Type} (e : Element) (steps : α → List Step)
    (one : Nat → α → List Message)
    (h : ∀ i a, Nested e ((one i a).filterMap Message.tag?)) (i : Nat) (xs : List α) :
    Nested e ((inTurn steps one i xs).filterMap Message.tag?) := by
  induction xs generalizing i with
  | nil => exact .nil e
  | cons a rest ih =>
    rw [inTurn, List.filterMap_append]
    exact (h i a).append (ih _)

/-- The tags of a listing are a document, whatever the results. -/
theorem document_listing (r : Results) (all : List Feature) :
    Document (((Node.features all).listing r).filterMap Message.tag?) := by
  have hstep (i : Nat) (x : Step) :
      Nested .scenario ((x.listing r i).filterMap Message.tag?) :=
    (Nested.result _ [] (.nil .step)).around_child rfl
  have hscenario (i : Nat) (s : Scenario) :
      Nested .feature ((s.listing r i).filterMap Message.tag?) := by
    have hinner := Tag.nested_inTurn .scenario (fun t => [t]) (Step.listing r) hstep i s.steps
    have houter : Nested .feature (around .scenario _) := hinner.around_child rfl
    rw [Scenario.listing, List.filterMap_append]
    exact houter
  have hfeature (i : Nat) (f : Feature) :
      Nested .features ((f.listing r i).filterMap Message.tag?) := by
    have hinner := Tag.nested_inTurn .feature Scenario.steps (Scenario.listing r) hscenario i
      f.scenarios
    have houter : Nested .features (around .feature _) := hinner.around_child rfl
    rw [Feature.listing, List.filterMap_append]
    exact houter
  have hinner := Tag.nested_inTurn .features Feature.steps (Feature.listing r) hfeature 0 all
  refine ⟨_, hinner, ?_⟩
  rw [Node.listing, List.filterMap_append]
  rfl

/-- A walk that has announced anything has announced the tree. -/
theorem tags_ne_nil (r : Results) (all : List Feature) (p : List Message)
    (hp : p <+: (Node.features all).listing r) (hsome : p ≠ []) :
    p.filterMap Message.tag? ≠ [] := by
  have hlisting : (Node.features all).listing r = .before .features ::
    (inTurn Feature.steps (Feature.listing r) 0 all ++ [.after .features]) := rfl
  rw [hlisting, List.prefix_cons_iff] at hp
  rcases hp with rfl | ⟨q, rfl, _⟩
  · exact absurd rfl hsome
  · exact List.cons_ne_nil (Tag.opening .features) (q.filterMap Message.tag?)

/-- What a tag log has written when a walk of a tree is complete tells the shape of the tree, with
the steps that passed, and two walks that show the same shape write the same. What it has written
when a walk is suspended becomes a document by closing the elements left open. -/
theorem walk_writes_shape (library library' : Library) (h : library.Settles)
    (h' : library'.Settles) (all all' : List Feature) :
    ∃ t t' : TagLog, (∀ u, library.Leaves all ({} : TagLog) u ↔ u = t) ∧
      (∀ u, library'.Leaves all' ({} : TagLog) u ↔ u = t') ∧
      Shape.ofText? t.output = some (library.shape all) ∧
      (t.output = t'.output ↔ library.shape all = library'.shape all') ∧
      ∀ (anyLibrary : Library) (anyTree : List Feature) (u : TagLog),
        anyLibrary.Suspends anyTree ({} : TagLog) u →
          Tag.DocumentText (u.output ++ Tag.closers u.output) := by
  have houtput (library : Library) (all : List Feature) :
      (Listener.after (library.notices all) ({} : TagLog)).output = (library.shape all).text := by
    rw [TagLog.output_after, library.map_ofNotice_notices, Shape.text]
  refine ⟨Listener.after (library.notices all) ({} : TagLog),
    Listener.after (library'.notices all') ({} : TagLog), library.leaves_iff h all _,
    library'.leaves_iff h' all' _, ?_, ?_, ?_⟩
  · rw [Shape.ofText?_eq_some_iff]
    exact houtput library all
  · rw [houtput library all, houtput library' all']
    constructor
    · exact Shape.text_injective
    · intro hsame
      rw [hsame]
  · intro anyLibrary anyTree u hu
    obtain ⟨r, p, hp, hsome, rfl⟩ := anyLibrary.heard_of_suspends anyTree _ u hu
    have hwritten : (Listener.after (p.filterMap Message.notice?) ({} : TagLog)).output =
        Tag.write (p.filterMap Message.tag?) := by
      rw [TagLog.output_after]
      exact congrArg Tag.write (List.map_filterMap ..)
    rw [hwritten]
    apply Tag.documentText_of_prefix (document_listing r anyTree)
    · exact hp.filterMap Message.tag?
    · exact tags_ne_nil r anyTree p hp hsome

/-- Two trees of one shape, and a walk that is given up at its second step. -/
theorem variedFeatures_shape :
    let renamed := variedFeatures.map fun f => { f with name := "other", description := "none" }
    let kept : List Feature := [{
      keyword := "F", name := "f", description := ""
      scenarios := [{
        keyword := "S", name := "s"
        steps := [⟨"* ", "run", 1, none⟩, ⟨"* ", "go", 2, some "keep"⟩] }] }]
    obedientLibrary.Settles ∧ ∃ t t' u : TagLog,
      obedientLibrary.Leaves variedFeatures ({} : TagLog) t ∧
      obedientLibrary.Leaves renamed ({} : TagLog) t' ∧
      Shape.ofText? t.output =
        some [[[false, false, false, true], [false, true], []], [[true]], []] ∧
      t.output = t'.output ∧
      keepingLibrary.Suspends kept ({} : TagLog) u ∧
      Tag.DocumentText (u.output ++ Tag.closers u.output) ∧
      Tag.closers u.output = "      </step>\n    </scenario>\n  </feature>\n</features>\n" := by
  intro renamed kept
  let u : TagLog := { output := Tag.write [.opening .features, .opening .feature,
    .opening .scenario, .opening .step, .result false, .closing .step, .opening .step] }
  have hu : keepingLibrary.Suspends kept ({} : TagLog) u := by
    refine ⟨TagLog, inferInstance, [.inl {}], 0, [], [.signal 0 .done, .abandon], ?_, ?_, ?_, ?_⟩
    · decide
    · decide
    · rfl
    · decide +kernel
  have hclosers : Tag.closers u.output =
      "      </step>\n    </scenario>\n  </feature>\n</features>\n" := by
    rw [Tag.closers_write]
    decide +kernel
  obtain ⟨t, t', ht, ht', hshape, hsame, hdocument⟩ := walk_writes_shape obedientLibrary
    obedientLibrary obedientLibrary_settles obedientLibrary_settles variedFeatures renamed
  have hvaried : obedientLibrary.shape variedFeatures =
      [[[false, false, false, true], [false, true], []], [[true]], []] := by decide
  have hrenamed : obedientLibrary.shape variedFeatures = obedientLibrary.shape renamed := by decide
  refine ⟨obedientLibrary_settles, t, t', u, (ht t).mpr rfl, (ht' t').mpr rfl, ?_,
    hsame.mpr hrenamed, hu, hdocument keepingLibrary kept u hu, hclosers⟩
  rw [hshape, hvaried]

end FeatureRun
