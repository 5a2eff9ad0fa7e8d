import Mathlib.Data.List.Basic
import FeatureRun.Proofs.Replay

namespace FeatureRun

def Step.entries (s : Step) : List Entry :=
  .step s.keyword s.name s.line :: s.docString.toList.map (.docString · 0)

def Scenario.entries (s : Scenario) : List Entry :=
  .scenario s.keyword s.name 0 :: s.steps.flatMap Step.entries

def Feature.entries (f : Feature) : List Entry :=
  .feature f.keyword f.name f.description :: f.scenarios.flatMap Scenario.entries

def Draft.entries (d : Draft) : List Entry := d.features.flatMap Feature.entries

theorem Draft.entries_concat (fs : List Feature) (f : Feature) :
    Draft.entries ⟨fs ++ [f]⟩ = Draft.entries ⟨fs⟩ ++ f.entries := by
  simp [Draft.entries]

theorem Feature.entries_addScenario (f : Feature) (s : Scenario) :
    (f.addScenario s).entries = f.entries ++ s.entries := by
  simp [Feature.entries, Feature.addScenario]

theorem Scenario.entries_addStep (s : Scenario) (t : Step) :
    (s.addStep t).entries = s.entries ++ t.entries := by
  simp [Scenario.entries, Scenario.addStep]

namespace Entry

/-- The entry without the line that no tree keeps. -/
def unlined : Entry → Entry
  | .scenario keyword name _ => .scenario keyword name 0
  | .docString content _ => .docString content 0
  | e => e

def isDocString : Entry → Bool
  | .docString .. => true
  | _ => false

theorem eq_step_of_unlined (e : Entry) (keyword name : String) (line : Nat)
    (h : e.unlined = .step keyword name line) : e = .step keyword name line := by
  cases e with
  | step => exact h
  | _ => exact Entry.noConfusion h

theorem isDocString_unlined (e : Entry) : e.unlined.isDocString = e.isDocString := by
  cases e <;> rfl

/-- Whether another doc string comes before the next step. -/
def attachesAnother : List Entry → Bool
  | [] => false
  | .docString .. :: _ => true
  | .step .. :: _ => false
  | _ :: rest => attachesAnother rest

/-- The entries without those doc strings that a later one on the same step replaces. -/
def lasting : List Entry → List Entry
  | [] => []
  | e :: rest => if e.isDocString && attachesAnother rest then lasting rest else e :: lasting rest

theorem lasting_subset (entries : List Entry) : lasting entries ⊆ entries := by
  induction entries with
  | nil => exact List.Subset.refl _
  | cons e rest ih =>
    rw [lasting]
    split
    · exact List.subset_cons_of_subset e ih
    · exact List.cons_subset_cons e ih

/-- Only doc strings are replaced. -/
theorem mem_lasting (entries : List Entry) (e : Entry) (he : e.isDocString = false)
    (h : e ∈ entries) : e ∈ lasting entries := by
  induction entries with
  | nil => exact absurd h List.not_mem_nil
  | cons e' rest ih =>
    rw [lasting]
    rcases List.mem_cons.mp h with rfl | hrest
    · simp [he]
    · split
      · exact ih hrest
      · exact List.mem_cons_of_mem _ (ih hrest)

theorem attachesAnother_append_node (entries : List Entry) (e : Entry)
    (he : e.isDocString = false) :
    attachesAnother (entries ++ [e]) = attachesAnother entries := by
  induction entries with
  | nil => cases e <;> simp_all [attachesAnother, isDocString]
  | cons e' rest ih => cases e' <;> simp [attachesAnother, ih]

/-- A doc string that comes last is on another step than those before it if a step comes between. -/
theorem attachesAnother_append_of_step (entries : List Entry) (keyword name content : String)
    (line line' : Nat) (h : .step keyword name line ∈ entries) :
    attachesAnother (entries ++ [.docString content line']) = attachesAnother entries := by
  induction entries with
  | nil => exact absurd h List.not_mem_nil
  | cons e rest ih => cases e <;> simp_all [attachesAnother]

theorem attachesAnother_append_of_docStrings (entries : List Entry) (content : String)
    (line : Nat) (h : ∀ e ∈ entries, e.isDocString = true) :
    attachesAnother (entries ++ [.docString content line]) = true := by
  cases entries with
  | nil => rfl
  | cons e rest =>
    have he : e.isDocString = true := h e (List.mem_cons_self ..)
    cases e with
    | docString content' line' => rfl
    | _ => exact absurd he (by simp [isDocString])

theorem lasting_append_node (entries : List Entry) (e : Entry) (he : e.isDocString = false) :
    lasting (entries ++ [e]) = lasting entries ++ [e] := by
  induction entries with
  | nil => simp [lasting, he]
  | cons e' rest ih =>
    rw [List.cons_append, lasting, lasting, attachesAnother_append_node rest e he, ih]
    split <;> rfl

/-- Of doc strings on one step the last remains. -/
theorem lasting_append_of_docStrings (entries : List Entry) (content : String) (line : Nat)
    (h : ∀ e ∈ entries, e.isDocString = true) :
    lasting (entries ++ [.docString content line]) = [.docString content line] := by
  induction entries with
  | nil => rfl
  | cons e rest ih =>
    have hrest : ∀ e ∈ rest, e.isDocString = true := fun e he => h e (List.mem_cons_of_mem _ he)
    have he : e.isDocString = true := h e (List.mem_cons_self ..)
    rw [List.cons_append, lasting, he, attachesAnother_append_of_docStrings rest content line hrest]
    exact ih hrest

/-- A doc string replaces whatever there is on the last step, and nothing else. -/
theorem lasting_append_docString (entries front docs : List Entry) (keyword name content : String)
    (line line' : Nat) (h : lasting entries = front ++ .step keyword name line :: docs)
    (hdocs : ∀ e ∈ docs, e.isDocString = true) :
    lasting (entries ++ [.docString content line']) =
      front ++ [.step keyword name line, .docString content line'] := by
  induction entries generalizing front with
  | nil => exact absurd h (by simp [lasting])
  | cons e rest ih =>
    rw [lasting] at h
    rw [List.cons_append, lasting]
    cases hreplaced : e.isDocString && attachesAnother rest with
    | true =>
      rw [hreplaced] at h
      have hstep : .step keyword name line ∈ rest := by
        apply lasting_subset rest
        rw [if_pos rfl] at h
        rw [h]
        exact List.mem_append_right _ (List.mem_cons_self ..)
      rw [attachesAnother_append_of_step rest _ _ content _ line' hstep, hreplaced]
      exact ih front h
    | false =>
      rw [hreplaced, if_neg Bool.false_ne_true] at h
      cases front with
      | nil =>
        obtain ⟨rfl, hrest⟩ := List.cons.inj h
        have hall : ∀ e ∈ rest, e.isDocString = true := by
          intro e he
          by_contra hnode
          have hmem := mem_lasting rest e (Bool.eq_false_iff.mpr hnode) he
          rw [hrest] at hmem
          exact hnode (hdocs e hmem)
        rw [lasting_append_of_docStrings rest content line' hall]
        rfl
      | cons e' front =>
        obtain ⟨rfl, hrest⟩ := List.cons.inj h
        have hstep : .step keyword name line ∈ rest := by
          apply lasting_subset rest
          rw [hrest]
          exact List.mem_append_right _ (List.mem_cons_self ..)
        rw [attachesAnother_append_of_step rest _ _ content _ line' hstep, hreplaced,
          if_neg Bool.false_ne_true, ih front hrest]
        rfl

end Entry

namespace Draft

/-- An entry, the draft it is added to, and the draft it leaves. -/
inductive Place : Draft → Entry → Draft → Prop
  | feature (d : Draft) (keyword name description : String) :
    Place d (.feature keyword name description) (d.addFeature { keyword, name, description })
  | scenario (fs : List Feature) (f : Feature) (keyword name : String) (line : Nat) :
    Place ⟨fs ++ [f]⟩ (.scenario keyword name line) ⟨fs ++ [f.addScenario { keyword, name }]⟩
  | step (fs : List Feature) (f : Feature) (s : Scenario) (keyword name : String) (line : Nat) :
    Place ⟨fs ++ [f.addScenario s]⟩ (.step keyword name line)
      ⟨fs ++ [f.addScenario (s.addStep { keyword, name, line })]⟩
  | docString (fs : List Feature) (f : Feature) (s : Scenario) (t : Step) (content : String)
      (line : Nat) :
    Place ⟨fs ++ [f.addScenario (s.addStep t)]⟩ (.docString content line)
      ⟨fs ++ [f.addScenario (s.addStep { t with docString := some content })]⟩

/-- The node that an entry is to belong to is not there, which makes the entry an orphan. -/
inductive Refuses (d : Draft) : Entry → Orphan → Prop
  | scenario (keyword name : String) (line : Nat) (h : d.features = []) :
    Refuses d (.scenario keyword name line) ⟨"Scenario", line⟩
  | step (keyword name : String) (line : Nat)
      (h : ∀ f, d.features.getLast? = some f → f.scenarios = []) :
    Refuses d (.step keyword name line) ⟨"Step", line⟩
  | docString (content : String) (line : Nat)
      (h : ∀ f s, d.features.getLast? = some f → f.scenarios.getLast? = some s → s.steps = []) :
    Refuses d (.docString content line) ⟨"DocString", line⟩

theorem Place.add {d d' : Draft} {e : Entry} (h : Place d e d') : d.add e = (d', .ok ()) := by
  cases h with
  | feature d keyword name description => rfl
  | scenario fs f keyword name line => exact add_scenario fs f keyword name line
  | step fs f s keyword name line => exact add_step fs f s keyword name line
  | docString fs f s t content line => exact add_docString fs f s t content line

theorem Refuses.add {d : Draft} {e : Entry} {o : Orphan} (h : d.Refuses e o) :
    d.add e = (d, .error o) := by
  cases h with
  | scenario keyword name line h =>
    simp [Draft.add, addScenario?, lastFeature?, h, orElseOrphan]
  | step keyword name line h =>
    cases hf : d.features.getLast? with
    | none => simp [Draft.add, addStep?, lastScenario?, lastFeature?, hf, orElseOrphan]
    | some f =>
      simp [Draft.add, addStep?, lastScenario?, lastFeature?, Feature.lastScenario?, hf, h f hf,
        orElseOrphan]
  | docString content line h =>
    cases hf : d.features.getLast? with
    | none =>
      simp [Draft.add, attachDocString?, lastStep?, lastScenario?, lastFeature?, hf, orElseOrphan]
    | some f =>
      cases hs : f.scenarios.getLast? with
      | none =>
        simp [Draft.add, attachDocString?, lastStep?, lastScenario?, lastFeature?,
          Feature.lastScenario?, hf, hs, orElseOrphan]
      | some s =>
        simp [Draft.add, attachDocString?, lastStep?, lastScenario?, lastFeature?,
          Feature.lastScenario?, Scenario.lastStep?, hf, hs, h f s hf hs, orElseOrphan]

theorem place_or_refuses (d : Draft) (e : Entry) :
    (∃ d', Place d e d') ∨ ∃ o, d.Refuses e o := by
  rcases d with ⟨features⟩
  cases e with
  | feature keyword name description => exact Or.inl ⟨_, .feature _ keyword name description⟩
  | scenario keyword name line =>
    rcases features.eq_nil_or_concat' with rfl | ⟨fs, f, rfl⟩
    · exact Or.inr ⟨_, .scenario keyword name line rfl⟩
    · exact Or.inl ⟨_, .scenario fs f keyword name line⟩
  | step keyword name line =>
    rcases features.eq_nil_or_concat' with rfl | ⟨fs, f, rfl⟩
    · exact Or.inr ⟨_, .step keyword name line (by simp)⟩
    · rcases f with ⟨fkeyword, fname, description, scenarios⟩
      rcases scenarios.eq_nil_or_concat' with rfl | ⟨ss, s, rfl⟩
      · exact Or.inr ⟨_, .step keyword name line (by simp)⟩
      · exact Or.inl ⟨_, .step fs ⟨fkeyword, fname, description, ss⟩ s keyword name line⟩
  | docString content line =>
    rcases features.eq_nil_or_concat' with rfl | ⟨fs, f, rfl⟩
    · exact Or.inr ⟨_, .docString content line (by simp)⟩
    · rcases f with ⟨fkeyword, fname, description, scenarios⟩
      have hlast (f' : Feature) (hf : (fs ++ [(⟨fkeyword, fname, description, scenarios⟩ :
          Feature)]).getLast? = some f') : f'.scenarios = scenarios := by
        rw [List.getLast?_concat] at hf
        rw [← Option.some.inj hf]
      rcases scenarios.eq_nil_or_concat' with rfl | ⟨ss, s, rfl⟩
      · refine Or.inr ⟨_, .docString content line fun f' s' hf hs => ?_⟩
        rw [hlast f' hf] at hs
        exact absurd hs (by simp)
      · rcases s with ⟨skeyword, sname, steps⟩
        rcases steps.eq_nil_or_concat' with rfl | ⟨ts, t, rfl⟩
        · refine Or.inr ⟨_, .docString content line fun f' s' hf hs => ?_⟩
          rw [hlast f' hf, List.getLast?_concat] at hs
          rw [← Option.some.inj hs]
        · exact Or.inl ⟨_, .docString fs ⟨fkeyword, fname, description, ss⟩ ⟨skeyword, sname, ts⟩
            t content line⟩

theorem add_eq_error_iff (d : Draft) (e : Entry) (o : Orphan) :
    (d.add e).2 = .error o ↔ d.Refuses e o := by
  refine ⟨fun h => ?_, fun h => by rw [h.add]⟩
  rcases d.place_or_refuses e with ⟨d', hplace⟩ | ⟨o', hrefuses⟩
  · rw [hplace.add] at h
    exact absurd h (by simp)
  · rw [hrefuses.add] at h
    rwa [← Except.error.inj h]

theorem add_eq_ok_iff (d d' : Draft) (e : Entry) : d.add e = (d', .ok ()) ↔ Place d e d' := by
  refine ⟨fun h => ?_, Place.add⟩
  rcases d.place_or_refuses e with ⟨d'', hplace⟩ | ⟨o, hrefuses⟩
  · rwa [← (Prod.mk.inj (hplace.add.symm.trans h)).1]
  · exact absurd (Prod.mk.inj (hrefuses.add.symm.trans h)).2 (by simp)

/-- The draft lists the entries that have been accepted, but for replaced doc strings. -/
def Lists (d : Draft) (past : List Entry) : Prop :=
  d.entries = (Entry.lasting past).map Entry.unlined

/-- An entry that has its place is listed behind all others, but for a doc string it replaces. -/
theorem Lists.place {d d' : Draft} {past : List Entry} {e : Entry} (h : d.Lists past)
    (hplace : Place d e d') : d'.Lists (past ++ [e]) := by
  rw [Lists] at h ⊢
  cases hplace with
  | feature d keyword name description =>
    rw [addFeature, entries_concat, Entry.lasting_append_node _ _ rfl, List.map_append, ← h]
    rfl
  | scenario fs f keyword name line =>
    rw [entries_concat] at h ⊢
    rw [Feature.entries_addScenario, Entry.lasting_append_node _ _ rfl, List.map_append, ← h,
      List.append_assoc]
    rfl
  | step fs f s keyword name line =>
    rw [entries_concat, Feature.entries_addScenario] at h ⊢
    rw [Scenario.entries_addStep, Entry.lasting_append_node _ _ rfl, List.map_append, ← h]
    simp only [List.append_assoc]
    rfl
  | docString fs f s t content line =>
    rw [entries_concat, Feature.entries_addScenario, Scenario.entries_addStep, ← List.append_assoc,
      ← List.append_assoc] at h ⊢
    obtain ⟨front, last, hlasting, hfront, hlast⟩ := List.map_eq_append_iff.mp h.symm
    obtain ⟨e, docs, rfl, he, hdocs⟩ := List.map_eq_cons_iff.mp hlast
    have hstep : e = .step t.keyword t.name t.line := Entry.eq_step_of_unlined e _ _ _ he
    have hall : ∀ e ∈ docs, e.isDocString = true := by
      intro e' he'
      have hmem : e'.unlined ∈ t.docString.toList.map (Entry.docString · 0) :=
        hdocs ▸ List.mem_map_of_mem he'
      obtain ⟨content', _, hcontent⟩ := List.mem_map.mp hmem
      rw [← e'.isDocString_unlined, ← hcontent]
      rfl
    rw [hstep] at hlasting
    rw [Entry.lasting_append_docString past front docs _ _ content _ line hlasting hall,
      List.map_append, hfront]
    rfl

/-- What becomes of a draft that entries are added to, whichever of them are refused. -/
def offerAll (d : Draft) (entries : List Entry) : Draft := entries.foldl (fun d e => (d.add e).1) d

theorem offerAll_cons (d : Draft) (e : Entry) (rest : List Entry) :
    d.offerAll (e :: rest) = (d.add e).1.offerAll rest := rfl

/-- The entries that are not refused. -/
def accepted (d : Draft) : List Entry → List Entry
  | [] => []
  | e :: rest =>
    match d.add e with
    | (d', .ok ()) => e :: d'.accepted rest
    | (d', .error _) => d'.accepted rest

theorem Place.accepted_cons {d d' : Draft} {e : Entry} (h : Place d e d') (rest : List Entry) :
    d.accepted (e :: rest) = e :: d'.accepted rest := by
  simp only [accepted, h.add]

theorem Refuses.accepted_cons {d : Draft} {e : Entry} {o : Orphan} (h : d.Refuses e o)
    (rest : List Entry) : d.accepted (e :: rest) = d.accepted rest := by
  simp only [accepted, h.add]

theorem Lists.offerAll {d : Draft} {past : List Entry} (h : d.Lists past) (entries : List Entry) :
    (d.offerAll entries).Lists (past ++ d.accepted entries) := by
  induction entries generalizing d past with
  | nil =>
    rw [accepted, List.append_nil]
    exact h
  | cons e rest ih =>
    rcases d.place_or_refuses e with ⟨d', hplace⟩ | ⟨o, hrefuses⟩
    · have hnext := ih (h.place hplace)
      rw [List.append_assoc, List.singleton_append] at hnext
      rwa [offerAll_cons, hplace.add, hplace.accepted_cons]
    · rw [offerAll_cons, hrefuses.add, hrefuses.accepted_cons]
      exact ih h

/-- Without the entries that are refused, all are accepted, and make the same tree. -/
theorem addAll_accepted (d : Draft) (entries : List Entry) :
    (d.addAll (d.accepted entries)).1 = .ok (d.offerAll entries) := by
  induction entries generalizing d with
  | nil => rfl
  | cons e rest ih =>
    rcases d.place_or_refuses e with ⟨d', hplace⟩ | ⟨o, hrefuses⟩
    · rw [offerAll_cons, hplace.accepted_cons, addAll_cons d d' e _ hplace.add, hplace.add]
      exact ih d'
    · rw [offerAll_cons, hrefuses.accepted_cons, hrefuses.add]
      exact ih d

theorem addAll_append_fst (d d' : Draft) (a b : List Entry) (h : (d.addAll a).1 = .ok d') :
    (d.addAll (a ++ b)).1 = (d'.addAll b).1 := by
  rw [d.addAll_append d' a b _ (Prod.ext h rfl)]

/-- If every item adds itself to a draft of items, so does a list of them. -/
theorem addAll_flatMap {α : Type} (entries : α → List Entry) (draft : List α → Draft)
    (hone : ∀ past a, ((draft past).addAll (entries a)).1 = .ok (draft (past ++ [a])))
    (past items : List α) :
    ((draft past).addAll (items.flatMap entries)).1 = .ok (draft (past ++ items)) := by
  induction items generalizing past with
  | nil => simp [addAll]
  | cons a rest ih =>
    rw [List.flatMap_cons, addAll_append_fst _ _ _ _ (hone past a), ih, List.append_assoc]
    rfl

theorem addAll_step (fs : List Feature) (f : Feature) (s : Scenario) (t : Step) :
    (addAll ⟨fs ++ [f.addScenario s]⟩ t.entries).1 = .ok ⟨fs ++ [f.addScenario (s.addStep t)]⟩ := by
  have hstep := add_step fs f s t.keyword t.name t.line
  rcases t with ⟨keyword, name, line, _ | content⟩
  · rw [Step.entries, addAll_cons _ _ _ _ hstep]
    rfl
  · have hattach := add_docString fs f s ⟨keyword, name, line, none⟩ content 0
    rw [Step.entries, addAll_cons _ _ _ _ hstep, Option.toList_some, List.map_singleton,
      addAll_cons _ _ _ _ hattach]
    rfl

theorem addAll_scenarioEntries (fs : List Feature) (f : Feature) (s : Scenario) :
    (addAll ⟨fs ++ [f]⟩ s.entries).1 = .ok ⟨fs ++ [f.addScenario s]⟩ := by
  rw [Scenario.entries, addAll_cons _ _ _ _ (add_scenario fs f s.keyword s.name 0)]
  refine addAll_flatMap Step.entries
    (fun ts => ⟨fs ++ [f.addScenario { s with steps := ts }]⟩) (fun past t => ?_) [] s.steps
  exact addAll_step fs f { s with steps := past } t

theorem addAll_featureEntries (fs : List Feature) (f : Feature) :
    (addAll ⟨fs⟩ f.entries).1 = .ok ⟨fs ++ [f]⟩ := by
  have hfeature : add ⟨fs⟩ (.feature f.keyword f.name f.description) =
      (⟨fs ++ [{ f with scenarios := [] }]⟩, .ok ()) := rfl
  rw [Feature.entries, addAll_cons _ _ _ _ hfeature]
  refine addAll_flatMap Scenario.entries (fun ss => ⟨fs ++ [{ f with scenarios := ss }]⟩)
    (fun past s => ?_) [] f.scenarios
  exact addAll_scenarioEntries fs { f with scenarios := past } s

theorem addAll_entries (d : Draft) : (addAll {} d.entries).1 = .ok d :=
  addAll_flatMap Feature.entries Draft.mk addAll_featureEntries [] d.features

/-- The lines that no tree keeps do not matter to what an entry adds. -/
theorem place_unlined_iff (d d' : Draft) (e : Entry) : Place d e.unlined d' ↔ Place d e d' := by
  cases e with
  | feature keyword name description => exact Iff.rfl
  | step keyword name line => exact Iff.rfl
  | scenario keyword name line =>
    constructor
    · rintro ⟨⟩
      exact .scenario ..
    · rintro ⟨⟩
      exact .scenario ..
  | docString content line =>
    constructor
    · rintro ⟨⟩
      exact .docString ..
    · rintro ⟨⟩
      exact .docString ..

theorem addAll_unlined (d d' : Draft) (entries : List Entry)
    (h : (d.addAll (entries.map Entry.unlined)).1 = .ok d') : (d.addAll entries).1 = .ok d' := by
  induction entries generalizing d with
  | nil => exact h
  | cons e rest ih =>
    rw [List.map_cons] at h
    rcases he : d.add e.unlined with ⟨next, o | _⟩
    · simp only [addAll, he] at h
      exact absurd h (by simp)
    · have hadd : d.add e = (next, .ok ()) := by
        rw [add_eq_ok_iff, ← place_unlined_iff, ← add_eq_ok_iff]
        exact he
      rw [addAll_cons d next _ _ he] at h
      rw [addAll_cons d next e rest hadd]
      exact ih next h

/-- An entry is refused just if the node that is to enclose it is not there, and leaves the draft as
it is then. Whatever entries are offered to an empty draft, it lists those that are accepted, but
for the doc strings that later ones replace. The entries that list a tree, on whatever lines, make
it. -/
theorem draft_lists_accepted_entries :
    (∀ d e o, ((add d e).2 = .error o ↔ d.Refuses e o) ∧ (d.Refuses e o → (add d e).1 = d)) ∧
    (∀ entries, let d := offerAll {} entries
      (addAll {} (accepted {} entries)).1 = .ok d ∧
        d.entries = (Entry.lasting (accepted {} entries)).map Entry.unlined) ∧
    ∀ d entries, entries.map Entry.unlined = d.entries → (addAll {} entries).1 = .ok d := by
  refine ⟨fun d e o => ⟨d.add_eq_error_iff e o, fun h => ?_⟩, fun entries => ⟨?_, ?_⟩,
    fun d entries h => ?_⟩
  · rw [h.add]
  · exact addAll_accepted {} entries
  · have hempty : Lists {} [] := rfl
    exact hempty.offerAll entries
  · apply addAll_unlined {} d entries
    rw [h]
    exact d.addAll_entries

end Draft

/-- Entries of which one of each kind comes too early, and a doc string that is replaced. -/
def strayEntries : List Entry :=
  [.scenario "Scenario" "early" 1, .feature "Feature" "only" "", .step "* " "early" 3,
    .scenario "Scenario" "first" 4, .docString "early" 5, .step "* " "go" 6, .docString "old" 7,
    .docString "new" 8, .scenario "Scenario" "second" 9, .docString "late" 10]

/-- What the tree of these entries lists, on lines of its own. -/
def strayListing : List Entry :=
  [.feature "Feature" "only" "", .scenario "Scenario" "first" 2, .step "* " "go" 6,
    .docString "new" 6, .scenario "Scenario" "second" 8]

theorem strayEntries_listed :
    let d := Draft.offerAll {} strayEntries
    d.Refuses (.docString "late" 10) ⟨"DocString", 10⟩ ∧
      (d.add (.docString "late" 10)).2 = .error ⟨"DocString", 10⟩ ∧
      (d.add (.docString "late" 10)).1 = d ∧
      d.entries = strayListing.map Entry.unlined ∧
      (Draft.addAll {} strayListing).1 = .ok d := by
  intro d
  obtain ⟨hrefused, hlisted, hmade⟩ := Draft.draft_lists_accepted_entries
  have herror : (d.add (.docString "late" 10)).2 = .error ⟨"DocString", 10⟩ := rfl
  have hlate : d.Refuses (.docString "late" 10) ⟨"DocString", 10⟩ :=
    (hrefused d _ _).1.mp herror
  have hentries : d.entries = strayListing.map Entry.unlined :=
    (hlisted strayEntries).2.trans (by decide)
  exact ⟨hlate, herror, (hrefused d _ _).2 hlate, hentries,
    hmade d strayListing hentries.symm⟩

end FeatureRun
