import FeatureRun.Proofs.Listing
import FeatureRun.Proofs.Simulation
import FeatureRun.Proofs.WalkOrder
import FeatureRun.Suite

namespace FeatureRun

universe u

/-- A registration behind others is the first that matches a name. -/
def Registration.ComesFirst (before : List Registration) (r : Registration) (name : String) : Prop :=
  r.definition.isMatch name = true ∧ ∀ r' ∈ before, r'.definition.isMatch name = false

namespace Library

theorem lookup?_define (code : List Registration) (name : String) :
    (define code).lookup? name =
      (code.find? (·.definition.isMatch name)).map Registration.definition := by
  rw [lookup?, definitions_define, List.find?_map]
  rfl

theorem lookup?_eq_some_iff (code : List Registration) (name : String) (d : StepDefinition) :
    (define code).lookup? name = some d ↔
      ∃ before r after, code = before ++ r :: after ∧ r.definition = d ∧
        r.ComesFirst before name := by
  rw [lookup?_define, Option.map_eq_some_iff]
  constructor
  · rintro ⟨r, hr, rfl⟩
    obtain ⟨hmatch, before, after, hcode, hbefore⟩ := List.find?_eq_some_iff_append.mp hr
    refine ⟨before, r, after, hcode, rfl, hmatch, fun r' hr' => ?_⟩
    exact Bool.not_eq_true' _ ▸ hbefore r' hr'
  · rintro ⟨before, r, after, hcode, rfl, hmatch, hbefore⟩
    refine ⟨r, List.find?_eq_some_iff_append.mpr ⟨hmatch, before, after, hcode, ?_⟩, rfl⟩
    intro r' hr'
    rw [hbefore r' hr']
    rfl

theorem lookup?_isSome_iff (code : List Registration) (name : String) :
    ((define code).lookup? name).isSome = true ↔
      ∃ r ∈ code, r.definition.isMatch name = true := by
  rw [lookup?_define, Option.isSome_map, List.find?_isSome]

/-- Dropping registrations that do not come first for a name changes nothing for that name. -/
theorem find?_filter_of_not_first (marked : List (Registration × Bool)) (name : String)
    (h : ∀ before r after, marked = before ++ (r, false) :: after →
      ¬ r.ComesFirst (before.map Prod.fst) name) :
    ((marked.filter Prod.snd).map Prod.fst).find? (·.definition.isMatch name) =
      (marked.map Prod.fst).find? (·.definition.isMatch name) := by
  induction marked with
  | nil => rfl
  | cons x rest ih =>
    rcases x with ⟨r, keep⟩
    cases hmatch : r.definition.isMatch name with
    | true =>
      cases keep with
      | false =>
        refine absurd ⟨hmatch, ?_⟩ (h [] r rest rfl)
        exact List.forall_mem_nil _
      | true =>
        rw [List.filter_cons_of_pos rfl]
        simp only [List.map_cons, List.find?_cons, hmatch]
    | false =>
      have hrest := ih fun before r' after hsplit hfirst => by
        apply h ((r, keep) :: before) r' after (congrArg ((r, keep) :: ·) hsplit)
        exact ⟨hfirst.1, List.forall_mem_cons.mpr ⟨hmatch, hfirst.2⟩⟩
      cases keep with
      | false =>
        rw [List.filter_cons_of_neg (by simp), hrest]
        simp only [List.map_cons, List.find?_cons, hmatch]
      | true =>
        rw [List.filter_cons_of_pos rfl]
        simp only [List.map_cons, List.find?_cons, hmatch]
        exact hrest

/-- Definitions at the end, for names that are matched already, are not found by these. -/
theorem lookup?_define_append (code more : List Registration) (name : String)
    (h : ∀ r ∈ more, r.definition.isMatch name = true → (define code).lookup? name ≠ none) :
    (define (code ++ more)).lookup? name = (define code).lookup? name := by
  rw [lookup?_define, lookup?_define, List.find?_append]
  rw [lookup?_define] at h
  cases hfound : code.find? (·.definition.isMatch name) with
  | some r => rfl
  | none =>
    rw [hfound] at h
    have hnone : more.find? (·.definition.isMatch name) = none :=
      List.find?_eq_none.mpr fun r hr hmatch => h r hr hmatch rfl
    rw [hnone]
    rfl

/-- A library is made of definitions, in whatever roles they are registered. -/
theorem define_eq_of_definitions (code code' : List Registration)
    (h : code'.map Registration.definition = code.map Registration.definition) :
    define code' = define code ∧ definingLog code' = definingLog code := by
  have hlibrary : define code' = define code := by
    have hdefinitions : (define code').definitions = (define code).definitions := by
      rw [definitions_define, definitions_define]
      exact h
    exact congrArg Library.mk hdefinitions
  refine ⟨hlibrary, ?_⟩
  have hregistered := congrArg
    (List.map fun d : StepDefinition => Occurrence.traced (.registered d.pattern.text)) h
  rw [List.map_map, List.map_map] at hregistered
  rw [definingLog, definingLog, hlibrary]
  exact congrArg (· ++ [Occurrence.traced (.libraryDefined (define code).size)]) hregistered

/-- The tasks of a node look up the names of its steps. -/
theorem within_agenda (n : Node) :
    ∀ t ∈ n.agenda, t.Within fun name => ∃ s ∈ n.steps, s.name = name := by
  intro t ht
  rw [n.agenda_eq_scenes] at ht
  obtain ⟨scene, hscene, ht⟩ := List.mem_flatMap.mp ht
  cases scene with
  | border side b =>
    obtain rfl := List.mem_singleton.mp ht
    cases side <;> trivial
  | step s =>
    have hs : s ∈ n.steps := by
      rw [← n.flatMap_steps_scenes]
      exact List.mem_flatMap.mpr ⟨_, hscene, List.mem_singleton_self s⟩
    have htask : t = .enter (.step s) ∨ t = .execute s ∨ t = .leave (.step s) := by
      simpa [Scene.tasks, Task.ofStep, Task.around] using ht
    rcases htask with rfl | rfl | rfl
    · trivial
    · exact ⟨s, hs, rfl⟩
    · trivial

variable {L : Type u} [Listener L]

/-- Two libraries that find the same for every step of a node make the same of walking it. -/
theorem walks_eq_of_lookups (library library' : Library) (n : Node)
    (h : ∀ s ∈ n.steps, library'.lookup? s.name = library.lookup? s.name) (listeners : List L)
    (actions : List Action) :
    let walk := Session.ofNode library n listeners
    let walk' := Session.ofNode library' n listeners
    walk'.outcomes actions = walk.outcomes actions ∧
      walk'.logAll actions = walk.logAll actions ∧
      (walk'.after actions).desk = (walk.after actions).desk := by
  intro walk walk'
  have hsame (e : Effect Occurrence (List L)) : Effect.Mirrors Eq some True e e :=
    ⟨rfl, rfl, fun _ => rfl⟩
  have hvisitor : Visitor.Mirrors Eq some True (fun name => ∃ s ∈ n.steps, s.name = name)
      library'.visitor (library.visitor (L := L)) := by
    constructor
    case enter =>
      rintro n w _ rfl
      exact hsame _
    case leave =>
      rintro n w _ rfl
      exact hsame _
    case conclude =>
      rintro r w _ rfl
      exact hsame _
    case found =>
      rintro name ⟨s, hs, rfl⟩
      exact h s hs
    case looked => exact fun _ _ => rfl
  have hstart : Session.Mirrors Eq some True _ walk' walk :=
    .ofNode n hvisitor rfl (within_agenda n)
  obtain ⟨houtcomes, hlog, hafter⟩ := hstart.after actions (Or.inl trivial)
  rw [List.filterMap_some, List.filterMap_some] at hlog
  exact ⟨houtcomes, hlog, hafter.desk.eq⟩

end Library

/-- The roles of registrations play no part in a run. Definitions that come first for no step name of
a node may be left out or added anywhere, those at the end if they match only names that are matched
already, without a change in what is found for its steps, in what walking it does and in what it leads
to. What is found is the first definition that matches, and something is found if any does. -/
theorem walks_need_first_matches {L : Type u} [Listener L] (code : List Registration) (n : Node)
    (listeners : List L) (actions : List Action) :
    (∀ (roles : Nat → StepRole) (sources : List String)
        (read : String → Except Malformed FeatureText),
      let code' := code.mapIdx fun i r => { r with role := roles i }
      Library.define code' = Library.define code ∧
        Suite.start read ⟨sources, code'⟩ listeners = Suite.start read ⟨sources, code⟩ listeners) ∧
    (∀ marked : List (Registration × Bool),
      (∀ before r after, marked = before ++ (r, false) :: after →
        ∀ s ∈ n.steps, ¬ r.ComesFirst (before.map Prod.fst) s.name) →
      let library := Library.define (marked.map Prod.fst)
      let library' := Library.define ((marked.filter Prod.snd).map Prod.fst)
      let walk := Session.ofNode library n listeners
      let walk' := Session.ofNode library' n listeners
      (∀ s ∈ n.steps, library'.lookup? s.name = library.lookup? s.name) ∧
        walk'.outcomes actions = walk.outcomes actions ∧
        walk'.logAll actions = walk.logAll actions ∧
        (walk'.after actions).desk = (walk.after actions).desk) ∧
    (∀ more : List Registration,
      (∀ r ∈ more, ∀ s ∈ n.steps, r.definition.isMatch s.name = true →
        (Library.define code).lookup? s.name ≠ none) →
      let walk := Session.ofNode (Library.define code) n listeners
      let walk' := Session.ofNode (Library.define (code ++ more)) n listeners
      walk'.outcomes actions = walk.outcomes actions ∧
        walk'.logAll actions = walk.logAll actions ∧
        (walk'.after actions).desk = (walk.after actions).desk) ∧
    ∀ name, let found := (Library.define code).lookup? name
      (found.isSome = true ↔ ∃ r ∈ code, r.definition.isMatch name = true) ∧
        ∀ d, found = some d ↔ ∃ before r after, code = before ++ r :: after ∧
          r.definition = d ∧ r.ComesFirst before name := by
  refine ⟨?_, ?_, ?_, fun name => ⟨Library.lookup?_isSome_iff code name,
    Library.lookup?_eq_some_iff code name⟩⟩
  · intro roles sources read code'
    have hdefinitions : code'.map Registration.definition = code.map Registration.definition := by
      apply List.ext_getElem
      · simp [code']
      · intro i _ _
        simp [code']
    obtain ⟨hlibrary, hlog⟩ := Library.define_eq_of_definitions code code' hdefinitions
    refine ⟨hlibrary, ?_⟩
    simp only [Suite.start, Suite.startingLog, hlibrary, hlog]
  · intro marked h library library' walk walk'
    have hfound : ∀ s ∈ n.steps, library'.lookup? s.name = library.lookup? s.name := by
      intro s hs
      rw [Library.lookup?_define, Library.lookup?_define, Library.find?_filter_of_not_first]
      exact fun before r after hsplit => h before r after hsplit s hs
    exact ⟨hfound, Library.walks_eq_of_lookups library library' n hfound listeners actions⟩
  · intro more h
    apply Library.walks_eq_of_lookups
    intro s hs
    exact Library.lookup?_define_append code more s.name fun r hr => h r hr s hs

/-- Of two definitions with one pattern the second is never found, and there is a step that none of
them matches. -/
theorem shadowedDefinition_unneeded :
    let first : Registration := ⟨.action, ⟨.findsG, 0, obedient⟩⟩
    let second : Registration := ⟨.context, ⟨.findsG, 1, fun _ => ⟨.dropped, none⟩⟩⟩
    let marked := [(first, true), (second, false)]
    let walk := Session.ofNode (Library.define [first, second]) mixedTree [({} : Statistics)]
    let walk' := Session.ofNode (Library.define [first]) mixedTree [({} : Statistics)]
    (∀ before r after, marked = before ++ (r, false) :: after →
      ∀ s ∈ mixedTree.steps, ¬ r.ComesFirst (before.map Prod.fst) s.name) ∧
    (∀ r ∈ [second], ∀ s ∈ mixedTree.steps, r.definition.isMatch s.name = true →
      (Library.define [first]).lookup? s.name ≠ none) ∧
    walk'.outcomes [.poll] = [.ready] ∧ walk.outcomes [.poll] = [.ready] ∧
    walk'.logAll [.poll] = walk.logAll [.poll] ∧
    (walk.after [.poll]).desk = (walk'.after [.poll]).desk := by
  intro first second marked walk walk'
  have hsame (name : String) : second.definition.isMatch name = first.definition.isMatch name := rfl
  have hmarked : ∀ before r after, marked = before ++ (r, false) :: after →
      ∀ s ∈ mixedTree.steps, ¬ r.ComesFirst (before.map Prod.fst) s.name := by
    intro before r after hsplit s _ hfirst
    rcases before with _ | ⟨x, _ | ⟨y, rest⟩⟩
    · simp [marked] at hsplit
    · simp only [marked, List.cons_append, List.nil_append, List.cons.injEq, Prod.mk.injEq] at hsplit
      obtain ⟨rfl, ⟨rfl, -⟩, -⟩ := hsplit
      have hno := hfirst.2 first (List.mem_singleton_self first)
      rw [← hsame, hfirst.1] at hno
      exact absurd hno (by decide)
    · have hlength := congrArg List.length hsplit
      simp [marked] at hlength
  have hmore : ∀ r ∈ [second], ∀ s ∈ mixedTree.steps, r.definition.isMatch s.name = true →
      (Library.define [first]).lookup? s.name ≠ none := by
    intro r hr s _ hmatch
    obtain rfl := List.mem_singleton.mp hr
    have hsome := (Library.lookup?_isSome_iff [first] s.name).mpr
      ⟨first, List.mem_singleton_self first, hmatch⟩
    exact Option.isSome_iff_ne_none.mp hsome
  obtain ⟨_, hleft, hadded, _⟩ := walks_need_first_matches [first] mixedTree [({} : Statistics)]
    [.poll]
  obtain ⟨_, houtcomes, hlog, _⟩ := hleft marked hmarked
  obtain ⟨_, _, hdesk⟩ := hadded [second] hmore
  have hready : walk'.outcomes [.poll] = [.ready] := by decide +kernel
  exact ⟨hmarked, hmore, hready, houtcomes.symm.trans hready, hlog, hdesk⟩

end FeatureRun
