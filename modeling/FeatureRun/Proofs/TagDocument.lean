import FeatureRun.Proofs.WrittenLines

namespace FeatureRun

/-- The elements that hold others; a step holds its result. -/
inductive Element
  | features
  | feature
  | scenario
  | step
  deriving DecidableEq, Repr, Inhabited

namespace Element

/-- The element that an element belongs in. -/
def parent? : Element → Option Element
  | .features => none
  | .feature => some .features
  | .scenario => some .feature
  | .step => some .scenario

def level : Element → Nat
  | .features => 0
  | .feature => 1
  | .scenario => 2
  | .step => 3

def name : Element → String
  | .features => "features"
  | .feature => "feature"
  | .scenario => "scenario"
  | .step => "step"

end Element

inductive Tag
  | opening (e : Element)
  | closing (e : Element)
  | result (success : Bool)
  deriving DecidableEq, Repr, Inhabited

namespace Tag

def level : Tag → Nat
  | .opening e => e.level
  | .closing e => e.level
  | .result _ => 4

def text : Tag → String
  | .opening e => "<" ++ e.name ++ ">"
  | .closing e => "</" ++ e.name ++ ">"
  | .result success => "<result success='" ++ toString success ++ "'></result>"

def line (t : Tag) : List Char := List.replicate (2 * t.level) ' ' ++ t.text.toList

/-- Tags as they are written, a line each. -/
def write (tags : List Tag) : String := Text.written (tags.map line)

def all : List Tag :=
  [.opening .features, .opening .feature, .opening .scenario, .opening .step,
    .closing .features, .closing .feature, .closing .scenario, .closing .step,
    .result true, .result false]

def ofLine? (l : List Char) : Option Tag := all.find? fun t => t.line == l

/-- The tags of a text, if it has one on each line and every line has its line feed. -/
def read? (text : String) : Option (List Tag) :=
  let lines := Text.lines text.toList
  if lines.getLast? = some [] then lines.dropLast.mapM ofLine? else none

theorem mem_all (t : Tag) : t ∈ all := by
  rcases t with (_ | _ | _ | _) | (_ | _ | _ | _) | (_ | _) <;> decide

theorem ofLine?_eq_some_iff (l : List Char) (t : Tag) : ofLine? l = some t ↔ l = t.line := by
  have hall : ∀ t ∈ all, ofLine? t.line = some t := by decide +kernel
  constructor
  · intro h
    have hfound := List.find?_some h
    exact (beq_iff_eq.mp hfound).symm
  · rintro rfl
    exact hall t t.mem_all

theorem lineFeed_not_mem_line (t : Tag) : '\n' ∉ t.line := by
  have hall : ∀ t ∈ all, '\n' ∉ t.line := by decide +kernel
  exact hall t t.mem_all

theorem mapM_ofLine?_eq_some_iff (ls : List (List Char)) (tags : List Tag) :
    ls.mapM ofLine? = some tags ↔ ls = tags.map line := by
  induction ls generalizing tags with
  | nil => cases tags <;> simp
  | cons l rest ih =>
    cases tags with
    | nil => simp [List.mapM_cons, Option.bind_eq_some_iff]
    | cons t others => simp [List.mapM_cons, Option.bind_eq_some_iff, ofLine?_eq_some_iff, ih]

/-- Reading takes just what is written. -/
theorem read?_eq_some_iff (text : String) (tags : List Tag) :
    read? text = some tags ↔ text = write tags := by
  constructor
  · intro h
    rw [read?] at h
    split at h
    case isTrue hlast =>
      obtain ⟨ls, hls⟩ := List.getLast?_eq_some_iff.mp hlast
      rw [hls, List.dropLast_concat] at h
      have hlines := (mapM_ofLine?_eq_some_iff ls tags).mp h
      apply Text.eq_written_of_lines
      rw [← hlines]
      exact hls
    case isFalse => exact absurd h (by simp)
  · rintro rfl
    have hlines : Text.lines (write tags).toList = tags.map line ++ [[]] := by
      apply Text.lines_written
      intro l hl
      obtain ⟨t, _, rfl⟩ := List.mem_map.mp hl
      exact t.lineFeed_not_mem_line
    rw [read?, hlines, if_pos List.getLast?_concat, List.dropLast_concat]
    exact (mapM_ofLine?_eq_some_iff _ tags).mpr rfl

/-- The tags of an element around what it holds. -/
def around (e : Element) (inner : List Tag) : List Tag := .opening e :: inner ++ [.closing e]

theorem write_append (a b : List Tag) : write (a ++ b) = write a ++ write b := by
  rw [write, write, write, List.map_append, Text.written_append]

/-- The elements left open behind tags, the innermost first; `outer` are open before them. -/
def unclosed (outer : List Element) : List Tag → List Element
  | [] => outer
  | .opening e :: rest => unclosed (e :: outer) rest
  | .closing _ :: rest => unclosed outer.tail rest
  | .result _ :: rest => unclosed outer rest

/-- Tags that are well nested inside an element. -/
inductive Nested : Element → List Tag → Prop
  | nil (e : Element) : Nested e []
  | result (success : Bool) (rest : List Tag) (h : Nested .step rest) :
      Nested .step (.result success :: rest)
  | child (outer e : Element) (inner rest : List Tag) (he : e.parent? = some outer)
      (hinner : Nested e inner) (hrest : Nested outer rest) :
      Nested outer (around e inner ++ rest)

/-- All tags of a text whose outermost element is the one that belongs in no other. -/
def Document (tags : List Tag) : Prop :=
  ∃ inner, Nested .features inner ∧ tags = around .features inner

theorem unclosed_append (outer : List Element) (a b : List Tag) :
    unclosed outer (a ++ b) = unclosed (unclosed outer a) b := by
  induction a generalizing outer with
  | nil => rfl
  | cons t rest ih => cases t <;> exact ih _

/-- A beginning stops before an item or goes on behind it. -/
theorem prefix_append_cons {α : Type} {p a b : List α} {t : α} (h : p <+: a ++ t :: b) :
    p <+: a ∨ ∃ q, p = a ++ t :: q ∧ q <+: b := by
  obtain ⟨u, hu⟩ := h
  rcases List.append_eq_append_iff.mp hu with ⟨v, ha, _⟩ | ⟨q, hp, hb⟩
  · exact Or.inl ⟨v, ha.symm⟩
  · cases q with
    | nil =>
      rw [List.append_nil] at hp
      exact Or.inl ⟨[], by rw [hp, List.append_nil]⟩
    | cons t' q =>
      obtain ⟨ht, hrest⟩ := List.cons.inj hb
      exact Or.inr ⟨q, ht ▸ hp, u, hrest.symm⟩

namespace Nested

variable {e outer : Element} {tags a b : List Tag}

theorem append (ha : Nested e a) (hb : Nested e b) : Nested e (a ++ b) := by
  induction ha with
  | nil e => exact hb
  | result success rest h ih => exact .result success _ (ih hb)
  | child outer e inner rest he hinner hrest _ ih =>
    rw [List.append_assoc]
    exact .child outer e inner _ he hinner (ih hb)

theorem around_child (he : e.parent? = some outer) (h : Nested e tags) :
    Nested outer (around e tags) := by
  have hchild := Nested.child outer e tags [] he h (.nil outer)
  rwa [List.append_nil] at hchild

theorem unclosed_eq (h : Nested e tags) (outside : List Element) :
    unclosed outside tags = outside := by
  induction h generalizing outside with
  | nil e => rfl
  | result success rest h ih => exact ih outside
  | child outer e inner rest he hinner hrest ihinner ihrest =>
    have hinside : unclosed outside (around e inner) = outside := by
      rw [around, unclosed_append, unclosed, ihinner]
      rfl
    rw [unclosed_append, hinside, ihrest]

/-- The beginning of well-nested tags is well nested once what it leaves open is closed. -/
theorem closed_prefix (h : Nested e tags) (p : List Tag) (hp : p <+: tags) :
    ∃ left, (∀ outside, unclosed outside p = left ++ outside) ∧
      Nested e (p ++ left.map .closing) := by
  -- what is left open does not depend on what is open outside, so it is named once for all of that
  induction h generalizing p with
  | nil e =>
    obtain rfl := List.prefix_nil.mp hp
    exact ⟨[], fun _ => rfl, .nil e⟩
  | result success rest h ih =>
    rcases List.prefix_cons_iff.mp hp with rfl | ⟨q, rfl, hq⟩
    · exact ⟨[], fun _ => rfl, .nil .step⟩
    · obtain ⟨left, hleft, hnested⟩ := ih q hq
      exact ⟨left, hleft, .result success _ hnested⟩
  | child outer e inner rest he hinner hrest ihinner ihrest =>
    have hlist : around e inner ++ rest = .opening e :: (inner ++ .closing e :: rest) := by
      rw [around, List.append_assoc, List.cons_append]
      rfl
    rw [hlist] at hp
    rcases List.prefix_cons_iff.mp hp with rfl | ⟨q, rfl, hq⟩
    · exact ⟨[], fun _ => rfl, .nil outer⟩
    rcases prefix_append_cons hq with hinside | ⟨r, rfl, hr⟩
    · obtain ⟨left, hleft, hnested⟩ := ihinner q hinside
      refine ⟨left ++ [e], fun outside => ?_, ?_⟩
      · rw [unclosed, hleft, List.append_assoc]
        rfl
      · have hclosed := hnested.around_child he
        rw [around, List.cons_append, List.append_assoc] at hclosed
        rw [List.map_append, List.cons_append]
        exact hclosed
    · obtain ⟨left, hleft, hnested⟩ := ihrest r hr
      refine ⟨left, fun outside => ?_, ?_⟩
      · rw [unclosed, unclosed_append, hinner.unclosed_eq, unclosed]
        exact hleft outside
      · have hboth := Nested.child outer e inner _ he hinner hnested
        rw [around, List.append_assoc, List.cons_append] at hboth
        rw [List.cons_append, List.append_assoc]
        exact hboth

end Nested

/-- The beginning of a document is a document once what it leaves open is closed. -/
theorem Document.closed_prefix {tags : List Tag} (h : Document tags) (p : List Tag)
    (hp : p <+: tags) (hsome : p ≠ []) : Document (p ++ (unclosed [] p).map .closing) := by
  obtain ⟨inner, hinner, rfl⟩ := h
  have hlist : around .features inner = .opening .features :: (inner ++ [.closing .features]) := rfl
  rw [hlist, List.prefix_cons_iff] at hp
  rcases hp with rfl | ⟨q, rfl, hq⟩
  · exact absurd rfl hsome
  rcases prefix_append_cons hq with hinside | ⟨r, rfl, hr⟩
  · obtain ⟨left, hleft, hnested⟩ := hinner.closed_prefix q hinside
    refine ⟨q ++ left.map .closing, hnested, ?_⟩
    rw [unclosed, hleft, List.map_append, around, List.cons_append, List.cons_append,
      List.append_assoc]
    rfl
  · obtain rfl := List.prefix_nil.mp hr
    have hclosed : unclosed [] (.opening .features :: (inner ++ [.closing .features])) = [] := by
      rw [unclosed, unclosed_append, hinner.unclosed_eq]
      rfl
    refine ⟨inner, hinner, ?_⟩
    rw [hclosed, List.map_nil, List.append_nil]
    rfl

/-- A text that is a document, tag by tag. -/
def DocumentText (text : String) : Prop := ∃ tags, Document tags ∧ text = write tags

/-- The closing tags of what a text leaves open, the innermost first. -/
def closers (text : String) : String :=
  write ((unclosed [] ((read? text).getD [])).map .closing)

theorem closers_write (tags : List Tag) :
    closers (write tags) = write ((unclosed [] tags).map .closing) := by
  have hread : read? (write tags) = some tags := (read?_eq_some_iff _ tags).mpr rfl
  rw [closers, hread, Option.getD_some]

theorem documentText_of_prefix {tags p : List Tag} (h : Document tags) (hp : p <+: tags)
    (hsome : p ≠ []) : DocumentText (write p ++ closers (write p)) := by
  rw [closers_write, ← write_append]
  exact ⟨_, h.closed_prefix p hp hsome, rfl⟩

end Tag

/-- A run as its tags show it: for every feature and every scenario in it, whether each step has
passed. -/
abbrev Shape := List (List (List Bool))

namespace Shape

open Tag (around)

def stepTags (passed : Bool) : List Tag := around .step [.result passed]

def scenarioTags (steps : List Bool) : List Tag := around .scenario (steps.flatMap stepTags)

def featureTags (scenarios : List (List Bool)) : List Tag :=
  around .feature (scenarios.flatMap scenarioTags)

def tags (s : Shape) : List Tag := around .features (s.flatMap featureTags)

end Shape

/-- How far tags have been read: what is complete in each of the elements still open. -/
inductive Tag.Reading
  | start
  | features (done : Shape)
  | feature (done : Shape) (scenarios : List (List Bool))
  | scenario (done : Shape) (scenarios : List (List Bool)) (steps : List Bool)
  | step (done : Shape) (scenarios : List (List Bool)) (steps : List Bool) (known : Option Bool)
  | whole (s : Shape)

namespace Tag.Reading

open Shape (stepTags scenarioTags featureTags)

def read : Reading → Tag → Option Reading
  | .start, .opening .features => some (.features [])
  | .features done, .opening .feature => some (.feature done [])
  | .features done, .closing .features => some (.whole done)
  | .feature done ss, .opening .scenario => some (.scenario done ss [])
  | .feature done ss, .closing .feature => some (.features (done ++ [ss]))
  | .scenario done ss bs, .opening .step => some (.step done ss bs none)
  | .scenario done ss bs, .closing .scenario => some (.feature done (ss ++ [bs]))
  | .step done ss bs none, .result b => some (.step done ss bs (some b))
  | .step done ss bs (some b), .closing .step => some (.scenario done ss (bs ++ [b]))
  | _, _ => none

def readAll : Reading → List Tag → Option Reading
  | r, [] => some r
  | r, t :: rest => (r.read t).bind fun r' => r'.readAll rest

/-- The tags that have been read. -/
def tags : Reading → List Tag
  | .start => []
  | .features done => .opening .features :: done.flatMap featureTags
  | .feature done ss =>
    .opening .features :: done.flatMap featureTags ++ .opening .feature :: ss.flatMap scenarioTags
  | .scenario done ss bs =>
    .opening .features :: done.flatMap featureTags ++
      .opening .feature :: ss.flatMap scenarioTags ++ .opening .scenario :: bs.flatMap stepTags
  | .step done ss bs known =>
    .opening .features :: done.flatMap featureTags ++
      .opening .feature :: ss.flatMap scenarioTags ++ .opening .scenario :: bs.flatMap stepTags ++
        .opening .step :: known.toList.map .result
  | .whole s => s.tags

theorem tags_read {r r' : Reading} {t : Tag} (h : r.read t = some r') :
    r'.tags = r.tags ++ [t] := by
  unfold read at h
  split at h
  case h_10 => exact absurd h (by simp)
  all_goals
    obtain rfl := Option.some.inj h
    simp [tags, Shape.tags, featureTags, scenarioTags, stepTags, Tag.around]

theorem tags_readAll {r r' : Reading} {ts : List Tag} (h : r.readAll ts = some r') :
    r'.tags = r.tags ++ ts := by
  induction ts generalizing r with
  | nil =>
    obtain rfl := Option.some.inj h
    exact (List.append_nil _).symm
  | cons t rest ih =>
    obtain ⟨next, hone, hrest⟩ := Option.bind_eq_some_iff.mp h
    rw [ih hrest, tags_read hone, List.append_assoc]
    rfl

/-- Items each of which is read in one go are read one after another. -/
theorem readAll_flatMap {α : Type} (reading : List α → Reading) (one : α → List Tag)
    (h : ∀ done a rest, (reading done).readAll (one a ++ rest) =
      (reading (done ++ [a])).readAll rest) (done more : List α) (rest : List Tag) :
    (reading done).readAll (more.flatMap one ++ rest) = (reading (done ++ more)).readAll rest := by
  induction more generalizing done with
  | nil => rw [List.append_nil]; rfl
  | cons a more ih =>
    rw [List.flatMap_cons, List.append_assoc, h, ih, List.append_assoc]
    rfl

theorem readAll_scenario (done : Shape) (ss : List (List Bool)) (bs : List Bool)
    (rest : List Tag) :
    (feature done ss).readAll (scenarioTags bs ++ rest) =
      (feature done (ss ++ [bs])).readAll rest := by
  have hsteps := readAll_flatMap (scenario done ss) stepTags (fun _ _ _ => rfl) [] bs
    (.closing .scenario :: rest)
  rw [scenarioTags, Tag.around, List.append_assoc]
  exact hsteps

theorem readAll_feature (done : Shape) (ss : List (List Bool)) (rest : List Tag) :
    (features done).readAll (featureTags ss ++ rest) = (features (done ++ [ss])).readAll rest := by
  have hscenarios := readAll_flatMap (feature done) scenarioTags (readAll_scenario done) [] ss
    (.closing .feature :: rest)
  rw [featureTags, Tag.around, List.append_assoc]
  exact hscenarios

theorem readAll_tags (s : Shape) : start.readAll s.tags = some (.whole s) :=
  readAll_flatMap features featureTags readAll_feature [] s [.closing .features]

end Tag.Reading

namespace Shape

def ofReading? : Tag.Reading → Option Shape
  | .whole s => some s
  | _ => none

/-- The run that a text tells of. -/
def ofText? (text : String) : Option Shape :=
  (Tag.read? text).bind fun tags => (Tag.Reading.start.readAll tags).bind ofReading?

/-- The one text that tells of a run. -/
def text (s : Shape) : String := Tag.write s.tags

theorem ofText?_eq_some_iff (text : String) (s : Shape) :
    ofText? text = some s ↔ text = s.text := by
  constructor
  · intro h
    obtain ⟨tags, htags, h⟩ := Option.bind_eq_some_iff.mp h
    obtain ⟨r, hr, hs⟩ := Option.bind_eq_some_iff.mp h
    have hwhole : r = .whole s := by
      cases r with
      | whole s' => exact congrArg Tag.Reading.whole (Option.some.inj hs)
      | _ => exact absurd hs (by simp [ofReading?])
    have hread := Tag.Reading.tags_readAll hr
    rw [hwhole] at hread
    rw [Shape.text, (Tag.read?_eq_some_iff text tags).mp htags]
    exact congrArg Tag.write hread.symm
  · intro h
    have htags := (Tag.read?_eq_some_iff text s.tags).mpr h
    rw [ofText?, htags, Option.bind_some, Tag.Reading.readAll_tags]
    rfl

theorem text_injective {s s' : Shape} (h : s.text = s'.text) : s = s' := by
  have hread : ofText? s.text = some s := (ofText?_eq_some_iff _ s).mpr rfl
  have hread' : ofText? s.text = some s' := (ofText?_eq_some_iff _ s').mpr h
  exact Option.some.inj (hread.symm.trans hread')

end Shape

end FeatureRun
