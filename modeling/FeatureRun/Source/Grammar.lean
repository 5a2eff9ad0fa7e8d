import FeatureRun.Source.Cursor
import FeatureRun.Source.Dialect
import FeatureRun.Source.DocString
import FeatureRun.Source.FeatureText

/-!
The grammar of feature texts. A phrase is found at a cursor, absent, or broken: an absent phrase
lets the next alternative be tried, a broken one spoils the whole text. The first alternative that
is found is taken, and what is repeated is repeated as often as it is found.
-/

namespace FeatureRun

universe u

inductive Reading (α : Type u)
  | found (value : α) (next : Cursor)
  | absent
  | broken (cause : Malformed)

def Phrase (α : Type u) := Cursor → Reading α

namespace Phrase

instance : Monad Phrase where
  pure a := fun c => .found a c
  bind p f := fun c =>
    match p c with
    | .found a d => f a d
    | .absent => .absent
    | .broken e => .broken e

variable {α : Type}

def absent : Phrase α := fun _ => .absent

def broken (e : Malformed) : Phrase α := fun _ => .broken e

def skip (f : Cursor → Cursor) : Phrase Unit := fun c => .found () (f c)

def line : Phrase Nat := fun c => .found c.line c

def or (p q : Phrase α) : Phrase α := fun c =>
  match p c with
  | .absent => q c
  | r => r

def optional (p : Phrase α) : Phrase (Option α) := fun c =>
  match p c with
  | .found a d => .found (some a) d
  | .absent => .found none c
  | .broken e => .broken e

/-- Nothing, provided that the phrase is absent here. -/
def notHere (p : Phrase α) : Phrase Unit := fun c =>
  match p c with
  | .found .. => .absent
  | .absent => .found () c
  | .broken e => .broken e

/-- Items one after another, with something skipped between them but not after the last. The first
item may differ from the later ones. -/
def listed (first later : Phrase α) (skip : Cursor → Cursor) (back c : Cursor) :
    Reading (List α) :=
  match first c with
  | .absent => .found [] back
  | .broken e => .broken e
  | .found a d =>
    if _h : (skip d).left < c.left then
      match listed later later skip d (skip d) with
      | .found rest next => .found (a :: rest) next
      | r => r
    else .found [a] d
  termination_by c.left

def separated (p : Phrase α) (skip : Cursor → Cursor) : Phrase (List α) := fun c =>
  listed p p skip c c

/-- The given number of characters, at least one. -/
def characters (length : List Char → Nat) : Phrase (List Char) := fun c =>
  match length c.rest with
  | 0 => .absent
  | n => .found (c.rest.take n) (c.drop n)

def literal (s : String) : Phrase Unit := fun c =>
  if s.toList.isPrefixOf c.rest then .found () (c.drop s.length) else .absent

def spaces : Phrase Unit := skip Cursor.spaces

def lineEnd : Phrase Unit := fun c =>
  match c.lineEnd? with
  | some d => .found () d
  | none => .absent

/-- What is left of a line, at least one character. -/
def restOfLine : Phrase (List Char) := characters Cursor.lineLength

/-- The first of some keywords that stands here; comments before it are skipped. -/
def keyword (words : List String) : Phrase String := fun c =>
  let c := c.comments
  match words.find? fun w => w.toList.isPrefixOf c.rest with
  | some w => .found w (c.drop w.length)
  | none => .absent

def trimmed (cs : List Char) : String := String.ofList (Text.trimEnd cs)

/-- A keyword with a colon and what is left of the line, which may be nothing. -/
def heading (words : List String) : Phrase (String × String) := do
  let word ← keyword words
  literal ":"
  spaces
  let name ← optional restOfLine
  spaces
  lineEnd
  return (word, trimmed (name.getD []))

def tagLength : List Char → Nat
  | '@' :: cs =>
    match (cs.takeWhile fun c => !Text.isBlank c && c != '@').length with
    | 0 => 0
    | n => n + 1
  | _ => 0

def tags : Phrase Unit := do
  let _ ← separated (characters tagLength) Cursor.gap
  spaces
  skip Cursor.newlines

def descriptionLine (ends : List String) : Phrase (List Char) := do
  spaces
  notHere (literal "@")
  notHere (keyword ends)
  spaces
  let text ← restOfLine
  lineEnd
  return text

/-- Lines up to one that starts with one of the keywords; nothing if all of it is white space. -/
def description (ends : List String) : Phrase (Option String) := do
  let lines ← separated (descriptionLine ends) Cursor.spaces
  skip Cursor.gap
  let text := List.intercalate ['\n'] lines
  return if text.all Text.isBlank then none else some (String.ofList text)

/-- The length of a doc string before its closing fence, if it has one. A number sign hides the
rest of its line, a fence included. -/
def fencedLength (fence : List Char) : Nat → Bool → List Char → Option Nat
  | _, _, [] => none
  | n, hidden, c :: cs =>
    if !hidden && fence.isPrefixOf (c :: cs) then some n
    else fencedLength fence (n + 1) (c != '\n' && (hidden || c == '#')) cs

def fenced (fence : String) : Phrase String := do
  literal fence
  let text ← fun c =>
    match fencedLength fence.toList 0 false c.rest with
    | some n => .found (c.rest.take n) (c.drop n)
    | none => .absent
  literal fence
  lineEnd
  return String.ofList (DocString.unindent text)

def docString : Phrase String := or (fenced "\"\"\"") (fenced "\x60\x60\x60")

/-- The length of a table cell with the bar before it. A bar that nothing follows on its line
starts no cell. -/
def cellLength : List Char → Nat
  | '|' :: cs =>
    let n := Cursor.spaceLength cs
    let inner := cs.drop n
    if inner.isEmpty || Cursor.breakLength inner != 0 then 0
    else 1 + n + Cursor.lengthTo (some '|') 0 inner
  | _ => 0

/-- A row of a table, as the number of its cells. -/
def row : Phrase Nat := do
  let cells ← separated (characters cellLength) Cursor.spaces
  spaces
  literal "|"
  spaces
  lineEnd
  return cells.length

/-- A table, of which nothing is kept. No row may have fewer cells than the first. -/
def table : Phrase Unit := do
  spaces
  let start ← line
  match ← separated row Cursor.spaces with
  | [] => absent
  | first :: rest => if rest.any (· < first) then broken (.raggedTable start) else return

def stepWith (words : List String) : Phrase StepText := do
  let line ← line
  let keyword ← keyword words
  spaces
  let value ← restOfLine
  spaces
  lineEnd
  spaces
  let docString ← optional docString
  let _ ← optional table
  return { keyword, value := trimmed value, line, docString }

/-- A step. One that continues another has to follow one. -/
def step (d : Dialect) (follows : Bool) : Phrase StepText :=
  or (do skip Cursor.comments; stepWith d.given)
    (or (stepWith d.when)
      (or (stepWith d.then)
        (if follows then or (stepWith d.and) (stepWith d.but) else absent)))

def steps (d : Dialect) : Phrase (List StepText) := fun c =>
  listed (step d false) (step d true) Cursor.spaces c c

def background (d : Dialect) : Phrase (List StepText) := do
  skip Cursor.comments
  spaces
  let _ ← heading d.background
  let _ ← description d.stepsFollow
  steps d

def examples (d : Dialect) : Phrase Unit := do
  skip Cursor.comments
  spaces
  tags
  spaces
  let _ ← heading d.examples
  let _ ← description (d.stepsFollow ++ ["|"])
  let _ ← optional table

def scenarioWith (d : Dialect) (words : List String) : Phrase ScenarioText := do
  skip Cursor.comments
  spaces
  tags
  spaces
  let line ← line
  let (keyword, name) ← heading words
  -- a description, tables and examples are read over and not kept
  let _ ← description d.stepsFollow
  let steps ← steps d
  let _ ← separated (examples d) id
  return { keyword, name, line, steps }

def scenario (d : Dialect) : Phrase ScenarioText :=
  or (scenarioWith d d.scenario) (scenarioWith d d.scenarioOutline)

def scenarios (d : Dialect) : Phrase (List ScenarioText) := do
  spaces
  separated (scenario d) Cursor.spaces

def rule (d : Dialect) : Phrase RuleText := do
  spaces
  tags
  spaces
  let _ ← heading d.rule
  let _ ← description d.ruleBody
  let background ← optional (background d)
  skip Cursor.newlines
  let scenarios ← scenarios d
  skip Cursor.newlines
  return { background, scenarios }

def rules (d : Dialect) : Phrase (List RuleText) := do
  spaces
  separated (rule d) Cursor.spaces

/-- A language line. It is one only if it has the shape of one, and then its language has to be
known. -/
def language : Phrase Dialect := do
  skip Cursor.blankLines
  literal "#"
  spaces
  literal "language"
  spaces
  literal ":"
  spaces
  let name ← restOfLine
  spaces
  let _ ← characters Cursor.newlineLength
  match Dialect.ofName? (String.ofList name) with
  | some d => return d
  | none => broken (.unknownLanguage (String.ofList name))

def feature : Phrase FeatureText := do
  spaces
  let d := (← optional language).getD Dialect.english
  skip Cursor.newlines
  tags
  let (keyword, name) ← heading d.feature
  let description ← description d.featureBody
  let background ← optional (background d)
  skip Cursor.newlines
  let scenarios ← scenarios d
  skip Cursor.newlines
  let rules ← rules d
  skip Cursor.newlines
  return { keyword, name, description, background, scenarios, rules }

end Phrase

/-- Reads a feature text, all of which has to be one feature. A line feed is added at the end if
there is none. -/
def FeatureText.read (text : String) : Except Malformed FeatureText :=
  let cs := text.toList
  let cs := if cs.getLast? = some '\n' then cs else cs ++ ['\n']
  match Phrase.feature (Cursor.ofText cs) with
  | .found f c => if c.atEnd then .ok f else .error (.unexpected c.line)
  | .absent => .error (.unexpected 1)
  | .broken e => .error e

end FeatureRun
