import FeatureRun.Listener.Styles
import FeatureRun.Text.Lines

/-!
Colored text is a list of chunks, some of them in a color. Deleting the codes of the colors leaves
the chunks as they were logged, unless what is logged could be mistaken for a code.
-/

namespace FeatureRun

/-- Whether a log is printed to a terminal, the policy for its colors, if one was set, and whether
the terminal supports colors. -/
structure Display where
  terminal : Bool := true
  coloring : Option Coloring := none
  supported : Bool := true
  deriving DecidableEq, Repr, Inhabited

namespace Display

/-- Without a policy it is left to the terminal whether text is colored. -/
def styled (d : Display) : Bool := (d.coloring.getD .auto).enabled d.supported

def styles (d : Display) : Styles :=
  match d.coloring with
  | some c => (Styles.ofTerminal d.supported).withColoring d.supported c
  | none => Styles.ofTerminal d.supported

/-- The styles a log is given. -/
def styles? (d : Display) : Option Styles := if d.terminal then some d.styles else none

theorem styles_enabled (d : Display) : d.styles.enabled = d.styled := by
  rcases d with ⟨_, _ | c, supported⟩ <;> rfl

end Display

namespace Text

/-- The character that every code of a color begins with. -/
def escape : Char := '\x1b'

/-- A text without the codes that begin a color or end it. -/
def deleteCodes : List Char → List Char
  | '\x1b' :: '[' :: '3' :: '1' :: 'm' :: rest => deleteCodes rest
  | '\x1b' :: '[' :: '3' :: '2' :: 'm' :: rest => deleteCodes rest
  | '\x1b' :: '[' :: '3' :: '3' :: 'm' :: rest => deleteCodes rest
  | '\x1b' :: '[' :: '0' :: 'm' :: rest => deleteCodes rest
  | c :: rest => c :: deleteCodes rest
  | [] => []

/-- A text in which nothing can be mistaken for a code. -/
def Plain (text : String) : Prop := escape ∉ text.toList

instance (text : String) : Decidable (Plain text) :=
  inferInstanceAs (Decidable (escape ∉ text.toList))

theorem plain_append_iff (a b : String) : Plain (a ++ b) ↔ Plain a ∧ Plain b := by
  rw [Plain, String.toList_append, List.mem_append, not_or]
  rfl

theorem plain_intercalate (separator : String) (texts : List String) (hs : Plain separator)
    (h : ∀ t ∈ texts, Plain t) : Plain (separator.intercalate texts) := by
  induction texts with
  | nil => exact List.not_mem_nil
  | cons t rest ih =>
    have ht : Plain t := h t (List.mem_cons_self ..)
    cases rest with
    | nil =>
      rw [String.intercalate_singleton]
      exact ht
    | cons u rest =>
      have hrest := ih fun t' ht' => h t' (List.mem_cons_of_mem t ht')
      rw [String.intercalate_cons_cons, plain_append_iff, plain_append_iff]
      exact ⟨⟨ht, hs⟩, hrest⟩

theorem plain_repr (n : Nat) : Plain (toString n) := by
  intro hmem
  have hdigit : escape.isDigit = true :=
    Nat.isDigit_of_mem_toDigits (by decide) (by decide) (Nat.toList_repr ▸ hmem)
  exact absurd hdigit (by decide)

theorem mem_unlines_of_mem (ls : List (List Char)) : ∀ l ∈ ls, l ⊆ unlines ls := by
  induction ls with
  | nil => exact fun l hl => absurd hl List.not_mem_nil
  | cons l rest ih =>
    intro m hm
    cases rest with
    | nil => exact (List.mem_singleton.mp hm) ▸ List.Subset.refl _
    | cons l' rest =>
      rcases List.mem_cons.mp hm with rfl | hm
      · exact List.subset_append_left _ _
      · intro c hc
        exact List.mem_append_right _ (List.mem_cons_of_mem _ (ih m hm hc))

theorem mem_of_mem_unlines (ls : List (List Char)) (c : Char) (h : c ∈ unlines ls) :
    c = '\n' ∨ ∃ l ∈ ls, c ∈ l := by
  induction ls with
  | nil => exact absurd h List.not_mem_nil
  | cons l rest ih =>
    cases rest with
    | nil => exact Or.inr ⟨l, .head _, h⟩
    | cons l' rest =>
      rcases List.mem_append.mp h with hl | hrest
      · exact Or.inr ⟨l, .head _, hl⟩
      · rcases List.mem_cons.mp hrest with hfeed | hrest
        · exact Or.inl hfeed
        · rcases ih hrest with hfeed | ⟨m, hm, hc⟩
          · exact Or.inl hfeed
          · exact Or.inr ⟨m, List.mem_cons_of_mem l hm, hc⟩

/-- Moving its lines adds nothing but blanks to a text. -/
theorem plain_indent (text : String) (level : Nat) (h : Plain text) :
    Plain (indent text level) := by
  rw [Plain, indent, String.toList_ofList]
  intro hmem
  rcases mem_of_mem_unlines _ _ hmem with hfeed | ⟨moved, hmoved, hc⟩
  · exact absurd hfeed (by decide)
  · obtain ⟨l, hl, rfl⟩ := List.mem_map.mp hmoved
    rcases List.mem_append.mp hc with hblank | hc
    · exact absurd (List.eq_of_mem_replicate hblank) (by decide)
    · have htext : escape ∈ unlines (lines text.toList) := mem_unlines_of_mem _ l hl hc
      rw [unlines_lines] at htext
      exact h htext

theorem deleteCodes_cons (c : Char) (rest : List Char) (h : c ≠ escape) :
    deleteCodes (c :: rest) = c :: deleteCodes rest := by
  rw [deleteCodes.eq_def]
  split <;> simp_all [escape]

theorem deleteCodes_append (cs rest : List Char) (h : escape ∉ cs) :
    deleteCodes (cs ++ rest) = cs ++ deleteCodes rest := by
  induction cs with
  | nil => rfl
  | cons c cs ih =>
    have hc : c ≠ escape := fun he => h (he ▸ List.mem_cons_self ..)
    rw [List.cons_append, deleteCodes_cons c _ hc, ih fun hmem => h (List.mem_cons_of_mem c hmem),
      List.cons_append]

theorem deleteCodes_code (c : Color) (rest : List Char) :
    deleteCodes (c.code.toList ++ rest) = deleteCodes rest := by
  cases c <;> rfl

theorem deleteCodes_reset (rest : List Char) :
    deleteCodes (Color.reset.toList ++ rest) = deleteCodes rest := rfl

end Text

open Text (Plain deleteCodes deleteCodes_append)

/-- A piece of a log, the color it has on a terminal, and what ends it. -/
structure Chunk where
  text : String
  color : Option Color := none
  ending : String := ""
  deriving DecidableEq, Repr, Inhabited

namespace Chunk

def logged (c : Chunk) : String := c.text ++ c.ending

/-- A chunk on a terminal. A color does not reach the end of the chunk. -/
def shown (styled : Bool) (c : Chunk) : String :=
  match c.color with
  | some color => (if styled then color.code ++ c.text ++ Color.reset else c.text) ++ c.ending
  | none => c.logged

theorem shown_eq (s : Styles) (c : Chunk) :
    s.paint? c.color c.text ++ c.ending = c.shown s.enabled := by
  rcases c with ⟨text, _ | color, ending⟩ <;> rfl

theorem shown_false (c : Chunk) : c.shown false = c.logged := by
  rcases c with ⟨text, _ | color, ending⟩ <;> rfl

theorem deleteCodes_shown (styled : Bool) (c : Chunk) (rest : List Char)
    (h : Plain c.logged) :
    deleteCodes ((c.shown styled).toList ++ rest) = c.logged.toList ++ deleteCodes rest := by
  have hplain := deleteCodes_append c.logged.toList rest h
  rcases c with ⟨text, _ | color, ending⟩
  · exact hplain
  · cases styled with
    | false => exact hplain
    | true =>
      obtain ⟨htext, hending⟩ := (Text.plain_append_iff text ending).mp h
      simp only [shown, logged, if_true, String.toList_append, List.append_assoc]
      rw [Text.deleteCodes_code, deleteCodes_append _ _ htext, Text.deleteCodes_reset,
        deleteCodes_append _ _ hending]

/-- The text of chunks as they are logged. -/
def join (cs : List Chunk) : String := String.join (cs.map logged)

theorem join_shown_false (cs : List Chunk) : String.join (cs.map (shown false)) = join cs := by
  rw [join, funext shown_false]

theorem deleteCodes_join (styled : Bool) (cs : List Chunk)
    (h : ∀ c ∈ cs, Plain c.logged) :
    deleteCodes (String.join (cs.map (shown styled))).toList = (join cs).toList := by
  rw [join]
  induction cs with
  | nil => rfl
  | cons c rest ih =>
    rw [List.map_cons, List.map_cons, String.join_cons, String.join_cons, String.toList_append,
      String.toList_append, deleteCodes_shown styled c _ (h c (List.mem_cons_self ..)),
      ih fun c' hc' => h c' (List.mem_cons_of_mem c hc')]

end Chunk

end FeatureRun
