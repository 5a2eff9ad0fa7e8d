import FeatureRun.Proofs.OutlineText

namespace FeatureRun.Text

theorem unlines_eq_intercalate (ls : List (List Char)) : unlines ls = ['\n'].intercalate ls := by
  induction ls with
  | nil => rfl
  | cons l rest ih =>
    cases rest with
    | nil => exact List.intercalate_singleton.symm
    | cons m others =>
      rw [unlines, ih, List.intercalate_cons_cons, List.append_assoc]
      rfl

theorem lineFeed_not_mem_of_mem_lines (cs : List Char) : ∀ l ∈ lines cs, '\n' ∉ l := by
  induction cs with
  | nil =>
    intro l hl
    obtain rfl := List.mem_singleton.mp hl
    exact List.not_mem_nil
  | cons c rest ih =>
    intro l hl
    by_cases hc : c = '\n'
    · rw [lines, if_pos hc] at hl
      rcases List.mem_cons.mp hl with rfl | hl
      · exact List.not_mem_nil
      · exact ih l hl
    · rw [lines, if_neg hc] at hl
      cases hrest : lines rest with
      | nil => exact absurd hrest (lines_ne_nil rest)
      | cons m ms =>
        rw [hrest] at hl ih
        rcases List.mem_cons.mp hl with rfl | hl
        · exact List.not_mem_cons_of_ne_of_not_mem (Ne.symm hc) (ih m (List.mem_cons_self ..))
        · exact ih l (List.mem_cons_of_mem m hl)

/-- Texts of the same lines are the same. -/
theorem eq_of_splitOn {s t : String} (h : s.toList.splitOn '\n' = t.toList.splitOn '\n') :
    s = t := by
  have hjoined := congrArg ['\n'].intercalate h
  rw [List.intercalate_splitOn, List.intercalate_splitOn] at hjoined
  exact String.toList_inj.mp hjoined

theorem splitOn_append_lineFeed (s t : String) :
    (s ++ "\n" ++ t).toList.splitOn '\n' = s.toList.splitOn '\n' ++ t.toList.splitOn '\n' := by
  have hparts : (s ++ "\n" ++ t).toList = s.toList ++ '\n' :: t.toList := by
    simp [List.append_assoc]
  rw [hparts, List.splitOn_append_cons_self]

theorem splitOn_indent (text : String) (level : Nat) :
    (indent text level).toList.splitOn '\n' = block level text := by
  rw [indent_eq_block, String.toList_ofList, unlines_eq_intercalate]
  apply List.splitOn_intercalate _ _ (block_ne_nil level text)
  intro l hl hmem
  rw [block, ← lines_eq_splitOn] at hl
  obtain ⟨line, hline, rfl⟩ := List.mem_map.mp hl
  rcases List.mem_append.mp hmem with hblank | hfeed
  · exact absurd (List.eq_of_mem_replicate hblank) (by decide)
  · exact lineFeed_not_mem_of_mem_lines _ line hline hfeed

theorem block_append_lineFeed (level : Nat) (s t : String) :
    block level (s ++ "\n" ++ t) = block level s ++ block level t := by
  rw [block, splitOn_append_lineFeed, List.map_append]
  rfl

theorem block_indent (text : String) (a b : Nat) :
    block b (indent text a) = block (a + b) text := by
  rw [block, splitOn_indent, block, block, List.map_map]
  apply List.map_congr_left
  intro line _
  rw [Function.comp_apply, ← List.append_assoc, List.replicate_append_replicate, ← Nat.mul_add,
    Nat.add_comm b a]

/-- A text without the first characters of its lines, two for every level. -/
def outdent (text : String) (level : Nat) : String :=
  String.ofList (['\n'].intercalate ((text.toList.splitOn '\n').map (List.drop (2 * level))))

theorem outdent_indent (text : String) (level : Nat) :
    outdent (indent text level) level = text := by
  have hlines : (block level text).map (List.drop (2 * level)) = text.toList.splitOn '\n' := by
    rw [block, List.map_map]
    refine (List.map_congr_left fun line _ => ?_).trans (List.map_id _)
    exact List.drop_left' List.length_replicate
  rw [outdent, splitOn_indent, hlines, List.intercalate_splitOn, String.ofList_toList]

/-- A text is indented line by line, and is read off the lines of the indented one. Levels add up,
and parts of a text that a line feed divides may as well be indented apart. A log has room for an
indented text just if it has for the blanks of a line. -/
theorem indent_moves_lines (t : String) (a : Nat) :
    (indent t a).toList.splitOn '\n' =
      (t.toList.splitOn '\n').map (List.replicate (2 * a) ' ' ++ ·) ∧
    outdent (indent t a) a = t ∧
    Function.Injective (indent · a) ∧
    (∀ b, indent (indent t a) b = indent t (a + b)) ∧
    (∀ s, indent (s ++ "\n" ++ t) a = indent s a ++ "\n" ++ indent t a) ∧
    ∀ p : OutlineLog, (∃ e, p.log? t a = .ok e ∧ e.state.logs = p.logs ++ indent t a ++ "\n") ↔
      2 * a < Overflow.lengthLimit := by
  refine ⟨splitOn_indent t a, outdent_indent t a, ?_, fun b => ?_, fun s => ?_, fun p => ?_⟩
  · exact Function.LeftInverse.injective (g := (outdent · a)) fun text => outdent_indent text a
  · apply eq_of_splitOn
    rw [splitOn_indent, splitOn_indent, block_indent]
  · apply eq_of_splitOn
    rw [splitOn_append_lineFeed, splitOn_indent, splitOn_indent, splitOn_indent,
      block_append_lineFeed]
  · constructor
    · rintro ⟨e, he, _⟩
      by_contra hwide
      have hrefused : p.log? t a = .error .capacity := if_neg hwide
      exact absurd (he.symm.trans hrefused) (by simp)
    · exact fun hfits => ⟨_, p.log?_of_level_lt t a hfits, rfl⟩

example : indent "a\n\nb\n" 1 = "  a\n  \n  b\n  " := by decide

end FeatureRun.Text
