import FeatureRun.Text.Lines

namespace FeatureRun.Text

theorem lines_eq_splitOn (cs : List Char) : lines cs = cs.splitOn '\n' := by
  induction cs with
  | nil => rfl
  | cons c rest ih =>
    have hsplit : (c :: rest).splitOn '\n' =
        if c == '\n' then [] :: rest.splitOn '\n' else (rest.splitOn '\n').modifyHead (c :: ·) :=
      List.splitOnP_cons_eq_if_modifyHead ..
    rw [hsplit, lines, ih]
    by_cases hc : c = '\n'
    · rw [if_pos hc, if_pos (beq_iff_eq.mpr hc)]
    · rw [if_neg hc, if_neg fun h => hc (beq_iff_eq.mp h)]
      cases hlines : rest.splitOn '\n' with
      | nil => exact absurd (ih.trans hlines) (lines_ne_nil rest)
      | cons l ls => rfl

/-- A line feed behind joined lines makes every line end in one. -/
theorem unlines_append_lineFeed (ls : List (List Char)) (h : ls ≠ []) :
    unlines ls ++ ['\n'] = ls.flatMap (· ++ ['\n']) := by
  induction ls with
  | nil => exact absurd rfl h
  | cons l rest ih =>
    cases rest with
    | nil => exact (List.append_nil _).symm
    | cons m rest =>
      have hrest := ih (List.cons_ne_nil m rest)
      have hcons : (l :: m :: rest).flatMap (· ++ ['\n']) =
          (l ++ ['\n']) ++ (m :: rest).flatMap (· ++ ['\n']) := List.flatMap_cons
      rw [hcons, ← hrest, unlines, List.append_assoc, List.append_assoc]
      rfl

/-- Lines as they are written, each with its line feed. -/
def written (ls : List (List Char)) : String := String.ofList (ls.flatMap (· ++ ['\n']))

theorem written_append (a b : List (List Char)) : written (a ++ b) = written a ++ written b := by
  rw [written, written, written, List.flatMap_append, String.ofList_append]

/-- What lies before a line feed and holds none is a line of its own. -/
theorem lines_of_lineFeed (l rest : List Char) (h : '\n' ∉ l) :
    lines (l ++ '\n' :: rest) = l :: lines rest := by
  induction l with
  | nil => exact if_pos rfl
  | cons c l ih =>
    have hc : c ≠ '\n' := fun he => h (he ▸ List.mem_cons_self ..)
    have hl : '\n' ∉ l := fun hmem => h (List.mem_cons_of_mem c hmem)
    rw [List.cons_append, lines, if_neg hc, ih hl]

theorem lines_written (ls : List (List Char)) (h : ∀ l ∈ ls, '\n' ∉ l) :
    lines (written ls).toList = ls ++ [[]] := by
  rw [written, String.toList_ofList]
  induction ls with
  | nil => rfl
  | cons l rest ih =>
    have hl : '\n' ∉ l := h l (List.mem_cons_self ..)
    have hrest := ih fun m hm => h m (List.mem_cons_of_mem _ hm)
    rw [List.flatMap_cons, List.append_assoc, List.singleton_append, lines_of_lineFeed l _ hl,
      hrest, List.cons_append]

theorem unlines_append_empty (ls : List (List Char)) :
    unlines (ls ++ [[]]) = ls.flatMap (· ++ ['\n']) := by
  induction ls with
  | nil => rfl
  | cons l rest ih =>
    have hmore : rest ++ [[]] ≠ [] := List.append_ne_nil_of_right_ne_nil _ (List.cons_ne_nil _ _)
    obtain ⟨m, others, hothers⟩ := List.exists_cons_of_ne_nil hmore
    rw [List.flatMap_cons, ← ih, List.cons_append, hothers, unlines, List.append_assoc]
    rfl

/-- A text whose last line is empty is its other lines as they are written. -/
theorem eq_written_of_lines (text : String) (ls : List (List Char))
    (h : lines text.toList = ls ++ [[]]) : text = written ls := by
  have htext : text.toList = ls.flatMap (· ++ ['\n']) := by
    rw [← unlines_lines text.toList, h, unlines_append_empty]
  rw [written, ← htext, String.ofList_toList]

end FeatureRun.Text
