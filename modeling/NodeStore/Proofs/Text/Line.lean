import NodeStore.Proofs.Text.Blank
import NodeStore.Text.Line

/-! # Line endings

Where line endings are line feeds there is no carriage return left (`not_mem_unifyNewlines`), and
a text without carriage returns is left as it is. So a text that was read from a file and trimmed
is read again as it is (`strip_withLineFeeds`). A text is a first line, if a line feed ends it, and
the lines of what follows (`lines_cons`). -/

namespace NodeStore.Text

theorem not_mem_unifyNewlines (cs : List Char) : '\r' ∉ unifyNewlines cs := by
  fun_induction unifyNewlines cs with
  | case1 => simp
  | case2 cs ih => simpa using ih
  | case3 c cs _ ih =>
    rw [List.mem_cons, not_or]
    refine ⟨?_, ih⟩
    split
    · decide
    · rename_i hc
      exact fun h => hc h.symm

theorem unifyNewlines_of_not_mem {cs : List Char} (h : '\r' ∉ cs) : unifyNewlines cs = cs := by
  fun_induction unifyNewlines cs with
  | case1 => rfl
  | case2 cs ih => simp at h
  | case3 c cs _ ih =>
    rw [List.mem_cons, not_or] at h
    rw [if_neg (Ne.symm h.1), ih h.2]

/-- What was read from a file and trimmed is read again as it is. -/
theorem strip_withLineFeeds (s : String) :
    strip (withLineFeeds (strip (withLineFeeds s))) = strip (withLineFeeds s) := by
  have hreturns : '\r' ∉ trimChars isBlank (unifyNewlines s.toList) := fun h =>
    not_mem_unifyNewlines _ (mem_trimChars h)
  unfold strip withLineFeeds
  simp only [String.toList_ofList]
  rw [unifyNewlines_of_not_mem hreturns, trimChars_trimChars]

/-! ## Lines -/

theorem splitOnChar_ne_nil (sep : Char) (cs : List Char) : splitOnChar sep cs ≠ [] := by
  induction cs with
  | nil => simp [splitOnChar]
  | cons c cs ih =>
    rw [splitOnChar]
    split
    · simp
    · split <;> simp

/-- The first piece ends where the separator first stands. -/
theorem splitOnChar_append {sep : Char} {cs rest : List Char} (h : sep ∉ cs) :
    splitOnChar sep (cs ++ sep :: rest) = cs :: splitOnChar sep rest := by
  induction cs with
  | nil =>
    rcases List.exists_cons_of_ne_nil (splitOnChar_ne_nil sep rest) with ⟨piece, pieces, hrest⟩
    rw [List.nil_append, splitOnChar, hrest]
    exact if_pos rfl
  | cons c cs ih =>
    rw [List.mem_cons, not_or] at h
    rw [List.cons_append, splitOnChar, ih h.2]
    exact if_neg (Ne.symm h.1)

theorem unifyNewlines_append {cs rest : List Char} (h : '\r' ∉ cs) :
    unifyNewlines (cs ++ '\n' :: rest) = cs ++ '\n' :: unifyNewlines rest := by
  induction cs with
  | nil => rfl
  | cons c cs ih =>
    rw [List.mem_cons, not_or] at h
    rw [List.cons_append, unifyNewlines, ih h.2, if_neg (Ne.symm h.1)]
    · rfl
    · exact fun _ hc _ => h.1 hc.symm

/-- A line that a line feed ends comes before the lines of what follows. -/
theorem lines_cons {line : String} (rest : String) (hline : '\n' ∉ line.toList)
    (hreturn : '\r' ∉ line.toList) :
    lines (line ++ "\n" ++ rest) = line :: lines rest := by
  have hcs : (line ++ "\n" ++ rest).toList = line.toList ++ '\n' :: rest.toList := by
    rw [String.toList_append, String.toList_append, List.append_assoc]
    rfl
  rcases List.exists_cons_of_ne_nil (splitOnChar_ne_nil '\n' (unifyNewlines rest.toList)) with
    ⟨piece, pieces, hrest⟩
  unfold lines
  rw [hcs, unifyNewlines_append hreturn, splitOnChar_append hline, hrest]
  -- whether the last piece is empty is seen in the pieces of what follows
  simp only [List.getLast?_cons_cons]
  split
  · rw [List.dropLast_cons_cons, List.map_cons, String.ofList_toList]
  · rw [List.map_cons, String.ofList_toList]

end NodeStore.Text
