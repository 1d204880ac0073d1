/-!
# Lines of a text

Panels are lines that are joined with a line end between two of them. Whoever reads a panel cuts it
at the line ends. As no line holds one, the lines that are found are the ones that were joined.
-/

namespace Chip8.Text

/-- The lines of a text. -/
def lines (text : String) : List (List Char) :=
  text.toList.splitOn '\n'

/-- Joined lines are found again; there has to be one, as the empty text has an empty line. -/
theorem lines_intercalate {pieces : List String} (hne : pieces ≠ [])
    (h : ∀ piece ∈ pieces, '\n' ∉ piece.toList) :
    lines (String.intercalate "\n" pieces) = pieces.map String.toList := by
  have hpieces : ∀ cs ∈ pieces.map String.toList, '\n' ∉ cs := by
    intro cs hcs
    obtain ⟨piece, hpiece, rfl⟩ := List.mem_map.1 hcs
    exact h piece hpiece
  have hmap : pieces.map String.toList ≠ [] := by
    rwa [ne_eq, List.map_eq_nil_iff]
  rw [lines, String.toList_intercalate]
  exact List.splitOn_intercalate '\n' hpieces hmap

/-- Joined pieces hold what the pieces hold, and what stands between them. -/
theorem mem_or_mem_of_mem_intercalate {α : Type} {a : α} {separator : List α}
    {pieces : List (List α)} (h : a ∈ separator.intercalate pieces) :
    a ∈ separator ∨ ∃ piece ∈ pieces, a ∈ piece := by
  -- Induction on the pieces; only before a further piece does the separator stand.
  induction pieces with
  | nil => exact absurd h List.not_mem_nil
  | cons first rest ih =>
    by_cases hrest : rest = []
    · rw [hrest, List.intercalate_singleton] at h
      exact .inr ⟨first, List.mem_cons_self, h⟩
    · rw [List.intercalate_cons_of_ne_nil hrest, List.append_assoc, List.mem_append,
        List.mem_append] at h
      obtain hfirst | hseparator | hlater := h
      · exact .inr ⟨first, List.mem_cons_self, hfirst⟩
      · exact .inl hseparator
      · exact (ih hlater).imp_right fun ⟨piece, hpiece, ha⟩ =>
          ⟨piece, List.mem_cons_of_mem _ hpiece, ha⟩

/-- The text has no line end. -/
def OneLine (text : String) : Prop :=
  '\n' ∉ text.toList

instance (text : String) : Decidable (OneLine text) :=
  inferInstanceAs (Decidable ('\n' ∉ text.toList))

/-- Texts without a line end have none together. -/
theorem oneLine_append {s t : String} (hs : OneLine s) (ht : OneLine t) : OneLine (s ++ t) := by
  rw [OneLine, String.toList_append, List.mem_append]
  exact not_or.2 ⟨hs, ht⟩

/-- Pieces without a line end have none together, unless the separator has one. -/
theorem oneLine_intercalate {separator : String} {pieces : List String}
    (hseparator : OneLine separator) (h : ∀ piece ∈ pieces, OneLine piece) :
    OneLine (String.intercalate separator pieces) := by
  rw [OneLine, String.toList_intercalate]
  intro hmem
  obtain hmem | ⟨cs, hcs, hmem⟩ := mem_or_mem_of_mem_intercalate hmem
  · exact hseparator hmem
  · obtain ⟨piece, hpiece, rfl⟩ := List.mem_map.1 hcs
    exact h piece hpiece hmem

end Chip8.Text
