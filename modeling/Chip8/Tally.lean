/-!
# Tallies

A tally counts occurrences of names. The names keep the order of their first occurrence.
-/

namespace Chip8

-- Zero is the numeral here, and not that of an algebraic structure.
attribute [local instance (1100)] Zero.ofOfNat0

/-- Counts by name, in the order in which the names first occurred. -/
structure Tally (α : Type) where
  -- Each name with its count.
  entries : List (α × Nat) := []
deriving Repr, DecidableEq

namespace Tally

variable {α : Type} [DecidableEq α]

/-- Adds one occurrence to a list of counts. -/
def bump (name : α) : List (α × Nat) → List (α × Nat)
  | [] => [(name, 1)]
  | entry :: rest =>
    if entry.1 = name then (entry.1, entry.2 + 1) :: rest else entry :: bump name rest

/-- Counts one more occurrence of a name. -/
def count (t : Tally α) (name : α) : Tally α :=
  ⟨bump name t.entries⟩

/-- How often a name occurred. -/
def get (t : Tally α) (name : α) : Nat :=
  ((t.entries.find? fun entry => entry.1 = name).map (·.2)).getD 0

/-- How many occurrences there were of all names together. -/
def total (t : Tally α) : Nat :=
  (t.entries.map (·.2)).sum

/-- Each occurrence counts once. -/
@[simp] theorem total_count (t : Tally α) (name : α) : (t.count name).total = t.total + 1 := by
  obtain ⟨entries⟩ := t
  simp only [total, count]
  induction entries with
  | nil => rfl
  | cons entry rest ih =>
    simp only [bump]
    split
    · simp only [List.map_cons, List.sum_cons]; omega
    · simp only [List.map_cons, List.sum_cons, ih]; omega

/-- Only the name that occurred has one occurrence more. -/
theorem get_count (t : Tally α) (name other : α) :
    (t.count name).get other = t.get other + if name = other then 1 else 0 := by
  obtain ⟨entries⟩ := t
  simp only [get, count]
  induction entries with
  | nil => by_cases hother : name = other <;> simp [bump, hother]
  | cons entry rest ih =>
    unfold bump
    by_cases hname : entry.1 = name
    · subst hname
      by_cases hother : entry.1 = other <;> simp [hother]
    · rw [if_neg hname]
      by_cases hother : entry.1 = other
      · have hne : name ≠ other := fun h => hname (hother.trans h.symm)
        simp [hother, hne]
      · simpa [hother] using ih

/-- What a tally holds after an occurrence, it held before, but for the count of that name. -/
theorem mem_count {t : Tally α} {name : α} {entry : α × Nat}
    (h : entry ∈ (t.count name).entries) : entry ∈ t.entries ∨ entry.1 = name ∧ 0 < entry.2 := by
  obtain ⟨entries⟩ := t
  simp only [count] at h ⊢
  induction entries with
  | nil =>
    rw [List.mem_singleton.1 h]
    exact .inr ⟨rfl, Nat.one_pos⟩
  | cons first rest ih =>
    unfold bump at h
    split at h
    · rename_i hname
      obtain rfl | hrest := List.mem_cons.1 h
      · exact .inr ⟨hname, Nat.succ_pos _⟩
      · exact .inl (List.mem_cons_of_mem _ hrest)
    · obtain rfl | hrest := List.mem_cons.1 h
      · exact .inl List.mem_cons_self
      · obtain hold | hnew := ih hrest
        · exact .inl (List.mem_cons_of_mem _ hold)
        · exact .inr hnew

/-- No name has two counts. -/
theorem nodup_count {t : Tally α} (h : (t.entries.map (·.1)).Nodup) (name : α) :
    ((t.count name).entries.map (·.1)).Nodup := by
  obtain ⟨entries⟩ := t
  simp only [count] at h ⊢
  induction entries with
  | nil => exact List.nodup_cons.2 ⟨List.not_mem_nil, List.nodup_nil⟩
  | cons first rest ih =>
    obtain ⟨hfirst, hrest⟩ := List.nodup_cons.1 h
    unfold bump
    split
    · exact List.nodup_cons.2 ⟨hfirst, hrest⟩
    · rename_i hname
      refine List.nodup_cons.2 ⟨fun hmem => ?_, ih hrest⟩
      -- The rest got at most the new name, which is not the first one.
      obtain ⟨entry, hentry, hsame⟩ := List.mem_map.1 hmem
      obtain hold | ⟨hnew, -⟩ := mem_count (t := ⟨rest⟩) hentry
      · exact hfirst (List.mem_map.2 ⟨entry, hold, hsame⟩)
      · exact hname (hsame.symm.trans hnew)

end Tally

end Chip8
