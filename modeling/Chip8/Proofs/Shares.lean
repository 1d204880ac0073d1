import Chip8.Panel.Statistics

/-!
# Shares of a total

The statistics panel divides counts by their sum. A quotient of whole numbers is refused when the
divisor is zero and when the nearest binary64 number is beyond the finite range; a part of a
positive total runs into neither, as no share is above one. So every table has a panel whose counts
are not negative and not all zero.

## Key results

- `Binary64.significant_le`: rounding to 53 bits does not even double a fraction
- `Quantity.exists_percent_eq_ok`: a part of a total has a share
- `Statistics.exists_text_eq_ok`: the panel has a text
-/

namespace Chip8

-- Powers are those of natural numbers here, and not those of a monoid.
attribute [local instance (1100)] instPowNat

/-- A list is mapped to its end if no element is refused. -/
theorem exists_mapM_eq_ok {ε α β : Type} {f : α → Except ε β} {l : List α}
    (h : ∀ a ∈ l, ∃ b, f a = .ok b) : ∃ results, l.mapM f = .ok results := by
  induction l with
  | nil => exact ⟨[], rfl⟩
  | cons first rest ih =>
    obtain ⟨b, hb⟩ := h first List.mem_cons_self
    obtain ⟨results, hresults⟩ := ih fun a ha => h a (List.mem_cons_of_mem _ ha)
    refine ⟨b :: results, ?_⟩
    rw [List.mapM_cons, hb, hresults]
    rfl

/-- A function that succeeds everywhere is mapped over a list without errors. -/
theorem mapM_map_eq_ok {ε α β γ : Type} {f : β → Except ε γ} {g : α → β} {k : α → γ}
    (h : ∀ a, f (g a) = .ok (k a)) (l : List α) : (l.map g).mapM f = .ok (l.map k) := by
  induction l with
  | nil => rfl
  | cons first rest ih =>
    rw [List.map_cons, List.mapM_cons, h, ih]
    rfl

/-! ## Quotients -/

/-- Rounding goes up by one at most. -/
private theorem roundHalfEven_le (numerator denominator : Nat) :
    roundHalfEven numerator denominator ≤ numerator / denominator + 1 := by
  unfold roundHalfEven
  dsimp only
  split
  · omega
  · split <;> omega

namespace Binary64

/-- Rounding to 53 significant bits does not even double a fraction, a carry from zero apart. -/
theorem significant_le (numerator denominator : Nat) :
    significant numerator denominator ≤ 2 * (numerator / denominator) + 1 := by
  unfold significant
  -- The significand is rounded at the place `2 ^ (log2 - 52)`, which is no more than the number.
  generalize hwhole : numerator / denominator = whole
  dsimp only
  split
  · have hle := roundHalfEven_le numerator denominator
    omega
  · rename_i hlarge
    have hne : whole ≠ 0 := by
      rintro rfl
      exact hlarge (Nat.two_pow_pos 53)
    generalize hstep : 2 ^ (whole.log2 - 52) = step
    have hstep_le : step ≤ whole := by
      rw [← hstep]
      exact Nat.le_trans (Nat.pow_le_pow_right Nat.two_pos (Nat.sub_le _ _))
        (Nat.log2_self_le hne)
    have hle := roundHalfEven_le numerator (denominator * step)
    rw [← Nat.div_div_eq_div_mul, hwhole] at hle
    calc roundHalfEven numerator (denominator * step) * step
        ≤ (whole / step + 1) * step := Nat.mul_le_mul_right step hle
      _ = whole / step * step + step := by rw [Nat.add_mul, Nat.one_mul]
      _ ≤ whole + whole := Nat.add_le_add (Nat.div_mul_le_self whole step) hstep_le
      _ ≤ 2 * whole + 1 := by omega

/-- No part of a whole is beyond the finite range. -/
private theorem isFinite_ofRatio {part whole : Nat} (negative : Bool) (h : part ≤ whole) :
    (ofRatio negative part whole).isFinite = true := by
  -- A part of the whole is at most one, and one is far below the bound.
  have hquotient : part * one / whole ≤ one :=
    Nat.div_le_of_le_mul (Nat.mul_le_mul_right one h)
  have hunits := significant_le (part * one) whole
  have hbound : 2 * one + 1 < bound := by decide +kernel
  have hsmall : ¬bound ≤ significant (part * one) whole := by omega
  simp only [ofRatio, ofUnits, if_neg hsmall]
  rfl

end Binary64

/-- A part of a positive total has a share. -/
theorem Quantity.exists_percent_eq_ok {part total : Int} (places : Nat) (hpart : 0 ≤ part)
    (hle : part ≤ total) (htotal : 0 < total) :
    ∃ text, percent places (.whole part) (.whole total) = .ok text := by
  have hne : ¬total = 0 := by omega
  have hnat : part.natAbs ≤ total.natAbs := by omega
  have hfinite := Binary64.isFinite_ofRatio (decide (part < 0) != decide (total < 0)) hnat
  simp only [percent, div, ratio, if_neg hne, if_pos hfinite]
  exact ⟨_, rfl⟩

/-! ## The panel -/

namespace Statistics

variable {t : Table}

/-- A part of a table has a part of its total. -/
private theorem total_le_of_sublist {part : Table} (h : part.Sublist t)
    (hcounts : ∀ entry ∈ t, 0 ≤ entry.2) : 0 ≤ part.total ∧ part.total ≤ t.total := by
  -- Induction on the choice of entries; no count that is passed over is negative.
  induction h with
  | slnil => exact ⟨Int.le_refl 0, Int.le_refl 0⟩
  | cons entry _ ih =>
    have hentry := hcounts entry List.mem_cons_self
    have hrest := ih fun e he => hcounts e (List.mem_cons_of_mem _ he)
    simp only [Table.total, List.map_cons, List.sum_cons] at hrest ⊢
    omega
  | cons_cons entry _ ih =>
    have hentry := hcounts entry List.mem_cons_self
    have hrest := ih fun e he => hcounts e (List.mem_cons_of_mem _ he)
    simp only [Table.total, List.map_cons, List.sum_cons] at hrest ⊢
    omega

/-- A single count is a part of the total. -/
private theorem count_le_total {entry : String × Int} (h : entry ∈ t)
    (hcounts : ∀ entry ∈ t, 0 ≤ entry.2) : entry.2 ≤ t.total := by
  have hsingle := (total_le_of_sublist (List.singleton_sublist.2 h) hcounts).2
  simp only [Table.total, List.map_cons, List.map_nil, List.sum_cons, List.sum_nil] at hsingle ⊢
  omega

/-- An entry has its share of the total. -/
theorem exists_entryShare {entry : String × Int} (h : entry ∈ t)
    (hcounts : ∀ entry ∈ t, 0 ≤ entry.2) (htotal : 0 < t.total) :
    ∃ share, Quantity.percent 1 (.whole entry.2) (.whole t.total) = .ok share :=
  Quantity.exists_percent_eq_ok 1 (hcounts entry h) (count_le_total h hcounts) htotal

/-- The sum of a category is a part of the total. -/
theorem total_inCategory_le (category : Category) (hcounts : ∀ entry ∈ t, 0 ≤ entry.2) :
    0 ≤ (t.inCategory category).total ∧ (t.inCategory category).total ≤ t.total :=
  total_le_of_sublist List.filter_sublist hcounts

/-- A category has its share of the total. -/
theorem exists_categoryShare (category : Category) (hcounts : ∀ entry ∈ t, 0 ≤ entry.2)
    (htotal : 0 < t.total) :
    ∃ share, Quantity.percent 0 (.whole (t.inCategory category).total) (.whole t.total) =
      .ok share := by
  obtain ⟨hnonneg, hle⟩ := total_inCategory_le category hcounts
  exact Quantity.exists_percent_eq_ok 0 hnonneg hle htotal

/-- The first entries are among the entries. -/
theorem mem_of_mem_firstOf {α : Type} {top : Int} {list : List α} {a : α}
    (h : a ∈ firstOf top list) : a ∈ list := by
  unfold firstOf at h
  split at h
  · exact List.mem_of_mem_take h
  · exact List.mem_of_mem_take h

/-- A table whose counts are not negative, and not all zero unless it is empty, has a panel. -/
theorem exists_text_eq_ok (top : Int) (hcounts : ∀ entry ∈ t, 0 ≤ entry.2)
    (htotal : t ≠ [] → 0 < t.total) : ∃ panel, text t top = .ok panel := by
  unfold text
  split
  · exact ⟨_, rfl⟩
  · rename_i hne
    have hpos : 0 < t.total := htotal fun hnil => hne (by rw [hnil]; rfl)
    -- The shares of the entries and of the categories exist, and the panel is made of them.
    have hcells : ∀ entry ∈ firstOf top t.ranked, ∃ line, cell t.total entry = .ok line := by
      intro entry hentry
      have hmem : entry ∈ t := List.mem_mergeSort.1 (mem_of_mem_firstOf hentry)
      obtain ⟨share, hshare⟩ := exists_entryShare hmem hcounts hpos
      refine ⟨cellText entry.1 share, ?_⟩
      rw [cell, hshare]
      rfl
    have hcategories : ∀ category, ∃ line, categoryText .plain t category = .ok line := by
      intro category
      obtain ⟨share, hshare⟩ := exists_categoryShare category hcounts hpos
      refine ⟨category.lineText (grouped (t.inCategory category).total) share, ?_⟩
      rw [categoryText, hshare]
      rfl
    let present := Category.all.filter fun category => !(t.inCategory category).isEmpty
    obtain ⟨cells, hcells⟩ := exists_mapM_eq_ok hcells
    obtain ⟨categories, hcategories⟩ :=
      exists_mapM_eq_ok (l := present) fun category _ => hcategories category
    refine ⟨panel (grouped t.total) t.length cells categories, ?_⟩
    rw [hcells]
    change (present.mapM (categoryText .plain t) >>= fun categories =>
      pure (panel (grouped t.total) t.length cells categories)) = _
    rw [hcategories]
    rfl

/-- The table of a tally without zeros has a panel. -/
theorem exists_text_ofTally_eq_ok {tally : Tally String}
    (h : ∀ entry ∈ tally.entries, 0 < entry.2) :
    ∃ panel, text (.ofTally tally) = .ok panel := by
  have hpositive : ∀ entry ∈ Table.ofTally tally, 0 < entry.2 := by
    intro entry hentry
    obtain ⟨⟨name, count⟩, hmem, rfl⟩ := List.mem_map.1 hentry
    exact Int.ofNat_lt.2 (h _ hmem)
  have hcounts : ∀ entry ∈ Table.ofTally tally, 0 ≤ entry.2 :=
    fun entry hentry => Int.le_of_lt (hpositive entry hentry)
  refine exists_text_eq_ok 8 hcounts fun hne => ?_
  obtain ⟨entry, hentry⟩ := List.exists_mem_of_ne_nil _ hne
  exact Int.lt_of_lt_of_le (hpositive entry hentry) (count_le_total hentry hcounts)

end Statistics

end Chip8
