import Chip8.Panel.HostStatistics
import Chip8.Proofs.Accounting
import Chip8.Proofs.NumberTexts
import Chip8.Proofs.Shares
import Mathlib.Data.List.Forall2

/-!
# What the statistics panel shows

The panel is about a table as such, and not about the order in which its names came: the ranking
sorts them by their counts and then by their names, and sums are the same in any order. Every name
belongs to one category, so that the categories divide the total among them. The only text that the
panel cannot have is that of a number with too many digits.

## Key results

- `Statistics.text_perm`: the order of a table does not matter
- `Statistics.pairwise_ranked`: the ranking
- `Statistics.cellLines_eq`: four entries to a line
- `Statistics.sum_present`: the categories with names add up to the total
- `Statistics.text_adds_up`: what the panel shows, for any table and for the counts of a machine
-/

namespace Chip8

-- Powers are those of natural numbers here, and zero is the numeral.
attribute [local instance (1100)] instPowNat Zero.ofOfNat0

/-- A list is mapped to its end if no element is refused, each element to its own result. -/
private theorem exists_mapM_forall₂ {ε α β : Type} {f : α → Except ε β} {l : List α}
    (h : ∀ a ∈ l, ∃ b, f a = .ok b) :
    ∃ results, l.mapM f = .ok results ∧ List.Forall₂ (fun a b => f a = .ok b) l results := by
  induction l with
  | nil => exact ⟨[], rfl, .nil⟩
  | cons first rest ih =>
    obtain ⟨b, hb⟩ := h first List.mem_cons_self
    obtain ⟨results, hresults, hall⟩ := ih fun a ha => h a (List.mem_cons_of_mem _ ha)
    refine ⟨b :: results, ?_, .cons hb hall⟩
    rw [List.mapM_cons, hb, hresults]
    rfl

/-- What stands in a list of results is the result of some element. -/
private theorem exists_of_forall₂_mem {α β : Type} {R : α → β → Prop} {l : List α}
    {results : List β}
    (h : List.Forall₂ R l results) {b : β} (hb : b ∈ results) : ∃ a ∈ l, R a b := by
  induction h with
  | nil => exact absurd hb List.not_mem_nil
  | cons hfirst _ ih =>
    obtain rfl | hrest := List.mem_cons.1 hb
    · exact ⟨_, List.mem_cons_self, hfirst⟩
    · obtain ⟨a, ha, hab⟩ := ih hrest
      exact ⟨a, List.mem_cons_of_mem _ ha, hab⟩

namespace Statistics

variable {t t' : Table} {a b : String × Int} {top : Int} {write : Writer}

/-! ## The ranking -/

/-- An entry is shown before another one: its count is higher, or its name comes first. -/
def Outranks (a b : String × Int) : Prop :=
  b.2 < a.2 ∨ a.2 = b.2 ∧ a.1 < b.1

/-- The test of the sort, as a statement about counts and names. -/
theorem precedes_iff : precedes a b = true ↔ b.2 < a.2 ∨ a.2 = b.2 ∧ a.1 ≤ b.1 := by
  rw [precedes, Bool.or_eq_true, Bool.and_eq_true, decide_eq_true_iff, decide_eq_true_iff,
    decide_eq_true_iff]

/-- Precedence passes from entry to entry. -/
private theorem precedes_trans (a b c : String × Int) (hab : precedes a b = true)
    (hbc : precedes b c = true) : precedes a c = true := by
  rw [precedes_iff] at hab hbc ⊢
  obtain hab | ⟨hab, hnames⟩ := hab
  · exact .inl (by omega)
  · obtain hbc | ⟨hbc, hnames'⟩ := hbc
    · exact .inl (by omega)
    · exact .inr ⟨hab.trans hbc, String.le_trans hnames hnames'⟩

/-- Of any two entries one precedes the other. -/
private theorem precedes_total (a b : String × Int) : (precedes a b || precedes b a) = true := by
  rw [Bool.or_eq_true, precedes_iff, precedes_iff]
  -- Equal counts are told apart by the names, and these are in a linear order.
  obtain hlt | heq | hgt := Int.lt_trichotomy a.2 b.2
  · exact .inr (.inl hlt)
  · obtain hle | hle := String.le_total a.1 b.1
    · exact .inl (.inr ⟨heq, hle⟩)
    · exact .inr (.inr ⟨heq.symm, hle⟩)
  · exact .inl (.inl hgt)

/-- Entries that precede each other are one entry. -/
private theorem precedes_antisymm (hab : precedes a b = true) (hba : precedes b a = true) :
    a = b := by
  rw [precedes_iff] at hab hba
  have hcounts : a.2 = b.2 := by omega
  have hab : a.1 ≤ b.1 := by
    obtain hlt | ⟨-, hle⟩ := hab
    · omega
    · exact hle
  have hba : b.1 ≤ a.1 := by
    obtain hlt | ⟨-, hle⟩ := hba
    · omega
    · exact hle
  exact Prod.ext (String.le_antisymm hab hba) hcounts

/-- The ranking has the entries of the table. -/
theorem ranked_perm_self (t : Table) : t.ranked.Perm t :=
  List.mergeSort_perm t precedes

/-- In the ranking every entry precedes the later ones. -/
private theorem pairwise_precedes_ranked (t : Table) :
    t.ranked.Pairwise fun a b => precedes a b = true :=
  List.pairwise_mergeSort precedes_trans precedes_total t

/-- There is no other ranking of the same entries. -/
private theorem ranked_eq {order : Table} (h : order.Perm t)
    (hsorted : order.Pairwise fun a b => precedes a b = true) : t.ranked = order :=
  List.Perm.eq_of_pairwise (fun _ _ _ _ => precedes_antisymm) (pairwise_precedes_ranked t) hsorted
    ((ranked_perm_self t).trans h.symm)

/-- The ranking does not depend on the order of the table. -/
private theorem ranked_perm (h : t'.Perm t) : t'.ranked = t.ranked :=
  ranked_eq ((ranked_perm_self t).trans h.symm) (pairwise_precedes_ranked t)

/-- Of different names one outranks the other. -/
theorem pairwise_ranked (hnames : (t.map (·.1)).Nodup) : t.ranked.Pairwise Outranks := by
  -- The sort puts equal entries in either order; different names make the order strict.
  have hnodup : (t.ranked.map (·.1)).Nodup := ((ranked_perm_self t).map _).nodup_iff.2 hnames
  have hdistinct : t.ranked.Pairwise fun a b => a.1 ≠ b.1 := List.pairwise_map.1 hnodup
  refine ((pairwise_precedes_ranked t).and hdistinct).imp fun {a b} h => ?_
  obtain ⟨hprecedes, hne⟩ := h
  obtain hlt | ⟨heq, hle⟩ := precedes_iff.1 hprecedes
  · exact .inl hlt
  · refine .inr ⟨heq, String.not_le.1 fun hge => hne (String.le_antisymm hle hge)⟩

/-! ## The order of the table -/

/-- The first entry adds its count to the total of the others. -/
theorem total_cons (entry : String × Int) (rest : Table) :
    Table.total (entry :: rest) = entry.2 + rest.total := by
  rw [Table.total, List.map_cons, List.sum_cons]
  rfl

/-- The total does not depend on the order of the table. -/
private theorem total_perm (h : t'.Perm t) : t'.total = t.total := by
  -- Induction on the permutation, one case for each way to build it.
  induction h with
  | nil => rfl
  | cons entry _ ih => rw [total_cons, total_cons, ih]
  | swap first second rest =>
    rw [total_cons, total_cons, total_cons, total_cons]
    exact Int.add_left_comm _ _ _
  | trans _ _ ih ih' => exact ih.trans ih'

/-- The same entries are in a category, in whatever order they come. -/
private theorem inCategory_perm (h : t'.Perm t) (category : Category) :
    (t'.inCategory category).Perm (t.inCategory category) :=
  h.filter _

/-- The categories that have a name in the table, in the order of the panel. -/
def Table.present (t : Table) : List Category :=
  Category.all.filter fun category => !(t.inCategory category).isEmpty

/-- What is written, in the order in which it can be refused. -/
theorem text_eq (t : Table) (top : Int) (write : Writer) :
    text t top write =
      if t.isEmpty then .ok "No instructions executed."
      else do
        let cells ← (firstOf top t.ranked).mapM (cell t.total)
        let written ← write t.total
        let parts ← t.present.mapM (categoryText write t)
        return panel written t.length cells parts := rfl

/-- The text of the panel does not depend on the order of the table. -/
theorem text_perm (h : t'.Perm t) (top : Int) (write : Writer) :
    text t' top write = text t top write := by
  -- Every part of the text is about the ranking, the total, the categories or the length.
  have hempty : t'.isEmpty = t.isEmpty := h.isEmpty_eq
  have hpresent : t'.present = t.present :=
    List.filter_congr fun category _ => congrArg (!·) (inCategory_perm h category).isEmpty_eq
  have hcategories : categoryText write t' = categoryText write t := by
    funext category
    rw [categoryText, categoryText, total_perm h, total_perm (inCategory_perm h category)]
  rw [text_eq, text_eq, hempty, ranked_perm h, total_perm h, hpresent, hcategories, h.length_eq]

/-! ## Lines of four entries -/

/-- The line of the entries from the `4 * j`-th on, counted from zero. -/
def row (cells : List String) (j : Nat) : String :=
  "  " ++ String.intercalate "   " ((cells.drop (4 * j)).take 4)

/-- There are four entries to a line. -/
theorem cellLines_eq (cells : List String) :
    cellLines cells = (List.range ((cells.length + 3) / 4)).map (row cells) := by
  -- The induction follows the recursion, which takes four cells off at a time.
  induction cells using cellLines.induct with
  | case1 a b c d rest ih =>
    have hcount : ((a :: b :: c :: d :: rest).length + 3) / 4 = (rest.length + 3) / 4 + 1 := by
      simp only [List.length_cons]
      omega
    have hrow (j : Nat) : row (a :: b :: c :: d :: rest) (j + 1) = row rest j := by
      rw [row, row, Nat.mul_succ]
      rfl
    rw [cellLines, ih, hcount, List.range_succ_eq_map, List.map_cons, List.map_map]
    -- The first line is that of the first four cells, and the others move up by one.
    refine congrArg₂ List.cons rfl (List.map_congr_left fun j _ => ?_)
    exact (hrow j).symm
  | case2 => rfl
  | case3 cells hfew hne =>
    -- Fewer than four cells are left, and there is at least one.
    have hlength : 0 < cells.length ∧ cells.length < 4 := by
      match cells with
      | [] => exact absurd rfl hne
      | [a] => simp
      | [a, b] => simp
      | [a, b, c] => simp
      | a :: b :: c :: d :: rest => exact (hfew a b c d rest rfl).elim
    have hcount : (cells.length + 3) / 4 = 1 := by omega
    rw [cellLines, hcount, List.range_one, List.map_singleton, row, Nat.mul_zero, List.drop_zero,
      List.take_of_length_le (by omega)]
    · exact hfew
    · exact hne

/-! ## Sums of the categories -/

/-- An entry adds its count to its own category only. -/
private theorem total_inCategory_cons (entry : String × Int) (rest : Table) (category : Category) :
    (Table.inCategory (entry :: rest) category).total =
      (if Category.ofName entry.1 = category then entry.2 else 0) +
        (rest.inCategory category).total := by
  rw [Table.inCategory, List.filter_cons]
  by_cases h : Category.ofName entry.1 = category
  · simp only [h, decide_true, if_true]
    rfl
  · simp only [h, decide_false, if_false, Bool.false_eq_true, Int.zero_add]
    rfl

/-- All categories together have the total. -/
private theorem sum_all (t : Table) :
    (Category.all.map fun category => (t.inCategory category).total).sum = t.total := by
  -- The six sums are written out before the induction, so that each entry changes one summand.
  induction t with
  | nil => rfl
  | cons entry rest ih =>
    simp only [Category.all, List.map_cons, List.map_nil, List.sum_cons, List.sum_nil,
      total_inCategory_cons] at ih ⊢
    rw [total_cons, ← ih]
    -- The entry is counted in one of the six categories.
    cases Category.ofName entry.1 <;> simp only [reduceCtorEq, if_true, if_false] <;> omega

/-- What adds nothing can be left out of a sum. -/
private theorem sum_map_filter {α : Type} {f : α → Int} {p : α → Bool} {l : List α}
    (h : ∀ a ∈ l, p a = false → f a = 0) : ((l.filter p).map f).sum = (l.map f).sum := by
  induction l with
  | nil => rfl
  | cons first rest ih =>
    have hrest := ih fun a ha => h a (List.mem_cons_of_mem _ ha)
    rw [List.filter_cons, List.map_cons, List.sum_cons]
    cases hp : p first with
    | true => rw [if_pos rfl, List.map_cons, List.sum_cons, hrest]
    | false => rw [if_neg Bool.false_ne_true, hrest, h first List.mem_cons_self hp, Int.zero_add]

/-- The categories with names have the total. -/
theorem sum_present (t : Table) :
    (t.present.map fun category => (t.inCategory category).total).sum = t.total := by
  rw [Table.present, sum_map_filter, sum_all]
  intro category _ h
  have hnone : t.inCategory category = [] := by
    rwa [Bool.not_eq_false', List.isEmpty_iff] at h
  rw [hnone]
  rfl

/-- A category is shown if the table has one of its names. -/
private theorem mem_present {category : Category} :
    category ∈ t.present ↔ ∃ entry ∈ t, Category.ofName entry.1 = category := by
  have hall : category ∈ Category.all := by cases category <;> decide
  rw [Table.present, List.mem_filter, and_iff_right hall, Bool.not_eq_true',
    List.isEmpty_eq_false_iff_exists_mem]
  simp only [Table.inCategory, List.mem_filter, decide_eq_true_eq]

/-! ## The lines of the panel -/

/-- A table of different names, none of them broken, with counts that are not negative and not all
    zero. -/
structure Table.WellFormed (t : Table) : Prop where
  names : (t.map (·.1)).Nodup
  single : ∀ entry ∈ t, Text.OneLine entry.1
  counts : ∀ entry ∈ t, 0 ≤ entry.2
  total : 0 < t.total

/-- The entry shows the name and its share of the total. -/
def ShowsEntry (total : Int) (entry : String × Int) (text : String) : Prop :=
  ∃ share, Quantity.percent 1 (.whole entry.2) (.whole total) = .ok share ∧
    text = cellText entry.1 share

/-- The text shows the category, the sum of its counts in decimal digits, and its share of the
    total. -/
def ShowsCategory (t : Table) (category : Category) (text : String) : Prop :=
  ∃ written share, IsWritten (t.inCategory category).total written ∧
    Quantity.percent 0 (.whole (t.inCategory category).total) (.whole t.total) = .ok share ∧
    text = category.lineText written share

/-- The panel of a table, with the entries in this order and these categories: the total and how
    many names there are; the first entries, four to a line, so that no hidden one has a higher
    count than one that is shown; and after a blank line the categories that have a name, in their
    order, whose sums add up to the total. -/
structure Shows (t : Table) (top : Int) (order : Table) (present : List Category) (text : String) :
    Prop where
  ranking : order.Perm t ∧ order.Pairwise Outranks
  hidden : ∀ a ∈ order.take top.toNat, ∀ b ∈ order.drop top.toNat, b.2 ≤ a.2
  categories : present.Sublist Category.all ∧
    ∀ category, category ∈ present ↔ ∃ entry ∈ t, Category.ofName entry.1 = category
  sum : (present.map fun category => (t.inCategory category).total).sum = t.total
  lines : ∃ written cells parts,
    Text.lines text =
      ((written ++ s!" instructions, {t.length} distinct") ::
        (List.range ((cells.length + 3) / 4)).map (row cells) ++
        ["", "  " ++ String.intercalate "  |  " parts]).map String.toList ∧
    IsWritten t.total written ∧
    List.Forall₂ (ShowsEntry t.total) (order.take top.toNat) cells ∧
    List.Forall₂ (ShowsCategory t) present parts

/-- The text of an entry shows it. -/
private theorem cell_eq_ok {total : Int} {entry : String × Int} {text : String}
    (h : cell total entry = .ok text) : ShowsEntry total entry text := by
  unfold cell at h
  cases hshare : Quantity.percent 1 (.whole entry.2) (.whole total) with
  | error error =>
    rw [hshare] at h
    cases h
  | ok share =>
    rw [hshare] at h
    cases h
    exact ⟨share, hshare, rfl⟩

/-- The text of an entry is one line if its name is. -/
private theorem ShowsEntry.oneLine {total : Int} {entry : String × Int} {text : String}
    (h : ShowsEntry total entry text) (hname : Text.OneLine entry.1) : Text.OneLine text := by
  obtain ⟨share, hshare, rfl⟩ := h
  have hpadded : Text.OneLine (Text.padRight 11 ' ' entry.1 ++ " ") :=
    Text.oneLine_append (Text.oneLine_padRight 11 hname) (by decide +kernel)
  exact Text.oneLine_append hpadded (Text.oneLine_padLeft 6 (Quantity.oneLine_percent hshare))

/-- The text of a category is one line if its numbers are. -/
private theorem oneLine_lineText (category : Category) {written share : String}
    (hwritten : Text.OneLine written) (hshare : Text.OneLine share) :
    Text.OneLine (category.lineText written share) := by
  have hlabel : Text.OneLine category.label := by cases category <;> decide +kernel
  have hopened : Text.OneLine (category.label ++ ": ") :=
    Text.oneLine_append hlabel (by decide +kernel)
  have hsum : Text.OneLine (category.label ++ ": " ++ written ++ " (") :=
    Text.oneLine_append (Text.oneLine_append hopened hwritten) (by decide +kernel)
  exact Text.oneLine_append (Text.oneLine_append hsum hshare) (by decide +kernel)

/-- A row of cells is one line if the cells are. -/
private theorem oneLine_row {cells : List String} (h : ∀ text ∈ cells, Text.OneLine text)
    (j : Nat) :
    Text.OneLine (row cells j) := by
  refine Text.oneLine_append (by decide +kernel)
    (Text.oneLine_intercalate (by decide +kernel) fun text htext => h text ?_)
  exact List.mem_of_mem_drop (List.mem_of_mem_take htext)

/-- The lines of a panel. -/
private theorem lines_panel {written : String} {cells parts : List String} (distinct : Nat)
    (hwritten : Text.OneLine written) (hcells : ∀ text ∈ cells, Text.OneLine text)
    (hparts : ∀ text ∈ parts, Text.OneLine text) :
    Text.lines (panel written distinct cells parts) =
      ((written ++ s!" instructions, {distinct} distinct") ::
        (List.range ((cells.length + 3) / 4)).map (row cells) ++
        ["", "  " ++ String.intercalate "  |  " parts]).map String.toList := by
  rw [panel, cellLines_eq]
  refine Text.lines_intercalate (List.cons_ne_nil _ _) fun line hline => ?_
  show Text.OneLine line
  have hheader : Text.OneLine (" instructions, " ++ toString distinct ++ " distinct") :=
    Text.oneLine_append (Text.oneLine_append (by decide +kernel) (Text.oneLine_toString distinct))
      (by decide +kernel)
  have hlast : Text.OneLine ("  " ++ String.intercalate "  |  " parts) :=
    Text.oneLine_append (by decide +kernel) (Text.oneLine_intercalate (by decide +kernel) hparts)
  -- The lines are the heading, the rows, the blank line and the categories.
  rw [List.cons_append, List.mem_cons, List.mem_append, List.mem_map, List.mem_cons,
    List.mem_singleton] at hline
  obtain rfl | ⟨j, -, rfl⟩ | rfl | rfl := hline
  · exact Text.oneLine_append hwritten hheader
  · exact oneLine_row hcells j
  · decide +kernel
  · exact hlast

/-! ## Well-formed tables -/

namespace Table.WellFormed

/-- The entries that are shown have their shares. -/
private theorem exists_cells (h : t.WellFormed) (top : Int) :
    ∃ cells, (firstOf top t.ranked).mapM (cell t.total) = .ok cells ∧
      List.Forall₂ (ShowsEntry t.total) (firstOf top t.ranked) cells := by
  have hcell : ∀ entry ∈ firstOf top t.ranked, ∃ text, cell t.total entry = .ok text := by
    intro entry hentry
    have hmem : entry ∈ t := (ranked_perm_self t).mem_iff.1 (mem_of_mem_firstOf hentry)
    obtain ⟨share, hshare⟩ := exists_entryShare hmem h.counts h.total
    refine ⟨cellText entry.1 share, ?_⟩
    rw [cell, hshare]
    rfl
  obtain ⟨cells, hcells, hall⟩ := exists_mapM_forall₂ hcell
  exact ⟨cells, hcells, hall.imp fun _ _ => cell_eq_ok⟩

/-- The categories have their shares, where their sums can be written. -/
private theorem exists_parts (h : t.WellFormed)
    (hwrite : ∀ n, 0 ≤ n → n ≤ t.total → write n = .ok (grouped n)) :
    ∃ parts, t.present.mapM (categoryText write t) = .ok parts ∧
      List.Forall₂ (ShowsCategory t) t.present parts ∧
      ∀ text ∈ parts, Text.OneLine text := by
  have hpart (category : Category) : ∃ text, categoryText write t category = .ok text ∧
      ShowsCategory t category text ∧ Text.OneLine text := by
    -- A category has no more than the total, so that its sum can be written too.
    obtain ⟨hnonneg, hle⟩ := total_inCategory_le category h.counts
    obtain ⟨share, hshare⟩ := exists_categoryShare category h.counts h.total
    refine ⟨_, ?_, ⟨_, share, isWritten_grouped hnonneg, hshare, rfl⟩,
      oneLine_lineText category (oneLine_grouped hnonneg) (Quantity.oneLine_percent hshare)⟩
    rw [categoryText, hwrite _ hnonneg hle, hshare]
    rfl
  obtain ⟨parts, hparts, hall⟩ := exists_mapM_forall₂ (l := t.present) fun category _ =>
    (hpart category).imp fun _ h => h.1
  have hshows (category : Category) (text : String)
      (heq : categoryText write t category = .ok text) :
      ShowsCategory t category text ∧ Text.OneLine text := by
    obtain ⟨text', heq', hshows⟩ := hpart category
    obtain rfl := Except.ok.inj (heq'.symm.trans heq)
    exact hshows
  refine ⟨parts, hparts, hall.imp fun category text heq => (hshows category text heq).1, ?_⟩
  intro text htext
  obtain ⟨category, -, heq⟩ := exists_of_forall₂_mem hall htext
  exact (hshows category text heq).2

/-- A table with a positive total has an entry. -/
private theorem isEmpty_eq_false (h : t.WellFormed) : t.isEmpty = false := by
  cases t with
  | nil => exact absurd h.total (by decide)
  | cons => rfl

/-- No hidden entry has a higher count than one that is shown. -/
private theorem hidden_le (h : t.WellFormed) (shown : Nat) {a b : String × Int}
    (ha : a ∈ t.ranked.take shown) (hb : b ∈ t.ranked.drop shown) : b.2 ≤ a.2 := by
  have hranked := pairwise_ranked h.names
  -- The ranking is cut where the shown entries end; what is hidden stands behind what is shown.
  rw [← List.take_append_drop shown t.ranked, List.pairwise_append] at hranked
  obtain hlt | ⟨heq, -⟩ := hranked.2.2 a ha b hb
  · exact Int.le_of_lt hlt
  · exact Int.le_of_eq heq.symm

/-- Where its numbers can be written, a table has a panel, which shows it. -/
private theorem exists_text (h : t.WellFormed) (htop : 0 ≤ top)
    (hwrite : ∀ n, 0 ≤ n → n ≤ t.total → write n = .ok (grouped n)) :
    ∃ text, Statistics.text t top write = .ok text ∧ Shows t top t.ranked t.present text := by
  obtain ⟨cells, hcells, hentries⟩ := h.exists_cells top
  obtain ⟨parts, hparts, hcategories, hlines⟩ := h.exists_parts hwrite
  have hfirst : firstOf top t.ranked = t.ranked.take top.toNat := if_pos htop
  have hnonneg : 0 ≤ t.total := Int.le_of_lt h.total
  have hsingle : ∀ text ∈ cells, Text.OneLine text := by
    intro text htext
    obtain ⟨entry, hentry, hshows⟩ := exists_of_forall₂_mem hentries htext
    exact hshows.oneLine
      (h.single entry ((ranked_perm_self t).mem_iff.1 (mem_of_mem_firstOf hentry)))
  refine ⟨panel (grouped t.total) t.length cells parts, ?_, ?_⟩
  · rw [text_eq, h.isEmpty_eq_false, if_neg Bool.false_ne_true, hcells,
      hwrite _ hnonneg (Int.le_refl _), hparts]
    rfl
  · exact {
      ranking := ⟨ranked_perm_self t, pairwise_ranked h.names⟩
      hidden := fun a ha b hb => h.hidden_le _ ha hb
      categories := ⟨List.filter_sublist, fun _ => mem_present⟩
      sum := sum_present t
      lines := ⟨grouped t.total, cells, parts,
        lines_panel t.length (oneLine_grouped hnonneg) hsingle hlines,
        isWritten_grouped hnonneg, hfirst ▸ hentries, hcategories⟩ }

end Table.WellFormed

/-! ## The counts of a machine -/

/-- Of all names that a machine counts, the one of undefined words has no category of its own. -/
private theorem ofName_eq_other_iff :
    ∀ name ∈ Instruction.mnemonics, (Category.ofName name = .other ↔ name = "UNKNOWN") := by
  decide +kernel

/-- A tally has the same total as its table. -/
private theorem total_ofTally (tally : Tally String) :
    (Table.ofTally tally).total = tally.total := by
  obtain ⟨entries⟩ := tally
  -- Induction on the entries of the tally, which `Table.ofTally` takes over one by one.
  induction entries with
  | nil => rfl
  | cons entry rest ih =>
    have hrest : (Table.ofTally ⟨entry :: rest⟩).total =
        (entry.2 : Int) + (Table.ofTally ⟨rest⟩).total := total_cons _ _
    rw [hrest, ih, Tally.total, Tally.total, List.map_cons, List.sum_cons, Int.natCast_add]

/-- A name that is nowhere in a tally is counted zero times. -/
private theorem get_eq_zero {entries : List (String × Nat)} {name : String}
    (h : name ∉ entries.map (·.1)) : Tally.get ⟨entries⟩ name = 0 := by
  have hnone : entries.find? (fun entry => entry.1 = name) = none := by
    refine List.find?_eq_none.2 fun entry hentry heq => h ?_
    exact List.mem_map.2 ⟨entry, hentry, of_decide_eq_true heq⟩
  rw [Tally.get, hnone]
  rfl

/-- What is in no category is what was counted as undefined. -/
private theorem total_inCategory_other {tally : Tally String}
    (hnames : (tally.entries.map (·.1)).Nodup)
    (hknown : ∀ entry ∈ tally.entries, entry.1 ∈ Instruction.mnemonics) :
    ((Table.ofTally tally).inCategory .other).total = tally.get "UNKNOWN" := by
  -- Induction on the entries: the name of undefined words occurs in one of them at most.
  obtain ⟨entries⟩ := tally
  induction entries with
  | nil => rfl
  | cons entry rest ih =>
    obtain ⟨hfirst, hrest⟩ := List.nodup_cons.1 hnames
    have hothers := ih hrest fun e he => hknown e (List.mem_cons_of_mem _ he)
    have hother := ofName_eq_other_iff entry.1 (hknown entry List.mem_cons_self)
    have hsum : ((Table.ofTally ⟨entry :: rest⟩).inCategory .other).total =
        (if Category.ofName entry.1 = .other then (entry.2 : Int) else 0) +
          ((Table.ofTally ⟨rest⟩).inCategory .other).total := total_inCategory_cons _ _ _
    rw [hsum, hothers]
    by_cases hname : entry.1 = "UNKNOWN"
    -- This entry is the one, and so the rest has none of its name.
    · have hnone : Tally.get ⟨rest⟩ "UNKNOWN" = 0 := get_eq_zero (hname ▸ hfirst)
      rw [if_pos (hother.2 hname), hnone, Tally.get, List.find?_cons_of_pos (by simp [hname])]
      rfl
    · rw [if_neg fun h => hname (hother.1 h), Int.zero_add, Tally.get, Tally.get,
        List.find?_cons_of_neg (by simp [hname])]

/-- The table of a machine that has completed a step since its last reset is well-formed, and its
    total is the number of cycles. -/
private theorem wellFormed_ofTally {ρ : Type} [ByteSource ρ] {source : ρ} {seen : List Outcome}
    {m : Machine ρ} (h : m.Account source seen) (hcycles : 0 < m.cycles) :
    (Table.ofTally m.statistics).WellFormed ∧ (Table.ofTally m.statistics).total = m.cycles := by
  have hsingle : ∀ name ∈ Instruction.mnemonics, Text.OneLine name := by decide +kernel
  have htotal : (Table.ofTally m.statistics).total = m.cycles := by
    rw [total_ofTally, h.total]
  -- The names and counts of a tally are what `Account` says of them.
  refine ⟨⟨?_, ?_, ?_, ?_⟩, htotal⟩
  · rw [Table.ofTally, List.map_map]
    exact h.names
  · intro entry hentry
    obtain ⟨counted, hcounted, rfl⟩ := List.mem_map.1 hentry
    exact hsingle _ (h.entries counted hcounted).1
  · intro entry hentry
    obtain ⟨counted, -, rfl⟩ := List.mem_map.1 hentry
    exact Int.natCast_nonneg _
  · rw [htotal]
    exact Int.natCast_pos.2 hcycles

/-- Whatever a host does with a machine, its books balance. -/
private theorem exists_account {ρ : Type} [ByteSource ρ] (random : ρ) (calls : List Call) :
    ∃ source seen, ((Machine.fresh random).callAll calls).Account source seen := by
  refine Machine.callAll_induction
    (P := fun m : Machine ρ => ∃ source seen, m.Account source seen) ?_ ?_ ?_ ?_ ?_
    ⟨random, [], .fresh random⟩ calls
  · exact fun m _ => ⟨m.random, [], .fresh m.random⟩
  · exact fun m memory ⟨source, seen, h⟩ => ⟨source, seen, h.of_eq rfl rfl rfl⟩
  · exact fun m ⟨source, seen, h⟩ => ⟨source, _, h.after 1⟩
  · exact fun m ⟨source, seen, h⟩ => ⟨source, seen, h.tick⟩
  · exact fun m keys ⟨source, seen, h⟩ => ⟨source, seen, h.of_eq rfl rfl rfl⟩

/-! ## The panel of a host's table -/

/-- The panel of a host's table is the panel of the table, written within the digit limit. -/
theorem text_ofTable (t : Table) (top : Int) :
    (HostTable.ofTable t).text top = text t top grouped? := by
  rw [HostTable.text, HostTable.toTable?_ofTable]

/-- A total with too many digits is refused, and with it the panel. -/
private theorem Table.WellFormed.text_of_limit_le (h : t.WellFormed)
    (hlimit : 10 ^ Text.decimalLimit ≤ t.total.natAbs) (top : Int) :
    (HostTable.ofTable t).text top = .error .tooManyDigits := by
  obtain ⟨cells, hcells, -⟩ := h.exists_cells top
  have hwrite : grouped? t.total = .error .tooManyDigits := if_pos hlimit
  rw [text_ofTable, text_eq, h.isEmpty_eq_false, if_neg Bool.false_ne_true, hcells, hwrite]
  rfl

/-- The panel of a table does not depend on the order in which the names were counted. It shows a
    total of up to 4300 digits, which is the sum of all counts; the entries with the highest counts,
    those with equal counts by their names; and the categories of the names, whose sums add up to
    the total. There is no panel for a longer total, in no order. The counts of a machine that has
    completed a step are such a table, with the number of cycles as the total, and all that is in no
    category was counted as undefined. -/
theorem text_adds_up :
    (∀ (t : Table) (top : Int), t.WellFormed → 0 ≤ top →
      (∀ t', t'.Perm t → (HostTable.ofTable t').text top = (HostTable.ofTable t).text top) ∧
      (t.total.natAbs < 10 ^ Text.decimalLimit → ∃ text order present,
        (HostTable.ofTable t).text top = .ok text ∧ Shows t top order present text) ∧
      (10 ^ Text.decimalLimit ≤ t.total.natAbs →
        (HostTable.ofTable t).text top = .error .tooManyDigits)) ∧
    ∀ {ρ : Type} [ByteSource ρ] (random : ρ) (calls : List Call),
      let m := (Machine.fresh random).callAll calls
      let t := Table.ofTally m.statistics
      0 < m.cycles → t.WellFormed ∧ t.total = m.cycles ∧
        (t.inCategory .other).total = m.statistics.get "UNKNOWN" := by
  refine ⟨fun t top h htop => ⟨fun t' hperm => ?_, fun hsmall => ?_, fun hlimit => ?_⟩, ?_⟩
  · rw [text_ofTable, text_ofTable, text_perm hperm]
  · have hwrite : ∀ n, 0 ≤ n → n ≤ t.total → grouped? n = .ok (grouped n) := by
      -- Sums within the table are at most the total, and so are their digits.
      intro n hnonneg hle
      have hless : ¬10 ^ Text.decimalLimit ≤ n.natAbs := by omega
      exact if_neg hless
    obtain ⟨text, htext, hshows⟩ := h.exists_text htop hwrite
    exact ⟨text, t.ranked, t.present, (text_ofTable t top).trans htext, hshows⟩
  · exact h.text_of_limit_le hlimit top
  · intro ρ _ random calls m t hcycles
    obtain ⟨source, seen, haccount⟩ := exists_account random calls
    obtain ⟨hwell, htotal⟩ := wellFormed_ofTally haccount hcycles
    exact ⟨hwell, htotal,
      total_inCategory_other haccount.names fun entry hentry => (haccount.entries entry hentry).1⟩

/-- Three names have equal counts, and a fourth one has none. One name is in no category, and two
    are in the same one. A machine that has come to an undefined word counts it under such a
    name. -/
theorem text_adds_up_ties :
    let t : Table := [("XYZ", 7), ("DRW", 1000), ("SE_VX_VY", 7), ("JP", 7), ("JP_V0", 0)]
    let shown := "1,021 instructions, 5 distinct\n" ++
      "  DRW          97.9%   JP            0.7%   SE_VX_VY      0.7%   XYZ           0.7%\n" ++
      "  JP_V0         0.0%\n\n  Flow: 14 (1%)  |  Display: 1,000 (98%)  |  Other: 7 (1%)"
    let m := (Machine.fresh (Replay.ofInts [7])).callAll
      [.load [0x60, 0x05, 0xF0, 0xFF], .drive .step, .drive .step]
    t.WellFormed ∧
    (HostTable.ofTable t.reverse).text 5 = .ok shown ∧
    (∃ order present, Shows t 5 order present shown) ∧
    m.cycles = 2 ∧ ((Table.ofTally m.statistics).inCategory .other).total = 1 := by
  intro t shown m
  have hwell : t.WellFormed :=
    { names := by decide +kernel
      single := by decide +kernel
      counts := by decide
      total := by decide }
  have hranked : t.ranked =
      [("DRW", 1000), ("JP", 7), ("SE_VX_VY", 7), ("XYZ", 7), ("JP_V0", 0)] :=
    ranked_eq (by decide +kernel) (by decide +kernel)
  have htext : (HostTable.ofTable t).text 5 = .ok shown := by
    rw [text_ofTable, text_eq, hranked]
    decide +kernel
  obtain ⟨htable, hmachine⟩ := text_adds_up
  obtain ⟨hperm, hpanel, -⟩ := htable t 5 hwell (by decide)
  obtain ⟨text, order, present, htext', hshows⟩ := hpanel (by decide +kernel)
  obtain rfl : text = shown := Except.ok.inj (htext'.symm.trans htext)
  have hcounts : m.cycles = 2 ∧ m.statistics.get "UNKNOWN" = 1 := by decide +kernel
  obtain ⟨-, -, hother⟩ := hmachine (Replay.ofInts [7]) _ (show 0 < m.cycles by omega)
  refine ⟨hwell, (hperm _ t.reverse_perm).trans htext, ⟨order, present, hshows⟩, hcounts.1, ?_⟩
  exact hother.trans (congrArg Nat.cast hcounts.2)

/-- Two counts may have few enough digits and a sum with one too many. -/
theorem text_tooManyDigits :
    let t : Table := [("JP", ((10 ^ Text.decimalLimit - 1 : Nat) : Int)), ("DRW", 1)]
    t.WellFormed ∧ (HostTable.ofTable t).text 8 = .error .tooManyDigits := by
  intro t
  have hpos : 0 < 10 ^ Text.decimalLimit := Nat.pow_pos (by decide)
  have htotal : t.total = ((10 ^ Text.decimalLimit - 1 : Nat) : Int) + (1 + 0) := by
    rw [total_cons, total_cons]
    rfl
  have hwell : t.WellFormed :=
    { names := by decide +kernel
      single := by
        intro entry hentry
        obtain rfl | hrest := List.mem_cons.1 hentry
        · decide +kernel
        · obtain rfl := List.mem_singleton.1 hrest
          decide +kernel
      counts := by
        intro entry hentry
        obtain rfl | hrest := List.mem_cons.1 hentry
        · exact Int.natCast_nonneg _
        · obtain rfl := List.mem_singleton.1 hrest
          decide
      total := by omega }
  exact ⟨hwell, hwell.text_of_limit_le (by omega) 8⟩

end Statistics

end Chip8
