import Dalvik.Proofs.Contents
import Dalvik.Proofs.HeaderNotes

/-!
# The greedy layout

The sections are taken one after another, and a section is laid out just when it is not empty, ends
within the input and shares no byte with a section that was laid out before. The layout and the
notes about the sections that it leaves out can both be told from the header.
-/

namespace Dalvik

variable {header : Header} {length : Nat} {layout : Layout} {block : Section} {extent : Extent}

/-! ## Ranges -/

namespace Span

variable {first second : Span}

/-- Two ranges that share no offset. -/
def Disjoint (first second : Span) : Prop :=
  ∀ offset, ¬((first.start ≤ offset ∧ offset < first.stop) ∧
    (second.start ≤ offset ∧ offset < second.stop))

theorem contains_iff {span : Span} {offset : Nat} :
    span.contains offset ↔ span.start ≤ offset ∧ offset < span.stop := by
  simp [contains]

theorem disjoint_iff :
    first.Disjoint second ↔ min first.stop second.stop ≤ max first.start second.start := by
  unfold Disjoint
  constructor
  · intro h
    have := h (max first.start second.start)
    omega
  · intro h offset
    omega

theorem Disjoint.not_contains (h : first.Disjoint second) (offset : Nat) :
    ¬(first.contains offset ∧ second.contains offset) := by
  rw [contains_iff, contains_iff]
  exact h offset

instance (first second : Span) : Decidable (first.Disjoint second) :=
  decidable_of_iff _ disjoint_iff.symm

theorem overlaps_iff (hfirst : first.start < first.stop) (hsecond : second.start < second.stop) :
    first.overlaps second ↔ ¬first.Disjoint second := by
  simp only [overlaps, disjoint_iff, Bool.and_eq_true, decide_eq_true_eq]
  omega

end Span

/-! ## Sections -/

namespace Section

/-- The sections that are laid out before a section. -/
def earlier (block : Section) : List Section :=
  all.takeWhile (· ≠ block)

/-- Every section but the header is laid out at one place of the order. -/
theorem exists_order_eq (h : block ≠ .header) :
    ∃ before later, Layout.order = before ++ block :: later := by
  refine List.append_of_mem ?_
  cases block with
  | header => exact (h rfl).elim
  | table table => cases table <;> decide
  | data | link => decide

theorem earlier_eq {before later : List Section} (h : Layout.order = before ++ block :: later) :
    block.earlier = .header :: before ∧ block ∉ later ∧
      ∀ other ∈ block :: later, other ∉ block.earlier := by
  have hall : all = (.header :: before) ++ block :: later := by
    rw [List.cons_append, ← h]
    rfl
  have hnodup : all.Nodup := by decide
  rw [hall, List.nodup_append] at hnodup
  obtain ⟨-, hlater, hapart⟩ := hnodup
  have hnot : block ∉ .header :: before := fun hmem => hapart _ hmem _ List.mem_cons_self rfl
  have hearlier : block.earlier = .header :: before := by
    rw [earlier, hall, List.takeWhile_append_of_pos, List.takeWhile_cons_of_neg, List.append_nil]
    · simp
    · intro other hother
      exact decide_eq_true fun heq => hnot (heq ▸ hother)
  refine ⟨hearlier, (List.nodup_cons.mp hlater).1, fun other hother hmem => ?_⟩
  exact hapart _ (hearlier ▸ hmem) _ hother rfl

end Section

namespace Header

/-- How many items or bytes a header says there are of a section. -/
def amount (header : Header) : Section → Nat
  | .header => headerLength
  | .table table => header.count table
  | .data => header.data.size.toNat
  | .link => header.link.size.toNat

theorem start_lt_stop_iff (header : Header) (block : Section) :
    (header.span block).start < (header.span block).stop ↔ header.amount block ≠ 0 := by
  cases block with
  | header => simp [span, amount, headerLength]
  | table table =>
      have hsize : 0 < table.itemSize := by cases table <;> decide
      simp only [span, amount, Nat.lt_add_right_iff_pos, Nat.mul_pos_iff_of_pos_right hsize,
        Nat.pos_iff_ne_zero]
  | data | link => simp only [span, amount, Nat.lt_add_right_iff_pos, Nat.pos_iff_ne_zero]

theorem start_eq_stop_iff (header : Header) (block : Section) :
    (header.span block).start = (header.span block).stop ↔ header.amount block = 0 := by
  have hle : (header.span block).start ≤ (header.span block).stop := by
    cases block <;> simp [span]
  have hlt := header.start_lt_stop_iff block
  omega

end Header

/-! ## Adding one section -/

namespace Layout

/-- The sections of a layout in ascending order. -/
def blocks (layout : Layout) : List Section :=
  layout.extents.map Extent.block

theorem mem_blocks : block ∈ layout.blocks ↔ ∃ extent ∈ layout.extents, extent.block = block :=
  List.mem_map

/-- A layout with every section in the place that the header gives it, and no byte in two. -/
structure Tidy (layout : Layout) (header : Header) : Prop where
  span_eq : ∀ extent ∈ layout.extents, extent.span = header.span extent.block
  nonempty : ∀ extent ∈ layout.extents, extent.span.start < extent.span.stop
  ascending : layout.extents.Pairwise fun first second => first.span.stop ≤ second.span.start

/-- Whether a section can be added to a layout. -/
def HasRoom (layout : Layout) (header : Header) (length : Nat) (block : Section) : Prop :=
  header.amount block ≠ 0 ∧ (header.span block).stop ≤ length ∧
    ∀ extent ∈ layout.extents, extent.span.Disjoint (header.span block)

instance (layout : Layout) (header : Header) (length : Nat) (block : Section) :
    Decidable (layout.HasRoom header length block) := inferInstanceAs (Decidable (_ ∧ _ ∧ _))

@[simp]
theorem mem_insertSorted {other : Extent} {list : List Extent} :
    other ∈ insertSorted extent list ↔ other = extent ∨ other ∈ list := by
  induction list with
  | nil => simp [insertSorted]
  | cons next rest ih =>
      unfold insertSorted
      split
      · exact List.mem_cons
      · rw [List.mem_cons, ih, List.mem_cons, or_left_comm]

theorem ascending_insertSorted {list : List Extent}
    (hnonempty : extent.span.start < extent.span.stop)
    (hlist : ∀ other ∈ list, other.span.start < other.span.stop)
    (hdisjoint : ∀ other ∈ list, other.span.Disjoint extent.span)
    (h : list.Pairwise fun first second => first.span.stop ≤ second.span.start) :
    (insertSorted extent list).Pairwise fun first second =>
      first.span.stop ≤ second.span.start := by
  induction list with
  | nil => exact List.pairwise_singleton _ _
  | cons next rest ih =>
      obtain ⟨hnext, hrest⟩ := List.pairwise_cons.mp h
      have hapart := Span.disjoint_iff.mp (hdisjoint next List.mem_cons_self)
      have hwide := hlist next List.mem_cons_self
      unfold insertSorted
      split
      next hlt =>
        refine List.pairwise_cons.mpr ⟨fun other hother => ?_, h⟩
        rcases List.mem_cons.mp hother with rfl | hother
        · omega
        · have := hnext other hother
          omega
      next hle =>
        refine List.pairwise_cons.mpr ⟨fun other hother => ?_,
          ih (fun other hother => hlist other (List.mem_cons_of_mem _ hother))
            (fun other hother => hdisjoint other (List.mem_cons_of_mem _ hother)) hrest⟩
        rcases mem_insertSorted.mp hother with rfl | hother
        · omega
        · exact hnext other hother

theorem filter_insertSorted {p : Extent → Bool} {list : List Extent} (h : p extent = false) :
    (insertSorted extent list).filter p = list.filter p := by
  induction list with
  | nil => simp [insertSorted, h]
  | cons next rest ih =>
      unfold insertSorted
      split
      · exact List.filter_cons_of_neg (by simp [h])
      · rw [List.filter_cons, List.filter_cons, ih]

theorem Tidy.overlapping_eq (htidy : layout.Tidy header) {span : Span}
    (h : span.start < span.stop) :
    layout.overlapping span =
      (layout.extents.filter fun extent => ¬extent.span.Disjoint span).map Extent.block := by
  unfold overlapping
  refine congrArg (List.map _) (List.filter_congr fun extent hmem => ?_)
  rw [Bool.eq_iff_iff, Span.overlaps_iff (htidy.nonempty extent hmem) h, decide_eq_true_iff]

theorem Tidy.overlapping_eq_nil_iff (htidy : layout.Tidy header) (hamount : header.amount block ≠ 0)
    (hle : (header.span block).stop ≤ length) :
    layout.overlapping (header.span block) = [] ↔ layout.HasRoom header length block := by
  rw [htidy.overlapping_eq ((header.start_lt_stop_iff _).mpr hamount), List.map_eq_nil_iff,
    List.filter_eq_nil_iff, HasRoom, and_iff_right hamount, and_iff_right hle]
  simp

/-- A section is added just when there is room for it. -/
theorem Tidy.addSection_eq (htidy : layout.Tidy header) (length : Nat) (block : Section) :
    addSection header length layout block =
      if layout.HasRoom header length block then
        ⟨insertSorted ⟨block, header.span block⟩ layout.extents⟩
      else layout := by
  have hempty := header.start_eq_stop_iff block
  unfold addSection
  by_cases hskip : (header.span block).start = (header.span block).stop ∨
      length < (header.span block).stop
  · have hnone : ¬layout.HasRoom header length block := by
      rintro ⟨hamount, hle, -⟩
      omega
    rw [if_neg hnone]
    exact if_pos hskip
  · have hamount : header.amount block ≠ 0 := by omega
    have hfree := htidy.overlapping_eq_nil_iff hamount (Nat.le_of_not_lt (not_or.mp hskip).2)
    simp only [add, if_neg hskip, hfree]

theorem Tidy.addSection (htidy : layout.Tidy header) (length : Nat) (block : Section) :
    (Layout.addSection header length layout block).Tidy header := by
  rw [htidy.addSection_eq]
  split
  next hroom =>
    have hlt := (header.start_lt_stop_iff _).mpr hroom.1
    constructor
    · rintro extent hmem
      rcases mem_insertSorted.mp hmem with rfl | hmem
      · rfl
      · exact htidy.span_eq extent hmem
    · rintro extent hmem
      rcases mem_insertSorted.mp hmem with rfl | hmem
      · exact hlt
      · exact htidy.nonempty extent hmem
    · exact ascending_insertSorted hlt htidy.nonempty hroom.2.2 htidy.ascending
  next => exact htidy

/-- Adding a section changes nothing about the others, and so about those that a condition picks. -/
theorem filter_addSection {p : Section → Bool} (h : p block = false) :
    (addSection header length layout block).extents.filter (fun extent => p extent.block) =
      layout.extents.filter fun extent => p extent.block := by
  unfold addSection add
  dsimp only
  split
  · rfl
  · split
    · exact filter_insertSorted h
    · rfl

/-! ## Adding sections in their order -/

theorem Tidy.foldl (htidy : layout.Tidy header) (length : Nat) (list : List Section) :
    (list.foldl (Layout.addSection header length) layout).Tidy header := by
  induction list generalizing layout with
  | nil => exact htidy
  | cons block list ih => exact ih (htidy.addSection length block)

theorem filter_foldl (header : Header) (length : Nat) (layout : Layout) {p : Section → Bool}
    {list : List Section} (h : ∀ block ∈ list, p block = false) :
    (list.foldl (addSection header length) layout).extents.filter (fun extent => p extent.block) =
      layout.extents.filter fun extent => p extent.block := by
  induction list generalizing layout with
  | nil => rfl
  | cons block list ih =>
      obtain ⟨hblock, hlist⟩ := List.forall_mem_cons.mp h
      rw [List.foldl_cons, ih _ hlist, filter_addSection hblock]

/-- A layout of the header alone. -/
def initial (header : Header) : Layout :=
  ⟨[⟨.header, header.span .header⟩]⟩

theorem tidy_initial (header : Header) : (initial header).Tidy header := by
  constructor
  · simp [initial]
  · simp [initial, Header.span, headerLength]
  · exact List.pairwise_singleton _ _

/-- The part of a layout that is laid out before a section. -/
def before (layout : Layout) (block : Section) : Layout :=
  ⟨layout.extents.filter fun extent => extent.block ∈ block.earlier⟩

theorem mem_blocks_before {other : Section} :
    other ∈ (layout.before block).blocks ↔ other ∈ layout.blocks ∧ other ∈ block.earlier := by
  simp only [mem_blocks, before, List.mem_filter, decide_eq_true_iff]
  constructor
  · rintro ⟨extent, ⟨hmem, hearlier⟩, rfl⟩
    exact ⟨⟨extent, hmem, rfl⟩, hearlier⟩
  · rintro ⟨⟨extent, hmem, rfl⟩, hearlier⟩
    exact ⟨extent, ⟨hmem, hearlier⟩, rfl⟩

theorem Tidy.before (htidy : layout.Tidy header) (block : Section) :
    (layout.before block).Tidy header where
  span_eq extent hmem := htidy.span_eq extent (List.mem_filter.mp hmem).1
  nonempty extent hmem := htidy.nonempty extent (List.mem_filter.mp hmem).1
  ascending := htidy.ascending.filter _

theorem tidy_placed (header : Header) (length : Nat) : (placed header length).Tidy header :=
  (tidy_initial header).foldl length order

theorem mem_foldl (header : Header) (length : Nat) (layout : Layout) {list : List Section}
    (h : extent.block ∉ list) :
    extent ∈ (list.foldl (addSection header length) layout).extents ↔ extent ∈ layout.extents := by
  have hkept := filter_foldl header length layout (p := (· == extent.block)) fun block hmem =>
    beq_eq_false_iff_ne.mpr fun heq => h (heq ▸ hmem)
  have hmem := congrArg (extent ∈ ·) hkept
  simpa using hmem

/-- When a section comes up, the layout holds what it holds of the earlier sections in the end. -/
theorem foldl_eq_before {before later : List Section} (h : order = before ++ block :: later) :
    before.foldl (addSection header length) (initial header) =
      (placed header length).before block := by
  obtain ⟨hearlier, -, hlater⟩ := Section.earlier_eq h
  have hplaced : placed header length = (block :: later).foldl (addSection header length)
      (before.foldl (addSection header length) (initial header)) := by
    rw [placed, h, List.foldl_append]
    rfl
  -- What comes up from here on is not an earlier section.
  have hkept := filter_foldl header length
    (before.foldl (addSection header length) (initial header))
    (p := fun other => other ∈ block.earlier) fun other (hother : other ∈ block :: later) =>
      decide_eq_false (hlater other hother)
  rw [← hplaced] at hkept
  have hall : (before.foldl (addSection header length) (initial header)).extents.filter
      (fun extent => extent.block ∈ block.earlier) =
        (before.foldl (addSection header length) (initial header)).extents := by
    refine List.filter_eq_self.mpr fun extent hmem => decide_eq_true ?_
    rw [hearlier, List.mem_cons]
    refine Decidable.or_iff_not_imp_right.mpr fun hbefore => ?_
    rw [mem_foldl _ _ _ hbefore, initial, List.mem_singleton] at hmem
    exact congrArg Extent.block hmem
  rw [Layout.before, hkept, hall]

/-- A section is laid out just when there is room for it among the earlier ones. -/
theorem mem_blocks_placed_iff (h : block ≠ .header) :
    block ∈ (placed header length).blocks ↔
      ((placed header length).before block).HasRoom header length block := by
  obtain ⟨before, later, horder⟩ := Section.exists_order_eq h
  obtain ⟨hearlier, hlater, hnot⟩ := Section.earlier_eq horder
  have hplaced : placed header length = later.foldl (addSection header length)
      (addSection header length ((placed header length).before block) block) := by
    rw [← foldl_eq_before horder, placed, horder, List.foldl_append]
    rfl
  -- The later sections neither add this one nor take it out.
  have hstep : block ∈ (placed header length).blocks ↔
      block ∈ (addSection header length ((placed header length).before block) block).blocks := by
    rw [mem_blocks, mem_blocks]
    refine exists_congr fun extent => and_congr_left ?_
    rintro rfl
    have hkept := mem_foldl header length
      (addSection header length ((placed header length).before extent.block) extent.block) hlater
    rwa [← hplaced] at hkept
  rw [hstep, ((tidy_placed header length).before block).addSection_eq]
  split
  next hroom => simp [blocks, hroom]
  next hnone =>
    rw [mem_blocks_before]
    exact iff_of_false (fun hmem => hnot block List.mem_cons_self hmem.2) hnone

/-! ## Sections that are left out -/

/-- The sections of a header that are not empty and not in a layout, in the order in which they come
up. -/
def leftOut (layout : Layout) (header : Header) : List Section :=
  order.filter fun block => header.amount block ≠ 0 ∧ block ∉ layout.blocks

/-- What is noted of a section for which a layout has no room. -/
def objection (layout : Layout) (header : Header) (length : Nat) (block : Section) : Anomaly :=
  let span := header.span block
  if length < span.stop then .contradicted (.blockPastEnd block span.start span.stop length)
  else .overlap block span.start span.stop
    ((layout.extents.filter fun extent => ¬extent.span.Disjoint span).map Extent.block)

/-- What is noted of the sections that are left out, each among those laid out before it. -/
def objections (layout : Layout) (header : Header) (length : Nat) : List Anomaly :=
  (layout.leftOut header).map fun block => (layout.before block).objection header length block

theorem Tidy.sectionAnomalies_eq (htidy : layout.Tidy header) {options : Options}
    (hadmits : header.Admits length options block) :
    sectionAnomalies header length layout block =
      if header.amount block ≠ 0 ∧ ¬layout.HasRoom header length block then
        [layout.objection header length block]
      else [] := by
  have hempty := header.start_eq_stop_iff block
  unfold sectionAnomalies objection
  dsimp only
  by_cases hzero : header.amount block = 0
  · rw [if_pos (hempty.mpr hzero), if_neg fun h => h.1 hzero]
  · have hwide : (header.span block).start ≠ (header.span block).stop := fun h =>
      hzero (hempty.mp h)
    rw [if_neg hwide]
    by_cases hlt : length < (header.span block).stop
    · have hnone : ¬layout.HasRoom header length block := fun h => Nat.not_le_of_lt hlt h.2.1
      rw [if_pos hlt, if_pos ⟨hzero, hnone⟩, if_pos hlt]
      cases block with
      | table table =>
          -- A table beyond the end would have been refused.
          have hstop := (hadmits.resolve_left hwide).resolve_right fun h => h.2 table rfl
          omega
      | header | data | link => simp [Header.overrun, Contradiction.when, hwide, hlt]
    · have hfree := htidy.overlapping_eq_nil_iff hzero (Nat.le_of_not_lt hlt)
      have hothers := htidy.overlapping_eq ((header.start_lt_stop_iff _).mpr hzero)
      rw [if_neg hlt, if_neg hlt, ← hothers, conflicts]
      simp only [← hfree]
      cases layout.overlapping (header.span block) <;> simp [hzero]

/-- Anomalies of sections that come up one after another, each with one anomaly or none. -/
theorem anomalies_eq_map_filter {p : Section → Bool} {note : Section → Anomaly}
    {list : List Section} (h : ∀ before block later, list = before ++ block :: later →
      sectionAnomalies header length (before.foldl (addSection header length) layout) block =
        if p block then [note block] else []) :
    anomalies header length list layout = (list.filter p).map note := by
  induction list generalizing layout with
  | nil => rfl
  | cons block list ih =>
      have hblock := h [] block list rfl
      rw [List.foldl_nil] at hblock
      rw [anomalies, hblock, ih fun before other later heq => h (block :: before) other later
        (congrArg (block :: ·) heq), List.filter_cons]
      split <;> rfl

/-- What is noted of a header's sections can be told from the layout that comes of them. -/
theorem anomalies_eq_objections {options : Options}
    (hadmits : ∀ block ∈ order, header.Admits length options block) :
    anomalies header length order (initial header) =
      (placed header length).objections header length := by
  refine anomalies_eq_map_filter fun before block later horder => ?_
  have hmem : block ∈ order := horder ▸ List.mem_append_right _ List.mem_cons_self
  have hne : block ≠ .header := by
    rintro rfl
    exact absurd hmem (by decide)
  have hbefore := (tidy_placed header length).before block
  rw [foldl_eq_before horder, hbefore.sectionAnomalies_eq (hadmits block hmem)]
  simp only [mem_blocks_placed_iff hne, decide_eq_true_iff]

/-! ## Lookups -/

end Layout

/-- Where a condition holds of one element at most, a search finds that element. -/
theorem find?_eq_some_iff_of_pairwise {α : Type} {p : α → Bool} {list : List α} {a : α}
    (h : list.Pairwise fun b c => ¬(p b ∧ p c)) : list.find? p = some a ↔ a ∈ list ∧ p a := by
  induction list with
  | nil => simp
  | cons b list ih =>
      obtain ⟨hb, hlist⟩ := List.pairwise_cons.mp h
      cases hp : p b with
      | false =>
          rw [List.find?_cons_of_neg (by simp [hp]), ih hlist, List.mem_cons]
          constructor
          · exact fun ⟨hmem, ha⟩ => ⟨.inr hmem, ha⟩
          · rintro ⟨rfl | hmem, ha⟩
            · simp [hp] at ha
            · exact ⟨hmem, ha⟩
      | true =>
          rw [List.find?_cons_of_pos hp, Option.some.injEq]
          constructor
          · rintro rfl
            exact ⟨List.mem_cons_self, hp⟩
          · rintro ⟨hmem, ha⟩
            rcases List.mem_cons.mp hmem with rfl | hmem
            · rfl
            · exact (hb a hmem ⟨hp, ha⟩).elim

namespace Layout

theorem Tidy.disjoint (htidy : layout.Tidy header) :
    layout.extents.Pairwise fun first second => first.span.Disjoint second.span :=
  htidy.ascending.imp fun hle => Span.disjoint_iff.mpr (by omega)

theorem Tidy.nodup_blocks (htidy : layout.Tidy header) : layout.blocks.Nodup := by
  rw [blocks, List.Nodup, List.pairwise_map]
  refine htidy.ascending.imp_of_mem fun {first second} hfirst hsecond hle heq => ?_
  have hspan : first.span = second.span := by
    rw [htidy.span_eq first hfirst, htidy.span_eq second hsecond, heq]
  have hwide := htidy.nonempty first hfirst
  rw [hspan] at hle hwide
  omega

theorem Tidy.owner?_eq_some_iff (htidy : layout.Tidy header) {offset : Nat} :
    layout.owner? offset = some block ↔
      ∃ extent ∈ layout.extents, extent.block = block ∧ extent.span.contains offset := by
  rw [owner?, Option.map_eq_some_iff]
  refine exists_congr fun extent => ?_
  rw [find?_eq_some_iff_of_pairwise (htidy.disjoint.imp fun h => h.not_contains offset), and_assoc,
    and_congr_right_iff]
  exact fun _ => and_comm

theorem Tidy.span?_eq_some_iff (htidy : layout.Tidy header) {span : Span} :
    layout.span? block = some span ↔
      ∃ extent ∈ layout.extents, extent.block = block ∧ extent.span = span := by
  have hone : layout.extents.Pairwise fun first second =>
      ¬(first.block == block ∧ second.block == block) :=
    (List.pairwise_map.mp htidy.nodup_blocks).imp fun hne ⟨hfirst, hsecond⟩ =>
      hne ((beq_iff_eq.mp hfirst).trans (beq_iff_eq.mp hsecond).symm)
  rw [span?, Option.map_eq_some_iff]
  refine exists_congr fun extent => ?_
  rw [find?_eq_some_iff_of_pairwise hone, and_assoc, beq_iff_eq]

/-- The owner of an offset is the section whose range holds it. -/
theorem Tidy.owner?_iff_span? (htidy : layout.Tidy header) (offset : Nat) (block : Section) :
    layout.owner? offset = some block ↔
      ∃ span, layout.span? block = some span ∧ span.contains offset := by
  simp only [htidy.owner?_eq_some_iff, htidy.span?_eq_some_iff]
  constructor
  · rintro ⟨extent, hmem, hblock, hoffset⟩
    exact ⟨_, ⟨extent, hmem, hblock, rfl⟩, hoffset⟩
  · rintro ⟨_, ⟨extent, hmem, hblock, rfl⟩, hoffset⟩
    exact ⟨extent, hmem, hblock, hoffset⟩

/-! ## The layout of a header -/

/-- The layout that takes in the sections of a header in their order, each if it is not empty, ends
within `length` bytes and is disjoint from all that were taken in before. -/
structure Fills (layout : Layout) (header : Header) (length : Nat) : Prop where
  span?_header : layout.span? .header = some ⟨0, 0x70⟩
  span_eq : ∀ extent ∈ layout.extents, extent.span = header.span extent.block
  nonempty : ∀ extent ∈ layout.extents, extent.span.start < extent.span.stop
  ascending : layout.extents.Pairwise fun first second => first.span.start < second.span.start
  disjoint : layout.extents.Pairwise fun first second => first.span.Disjoint second.span
  nodup : layout.blocks.Nodup
  mem_blocks_iff : ∀ block, block ≠ .header →
    (block ∈ layout.blocks ↔ header.amount block ≠ 0 ∧ (header.span block).stop ≤ length ∧
      ∀ other ∈ block.earlier, other ∈ layout.blocks →
        (header.span other).Disjoint (header.span block))

theorem Fills.header_mem_blocks (h : layout.Fills header length) :
    .header ∈ layout.blocks := by
  obtain ⟨extent, hfound, -⟩ := Option.map_eq_some_iff.mp h.span?_header
  have hblock := List.find?_some hfound
  exact mem_blocks.mpr ⟨extent, List.mem_of_find?_eq_some hfound, beq_iff_eq.mp hblock⟩

theorem Tidy.hasRoom_before_iff (htidy : layout.Tidy header) :
    (layout.before block).HasRoom header length block ↔
      header.amount block ≠ 0 ∧ (header.span block).stop ≤ length ∧
        ∀ other ∈ block.earlier, other ∈ layout.blocks →
          (header.span other).Disjoint (header.span block) := by
  rw [HasRoom, and_congr_right_iff]
  refine fun _ => and_congr_right fun _ => ?_
  constructor
  · intro h other hearlier hother
    obtain ⟨extent, hmem, rfl⟩ := mem_blocks.mp (mem_blocks_before.mpr ⟨hother, hearlier⟩)
    rw [← (htidy.before block).span_eq extent hmem]
    exact h extent hmem
  · intro h extent hmem
    obtain ⟨hother, hearlier⟩ := mem_blocks_before.mp (mem_blocks.mpr ⟨extent, hmem, rfl⟩)
    rw [(htidy.before block).span_eq extent hmem]
    exact h extent.block hearlier hother

theorem fills_placed (header : Header) (length : Nat) :
    (placed header length).Fills header length := by
  have htidy := tidy_placed header length
  refine ⟨?_, htidy.span_eq, htidy.nonempty, ?_, htidy.disjoint, htidy.nodup_blocks, ?_⟩
  · refine htidy.span?_eq_some_iff.mpr ⟨⟨.header, header.span .header⟩, ?_, rfl, rfl⟩
    exact (mem_foldl _ _ _ (by decide : Section.header ∉ order)).mpr List.mem_cons_self
  · exact htidy.ascending.imp_of_mem fun {first second} hfirst _ hle =>
      Nat.lt_of_lt_of_le (htidy.nonempty first hfirst) hle
  · intro block hne
    rw [mem_blocks_placed_iff hne, htidy.hasRoom_before_iff]

theorem of_run_ofHeader {options : Options} {journal after : Journal}
    (h : (ofHeader header length options).run journal = (.ok layout, after)) :
    layout = placed header length ∧
      after.diagnostics = journal.diagnostics ++
        (layout.objections header length).map Anomaly.warning := by
  obtain ⟨hadmits, rfl⟩ := (yields_ofHeader header length options journal layout).mp ⟨after, h⟩
  obtain ⟨result, added, hrun, hending⟩ := notes_ofHeader header length options
  obtain ⟨rfl, rfl⟩ := Prod.mk.inj ((hrun journal).symm.trans h)
  refine ⟨rfl, ?_⟩
  cases hending with
  | value hnoted htells =>
      rw [Journal.diagnostics_append, htells.diagnostics, hnoted]
      exact congrArg (fun anomalies => journal.diagnostics ++ anomalies.map Anomaly.warning)
        (anomalies_eq_objections hadmits)

end Layout

end Dalvik
