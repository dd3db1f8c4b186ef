import Dalvik.Proofs.GreedyLayout
import Mathlib.Tactic.Choose

/-!
# The layout of declared sections

A header declares eight sections, each by a size and an offset. The layout takes them in one after
another, with just the bytes that are declared, and leaves out those for which there is no room.
Each section that is left out has its own warning.
-/

namespace Dalvik

open Text

variable {header : Header} {length : Nat} {layout : Layout}

/-- What a header declares of a section: its name in messages, how much of it there is and from
which offset on, and the size of one item. -/
structure Declaration where
  block : Section
  name : String
  placement : Placement
  itemSize : Nat

namespace Declaration

/-- The bytes of all items, from the offset on. -/
def span (declaration : Declaration) : Span where
  start := declaration.placement.offset.toNat
  stop := declaration.placement.offset.toNat +
    declaration.placement.size.toNat * declaration.itemSize

/-- How a warning about a declared section begins. -/
def title (declaration : Declaration) : String :=
  declaration.name ++ " section 0x" ++ hex declaration.span.start ++ "..0x" ++
    hex declaration.span.stop

end Declaration

/-- The declared sections in the order in which they are taken in. The size of the data and of the
link section is given in bytes. -/
def Header.declarations (header : Header) : List Declaration :=
  [⟨.table .strings, "string_ids", header.stringIds, 4⟩,
    ⟨.table .types, "type_ids", header.typeIds, 4⟩,
    ⟨.table .protos, "proto_ids", header.protoIds, 12⟩,
    ⟨.table .fields, "field_ids", header.fieldIds, 8⟩,
    ⟨.table .methods, "method_ids", header.methodIds, 8⟩,
    ⟨.table .classes, "class_defs", header.classDefs, 32⟩,
    ⟨.data, "data", header.data, 1⟩,
    ⟨.link, "link", header.link, 1⟩]

namespace Layout

/-- The layout that takes in declared sections one after another, each if it is not empty, ends
within `length` bytes and shares no byte with the header and with the sections that were taken in
before. -/
structure IsGreedy (layout : Layout) (declarations : List Declaration) (length : Nat) : Prop where
  span?_header : layout.span? .header = some ⟨0, 0x70⟩
  declared : ∀ extent ∈ layout.extents, extent = ⟨.header, ⟨0, 0x70⟩⟩ ∨
    ∃ declaration ∈ declarations, extent = ⟨declaration.block, declaration.span⟩
  nonempty : ∀ extent ∈ layout.extents, extent.span.start < extent.span.stop
  ascending : layout.extents.Pairwise fun first second => first.span.start < second.span.start
  disjoint : layout.extents.Pairwise fun first second => first.span.Disjoint second.span
  nodup : (layout.extents.map Extent.block).Nodup
  mem_iff : ∀ before declaration after, declarations = before ++ declaration :: after →
    (declaration.block ∈ layout.extents.map Extent.block ↔
      declaration.placement.size ≠ 0 ∧ declaration.span.stop ≤ length ∧
        Span.Disjoint ⟨0, 0x70⟩ declaration.span ∧
        ∀ earlier ∈ before, earlier.block ∈ layout.extents.map Extent.block →
          earlier.span.Disjoint declaration.span)

/-- The declared sections that are not empty and not in a layout. -/
def omitted (layout : Layout) (declarations : List Declaration) : List Declaration :=
  declarations.filter fun declaration =>
    declaration.placement.size ≠ 0 ∧ declaration.block ∉ layout.extents.map Extent.block

end Layout

namespace Header

theorem map_block_declarations (header : Header) :
    header.declarations.map Declaration.block = Layout.order := rfl

/-- What is declared of a section is what the header says of it. -/
theorem of_mem_declarations {declaration : Declaration} (h : declaration ∈ header.declarations) :
    declaration.span = header.span declaration.block ∧
      (declaration.placement.size ≠ 0 ↔ header.amount declaration.block ≠ 0) ∧
      declaration.name = declaration.block.name := by
  have hsize : ∀ size : UInt32, size ≠ 0 ↔ size.toNat ≠ 0 := fun size =>
    not_congr UInt32.toNat_inj.symm
  simp only [declarations, List.mem_cons, List.not_mem_nil, or_false] at h
  rcases h with rfl | rfl | rfl | rfl | rfl | rfl | rfl | rfl <;>
    exact ⟨by simp [Declaration.span, span, offset, count, Header.placement, Table.itemSize],
      hsize _, rfl⟩

theorem mem_declarations_of_append {before after : List Declaration} {declaration : Declaration}
    (h : header.declarations = before ++ declaration :: after) :
    declaration ∈ header.declarations :=
  h ▸ List.mem_append_right before List.mem_cons_self

/-- The sections before a declared one are the header and those declared before. -/
theorem earlier_block {before after : List Declaration} {declaration : Declaration}
    (h : header.declarations = before ++ declaration :: after) :
    declaration.block ≠ .header ∧
      declaration.block.earlier = .header :: before.map Declaration.block := by
  have horder : Layout.order =
      before.map Declaration.block ++ declaration.block :: after.map Declaration.block := by
    rw [← header.map_block_declarations, h, List.map_append, List.map_cons]
  refine ⟨?_, (Section.earlier_eq horder).1⟩
  intro heq
  have hmem : Section.header ∈ Layout.order := by
    rw [horder, ← heq]
    exact List.mem_append_right _ List.mem_cons_self
  exact absurd hmem (by decide)

end Header

namespace Layout

theorem Fills.isGreedy (h : layout.Fills header length) :
    layout.IsGreedy header.declarations length where
  span?_header := h.span?_header
  declared := by
    rintro ⟨block, span⟩ hmem
    obtain rfl : span = header.span block := h.span_eq _ hmem
    by_cases hblock : block = .header
    · subst hblock
      exact .inl rfl
    · obtain ⟨before, later, horder⟩ := Section.exists_order_eq hblock
      have hdeclared : block ∈ header.declarations.map Declaration.block := by
        rw [header.map_block_declarations, horder]
        exact List.mem_append_right _ List.mem_cons_self
      obtain ⟨declaration, hdeclaration, rfl⟩ := List.mem_map.mp hdeclared
      rw [← (Header.of_mem_declarations hdeclaration).1]
      exact .inr ⟨declaration, hdeclaration, rfl⟩
  nonempty := h.nonempty
  ascending := h.ascending
  disjoint := h.disjoint
  nodup := h.nodup
  mem_iff := by
    intro before declaration after hsplit
    obtain ⟨hne, hearlier⟩ := Header.earlier_block hsplit
    obtain ⟨hspan, hamount, -⟩ :=
      Header.of_mem_declarations (Header.mem_declarations_of_append hsplit)
    have hbefore : ∀ earlier ∈ before, earlier.span = header.span earlier.block :=
      fun earlier hmem => (Header.of_mem_declarations
        (hsplit ▸ List.mem_append_left _ hmem)).1
    have hfills := h.mem_blocks_iff declaration.block hne
    rw [hearlier, List.forall_mem_cons, List.forall_mem_map] at hfills
    refine hfills.trans ?_
    rw [hamount, hspan]
    refine and_congr_right fun _ => and_congr_right fun _ => and_congr ?_ ?_
    · exact forall_prop_of_true h.header_mem_blocks
    · refine forall₂_congr fun earlier hmem => ?_
      rw [hbefore earlier hmem]
      rfl

theorem map_block_omitted (layout : Layout) (header : Header) :
    (layout.omitted header.declarations).map Declaration.block = layout.leftOut header := by
  rw [leftOut, ← header.map_block_declarations, List.filter_map, omitted]
  refine congrArg (List.map _) (List.filter_congr fun declaration hmem => ?_)
  have hamount := (Header.of_mem_declarations hmem).2.1
  rw [Bool.eq_iff_iff, decide_eq_true_iff, Function.comp_apply, decide_eq_true_iff, hamount]
  rfl

/-- What is noted of a section that is left out begins with its title. -/
theorem exists_warning_objection (header : Header) (layout : Layout) (length : Nat)
    {declaration : Declaration} (h : declaration ∈ header.declarations) :
    ∃ reason, (layout.objection header length declaration.block).warning =
      ⟨.warning, "header", declaration.title ++ reason⟩ := by
  obtain ⟨hspan, -, hname⟩ := Header.of_mem_declarations h
  unfold objection Declaration.title
  rw [hspan, hname]
  dsimp only
  split
  · refine ⟨" runs past end of input " ++ ("(0x" ++ hex length ++ " bytes)"), ?_⟩
    rw [← String.append_assoc]
    rfl
  · let others := (layout.extents.filter fun extent =>
      ¬extent.span.Disjoint (header.span declaration.block)).map Extent.block
    refine ⟨" overlaps " ++ String.intercalate ", " (others.map Section.name), ?_⟩
    rw [← String.append_assoc]
    rfl

/-- The layout of a header takes in the declared sections one after another as long as there is
room, finds the section of every offset, and comes with one warning about the header for each
declared section that it leaves out. -/
theorem isGreedy_of_run {options : Options} {journal after : Journal}
    (h : (ofHeader header length options).run journal = (.ok layout, after)) :
    layout.IsGreedy header.declarations length ∧
    (∀ declaration ∈ header.declarations, ∀ span,
      layout.span? declaration.block = some span → span = declaration.span) ∧
    (∀ offset block, layout.owner? offset = some block ↔
      ∃ span, layout.span? block = some span ∧ span.start ≤ offset ∧ offset < span.stop) ∧
    ∃ reason : Declaration → String,
      after.diagnostics = journal.diagnostics ++
        (layout.omitted header.declarations).map fun declaration =>
          ⟨.warning, "header", declaration.title ++ reason declaration⟩ := by
  obtain ⟨rfl, hdiagnostics⟩ := of_run_ofHeader h
  have htidy := tidy_placed header length
  refine ⟨(fills_placed header length).isGreedy, ?_, ?_, ?_⟩
  · intro declaration hmem span hspan
    obtain ⟨extent, hextent, hblock, rfl⟩ := htidy.span?_eq_some_iff.mp hspan
    rw [htidy.span_eq extent hextent, hblock, (Header.of_mem_declarations hmem).1]
  · intro offset block
    simp only [htidy.owner?_iff_span?, Span.contains_iff]
  · choose! reason hreason using fun (declaration : Declaration)
      (hmem : declaration ∈ header.declarations) => exists_warning_objection header
        ((placed header length).before declaration.block) length hmem
    refine ⟨reason, ?_⟩
    rw [hdiagnostics, objections, ← map_block_omitted, List.map_map, List.map_map]
    refine congrArg (journal.diagnostics ++ ·) (List.map_congr_left fun declaration hmem => ?_)
    exact hreason declaration (List.mem_filter.mp hmem).1

end Layout

namespace Contents

/-- The header of an empty file with three tables, of which the second overlaps the first, a data
section at the end and a link section before it. -/
def scatteredHeader : Header :=
  { ({} : Contents).headerWith 0 (Vector.replicate 20 0) with
    stringIds := ⟨2, 0x70⟩, typeIds := ⟨2, 0x74⟩, protoIds := ⟨1, 0x78⟩, data := ⟨8, 0x90⟩,
    link := ⟨4, 0x84⟩ }

/-- The layout of the scattered header over a file that ends with the data section. -/
def scatteredLayout : Layout where
  extents := [⟨.header, ⟨0, 0x70⟩⟩, ⟨.table .strings, ⟨0x70, 0x78⟩⟩,
    ⟨.table .protos, ⟨0x78, 0x84⟩⟩, ⟨.link, ⟨0x84, 0x88⟩⟩, ⟨.data, ⟨0x90, 0x98⟩⟩]

theorem isGreedy_scatteredLayout :
    ∃ after reason, (Layout.ofHeader scatteredHeader 0x98 {}).run {} =
        (.ok scatteredLayout, after) ∧
      scatteredLayout.IsGreedy scatteredHeader.declarations 0x98 ∧
      scatteredLayout.owner? 0x87 = some .link ∧
      after.diagnostics = [⟨.warning, "header", "type_ids section 0x74..0x7c" ++ reason⟩] := by
  have hrun : ∃ after, (Layout.ofHeader scatteredHeader 0x98 {}).run {} =
      (.ok scatteredLayout, after) := ⟨_, rfl⟩
  obtain ⟨after, hrun⟩ := hrun
  obtain ⟨hgreedy, -, howner, reason, hdiagnostics⟩ := Layout.isGreedy_of_run hrun
  have homitted : scatteredLayout.omitted scatteredHeader.declarations =
      [⟨.table .types, "type_ids", ⟨2, 0x74⟩, 4⟩] := rfl
  have htitle : Declaration.title ⟨.table .types, "type_ids", ⟨2, 0x74⟩, 4⟩ =
      "type_ids section 0x74..0x7c" := by
    decide +kernel
  rw [homitted, List.map_singleton, htitle] at hdiagnostics
  exact ⟨after, _, hrun, hgreedy,
    (howner _ _).mpr ⟨⟨0x84, 0x88⟩, rfl, by decide, by decide⟩, hdiagnostics⟩

end Contents

end Dalvik
