import Dalvik.Proofs.GreedyLayout

/-!
# Notes about overlaps

A section is compared with those that are laid out, and not with those that were left out before it.
An overlap of two sections is therefore noted just when the earlier of them is laid out; if it is
not, only its own overlap with a third one is noted.
-/

namespace Dalvik

variable {header : Header} {length : Nat} {layout : Layout} {first second : Section}

namespace Section

theorem mem_all (block : Section) : block ∈ all := by
  cases block with
  | table table => cases table <;> decide
  | header | data | link => decide

theorem notMem_earlier_of_mem (h : first ∈ second.earlier) : second ∉ first.earlier := by
  have hall : ∀ first ∈ all, ∀ second ∈ all, first ∈ second.earlier → second ∉ first.earlier := by
    decide
  exact hall first (mem_all first) second (mem_all second) h

theorem ne_of_mem_earlier (h : first ∈ second.earlier) : first ≠ second := by
  rintro rfl
  exact notMem_earlier_of_mem h h

theorem ne_header_of_mem_earlier (h : first ∈ second.earlier) : second ≠ .header := by
  rintro rfl
  exact absurd h (by decide +revert)

end Section

/-- The sections that an anomaly says overlap. -/
def Anomaly.overlapping : Anomaly → List Section
  | overlap block _ _ others => block :: others
  | _ => []

/-- A section that takes up bytes of an input. The header always does. -/
def Header.Occupies (header : Header) (length : Nat) (block : Section) : Prop :=
  block = .header ∨ header.amount block ≠ 0 ∧ (header.span block).stop ≤ length

namespace Layout

/-- What is noted of a section tells of no overlap but with sections that are laid out earlier. -/
theorem mem_overlapping_objection
    (h : first ∈ ((layout.before second).objection header length second).overlapping) :
    first = second ∨ first ∈ layout.blocks ∧ first ∈ second.earlier := by
  unfold objection at h
  dsimp only at h
  split at h
  · cases h
  · refine (List.mem_cons.mp h).imp_right fun hother => ?_
    obtain ⟨extent, hextent, rfl⟩ := List.mem_map.mp hother
    exact mem_blocks_before.mp (mem_blocks.mpr ⟨extent, (List.mem_filter.mp hextent).1, rfl⟩)

theorem mem_leftOut {block : Section} (hne : block ≠ .header) (hamount : header.amount block ≠ 0)
    (hout : block ∉ layout.blocks) : block ∈ layout.leftOut header := by
  obtain ⟨before, later, horder⟩ := Section.exists_order_eq hne
  refine List.mem_filter.mpr ⟨?_, decide_eq_true ⟨hamount, hout⟩⟩
  rw [horder]
  exact List.mem_append_right _ List.mem_cons_self

/-- A section that is left out although it lies within the input is said to overlap others. -/
theorem overlapping_objection (hle : (header.span second).stop ≤ length) :
    (layout.objection header length second).overlapping = second ::
      (layout.extents.filter fun extent => ¬extent.span.Disjoint (header.span second)).map
        Extent.block := by
  unfold objection
  dsimp only
  rw [if_neg (Nat.not_lt.mpr hle), Anomaly.overlapping]

theorem mem_objections {note : Anomaly} :
    note ∈ layout.objections header length ↔ ∃ block ∈ layout.leftOut header,
      (layout.before block).objection header length block = note :=
  List.mem_map

theorem objection_mem_objections {block : Section} (h : block ∈ layout.leftOut header) :
    (layout.before block).objection header length block ∈ layout.objections header length :=
  mem_objections.mpr ⟨block, h, rfl⟩

/-- An overlap is noted just when the earlier section is laid out. -/
theorem Fills.exists_objection_iff (h : layout.Fills header length)
    (hearlier : first ∈ second.earlier) (hoccupies : header.Occupies length second)
    (hshare : ¬(header.span first).Disjoint (header.span second)) :
    (∃ note ∈ layout.objections header length,
      first ∈ note.overlapping ∧ second ∈ note.overlapping) ↔ first ∈ layout.blocks := by
  have hne := Section.ne_header_of_mem_earlier hearlier
  obtain ⟨hamount, hle⟩ := hoccupies.resolve_left hne
  constructor
  · rintro ⟨note, hnote, hfirst, hsecond⟩
    obtain ⟨block, -, rfl⟩ := mem_objections.mp hnote
    rcases mem_overlapping_objection hfirst with rfl | ⟨hlaid, -⟩
    · -- A note about the first section cannot name the second, which comes up later.
      rcases mem_overlapping_objection hsecond with heq | ⟨-, hlater⟩
      · exact (Section.ne_of_mem_earlier hearlier heq.symm).elim
      · exact (Section.notMem_earlier_of_mem hearlier hlater).elim
    · exact hlaid
  · intro hlaid
    have hout : second ∉ layout.blocks := fun hmem =>
      hshare (((h.mem_blocks_iff second hne).mp hmem).2.2 first hearlier hlaid)
    refine ⟨_, objection_mem_objections (mem_leftOut hne hamount hout), ?_⟩
    obtain ⟨extent, hextent, rfl⟩ := mem_blocks.mp (mem_blocks_before.mpr ⟨hlaid, hearlier⟩)
    have hspan := h.span_eq extent (List.mem_filter.mp hextent).1
    rw [overlapping_objection hle]
    refine ⟨List.mem_cons_of_mem _ (List.mem_map.mpr ⟨extent, ?_, rfl⟩), List.mem_cons_self⟩
    exact List.mem_filter.mpr ⟨hextent, decide_eq_true (hspan ▸ hshare)⟩

/-- The earlier section of an overlap is said to overlap something, be it laid out or not. -/
theorem Fills.exists_objection (h : layout.Fills header length)
    (hearlier : first ∈ second.earlier) (hfirst : header.Occupies length first)
    (hsecond : header.Occupies length second)
    (hshare : ¬(header.span first).Disjoint (header.span second)) :
    ∃ note ∈ layout.objections header length, first ∈ note.overlapping := by
  by_cases hlaid : first ∈ layout.blocks
  · obtain ⟨note, hnote, hnamed, -⟩ := (h.exists_objection_iff hearlier hsecond hshare).mpr hlaid
    exact ⟨note, hnote, hnamed⟩
  · have hne : first ≠ .header := by
      rintro rfl
      exact hlaid h.header_mem_blocks
    obtain ⟨hamount, hle⟩ := hfirst.resolve_left hne
    refine ⟨_, objection_mem_objections (mem_leftOut hne hamount hlaid), ?_⟩
    rw [overlapping_objection hle]
    exact List.mem_cons_self

/-- Of two sections within the input that share a byte, a warning says that they overlap just when
the earlier of them is laid out. Either way the earlier one is said to overlap something. -/
theorem overlap_noted_iff {options : Options} {journal after : Journal}
    (h : (ofHeader header length options).run journal = (.ok layout, after))
    (hearlier : first ∈ second.earlier) (hfirst : header.Occupies length first)
    (hsecond : header.Occupies length second)
    (hshare : ¬(header.span first).Disjoint (header.span second)) :
    after.diagnostics =
      journal.diagnostics ++ (layout.objections header length).map Anomaly.warning ∧
    ((∃ note ∈ layout.objections header length,
      first ∈ note.overlapping ∧ second ∈ note.overlapping) ↔ first ∈ layout.blocks) ∧
    ∃ note ∈ layout.objections header length, first ∈ note.overlapping := by
  obtain ⟨rfl, hdiagnostics⟩ := of_run_ofHeader h
  have hfills := fills_placed header length
  exact ⟨hdiagnostics, hfills.exists_objection_iff hearlier hsecond hshare,
    hfills.exists_objection hearlier hfirst hsecond hshare⟩

end Layout

namespace Contents

/-- The header of an empty file, but for three tables. The second overlaps the first, the third
overlaps the second. -/
def crowdedHeader : Header :=
  { ({} : Contents).headerWith 0 (Vector.replicate 20 0) with
    stringIds := ⟨2, 0x70⟩, typeIds := ⟨2, 0x74⟩, protoIds := ⟨1, 0x78⟩ }

/-- The layout of the crowded header over a file that ends with the third table. -/
def crowdedLayout : Layout where
  extents := [⟨.header, ⟨0, 0x70⟩⟩, ⟨.table .strings, ⟨0x70, 0x78⟩⟩, ⟨.table .protos, ⟨0x78, 0x84⟩⟩]

theorem run_crowdedHeader :
    ∃ after, (Layout.ofHeader crowdedHeader 0x84 {}).run {} = (.ok crowdedLayout, after) := by
  exact ⟨_, rfl⟩

/-- The first two tables of the crowded header overlap, and a warning says so. -/
theorem overlap_noted_crowdedHeader :
    ∃ note ∈ crowdedLayout.objections crowdedHeader 0x84,
      .table .strings ∈ note.overlapping ∧ .table .types ∈ note.overlapping := by
  obtain ⟨after, hrun⟩ := run_crowdedHeader
  have hmem : .table .strings ∈ crowdedLayout.blocks := by decide
  exact (Layout.overlap_noted_iff hrun (by decide +kernel) (.inr (by decide)) (.inr (by decide))
    (by decide)).2.1.mpr hmem

/-- The second table overlaps the third as well, and no warning says so. -/
theorem overlap_unnoted_crowdedHeader :
    ∃ after, (Layout.ofHeader crowdedHeader 0x84 {}).run {} = (.ok crowdedLayout, after) ∧
      crowdedHeader.Occupies 0x84 (.table .types) ∧ crowdedHeader.Occupies 0x84 (.table .protos) ∧
      ¬(crowdedHeader.span (.table .types)).Disjoint (crowdedHeader.span (.table .protos)) ∧
      after.diagnostics =
        [⟨.warning, "header", "type_ids section 0x74..0x7c overlaps string_ids"⟩] ∧
      ∀ note ∈ crowdedLayout.objections crowdedHeader 0x84, .table .protos ∉ note.overlapping := by
  obtain ⟨after, hrun⟩ := run_crowdedHeader
  have hobjections : crowdedLayout.objections crowdedHeader 0x84 =
      [.overlap (.table .types) 0x74 0x7c [.table .strings]] := by
    decide +kernel
  refine ⟨after, hrun, .inr (by decide), .inr (by decide), by decide, ?_, ?_⟩
  · rw [(Layout.of_run_ofHeader hrun).2, hobjections]
    rfl
  · rw [hobjections]
    decide

end Contents

end Dalvik
