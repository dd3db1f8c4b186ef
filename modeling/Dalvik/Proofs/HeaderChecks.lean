import Dalvik.Proofs.HeaderReads

/-!
# Checking the header

When a header is accepted over an input, and which layout comes of it. Only a strict load looks at
more than the tables.
-/

namespace Dalvik

open Reporting

variable {input : Bytes}

theorem Reporting.yields_contradict (options : Options) (statement : Contradiction) :
    (contradict options statement).Yields fun _ => options.strict = false := by
  refine (Yields.ite (fun _ => yields_fail _) fun _ => yields_warn _).congr fun value => ?_
  cases options.strict <;> simp

/-- A condition that is held against the header only keeps a strict load from going on. -/
theorem Reporting.yields_contradictIf {α : Type} {spec : α → Prop} {rest : Reporting α}
    (hrest : rest.Yields spec) (options : Options) (c : Prop) [Decidable c]
    (statement : Contradiction) :
    Yields (if c then do
        contradict options statement
        rest
      else rest) fun value => (options.strict → ¬c) ∧ spec value := by
  refine (Yields.ite (fun _ => (yields_contradict options statement).bind fun _ => hrest)
    fun _ => hrest).congr fun value => ?_
  split
  next hc => simp [hc]
  next hc => simp [hc]

theorem Reporting.yields_warnIf {α : Type} {spec : α → Prop} {rest : Reporting α}
    (hrest : rest.Yields spec) (c : Prop) [Decidable c] (anomaly : Anomaly) :
    Yields (if c then do
        warn anomaly
        rest
      else rest) spec := by
  refine (Yields.ite (fun _ => (yields_warn anomaly).bind fun _ => hrest)
    fun _ => hrest).congr fun value => ?_
  simp

namespace Header

/-- What a strict load asks of a header besides its tables: what it says of its own size, of the
size of the file and, if they are looked at, of the checksum and the signature is true. The checksum
covers everything after itself, and so does the signature. -/
structure DescribesInput (header : Header) (input : Bytes) (options : Options) : Prop where
  headerSize : header.headerSize.toNat = 0x70
  fileSize : header.fileSize.toNat = input.size
  checksum : options.compareChecksum →
    Adler32.checksum (input.toList.drop 12) = header.checksum
  signature : options.compareSignature →
    Sha1.digest (input.toList.drop 32) = header.signature.toList

theorem yields_checkAgainst (header : Header) (input : Bytes) (options : Options) :
    (header.checkAgainst input options).Yields fun _ =>
      options.strict → header.DescribesInput input options := by
  -- The checks from the last to the first, each with everything that follows it.
  have hrecord := yields_record (.headerAccepted header.version (header.count .strings)
    (header.count .types) (header.count .classes))
  have hsignature := Yields.ite (c := options.compareSignature)
    (fun _ => yields_contradictIf hrecord options
      (computedSignature input ≠ header.signature.toList) (.signature header.signature.toList))
    fun _ => hrecord
  have hchecksum := Yields.ite (c := options.compareChecksum)
    (fun _ => yields_contradictIf hsignature options (computedChecksum input ≠ header.checksum)
      (.checksum header.checksum (computedChecksum input)))
    fun _ => hsignature
  have hfileSize := yields_contradictIf hchecksum options (header.fileSize.toNat ≠ input.size)
    (.fileSize header.fileSize input.size)
  have hheaderSize := yields_contradictIf hfileSize options
    (header.headerSize.toNat ≠ headerLength) (.headerSize header.headerSize)
  refine (yields_warnIf hheaderSize (!isKnownVersion header.version)
    (.unknownVersion header.version)).congr fun _ => ?_
  simp only [ne_eq, Decidable.not_not, headerLength, computedChecksum, computedSignature,
    checksumStart, signatureStart]
  constructor
  · rintro ⟨hheaderSize, hfileSize, hrest⟩ hstrict
    refine ⟨hheaderSize hstrict, hfileSize hstrict, ?_, ?_⟩ <;> grind
  · intro h
    have hchecksum := fun hstrict => (h hstrict).checksum
    have hsignature := fun hstrict => (h hstrict).signature
    exact ⟨fun hstrict => (h hstrict).headerSize, fun hstrict => (h hstrict).fileSize, by grind⟩

end Header

/-! ## Layout -/

namespace Layout

/-- The layout with an extent added, unless it overlaps others. -/
def add (layout : Layout) (extent : Extent) : Layout :=
  if layout.overlapping extent.span = [] then ⟨insertSorted extent layout.extents⟩ else layout

/-- The layout with a section of a header added, unless it is empty, overlaps others or does not end
within `length` bytes. -/
def addSection (header : Header) (length : Nat) (layout : Layout) (block : Section) : Layout :=
  let span := header.span block
  if span.start = span.stop ∨ length < span.stop then layout else layout.add ⟨block, span⟩

/-- The layout that a header gives an input of `length` bytes. -/
def placed (header : Header) (length : Nat) : Layout :=
  order.foldl (addSection header length) ⟨[⟨.header, header.span .header⟩]⟩

end Layout

/-- Whether a section keeps a load from going on: it may end past the input if it is empty, or if it
is no table and the load is not strict. -/
def Header.Admits (header : Header) (length : Nat) (options : Options) (block : Section) : Prop :=
  (header.span block).start = (header.span block).stop ∨ (header.span block).stop ≤ length ∨
    options.strict = false ∧ ∀ table, block ≠ .table table

namespace Layout

theorem yields_place (layout : Layout) (extent : Extent) :
    (layout.place extent).Yields fun after => after = layout.add extent := by
  unfold place add
  cases hothers : layout.overlapping extent.span with
  | nil => exact (yields_pure _).congr fun _ => by simp
  | cons first others =>
      refine ((yields_warn _).bind fun _ => yields_pure layout).congr fun after => ?_
      simp

theorem yields_placeSection (header : Header) (length : Nat) (options : Options) (layout : Layout)
    (block : Section) :
    (placeSection header length options layout block).Yields fun after =>
      header.Admits length options block ∧ after = addSection header length layout block := by
  refine (Yields.ite (fun _ => yields_pure layout) fun _ => Yields.ite (fun _ =>
    (?_ : Yields _ fun after =>
      (options.strict = false ∧ ∀ table, block ≠ .table table) ∧ after = layout))
    fun _ => yields_place layout ⟨block, header.span block⟩).congr fun after => ?_
  · -- A section past the end is refused at once if it is a table, and else contradicts the header.
    cases block with
    | table table => exact (yields_fail _).congr fun after => by simp
    | header | data | link =>
        refine ((yields_contradict options _).bind fun _ =>
          yields_pure layout).congr fun after => ?_
        simp
  · unfold Header.Admits addSection
    grind

theorem yields_foldlM_placeSection (header : Header) (length : Nat) (options : Options)
    (blocks : List Section) (layout : Layout) :
    (blocks.foldlM (placeSection header length options) layout).Yields fun after =>
      (∀ block ∈ blocks, header.Admits length options block) ∧
        after = blocks.foldl (addSection header length) layout := by
  induction blocks generalizing layout with
  | nil => exact (yields_pure layout).congr fun after => by simp
  | cons block blocks ih =>
      rw [List.foldlM_cons]
      refine ((yields_placeSection header length options layout block).bind fun middle =>
        ih middle).congr fun after => ?_
      rw [List.forall_mem_cons, List.foldl_cons]
      constructor
      · rintro ⟨_, ⟨hblock, rfl⟩, hblocks, rfl⟩
        exact ⟨⟨hblock, hblocks⟩, rfl⟩
      · rintro ⟨⟨hblock, hblocks⟩, rfl⟩
        exact ⟨_, ⟨hblock, rfl⟩, hblocks, rfl⟩

/-- A header lays its sections out in one way only, whatever the options. -/
theorem yields_ofHeader (header : Header) (length : Nat) (options : Options) :
    (ofHeader header length options).Yields fun layout =>
      (∀ block ∈ order, header.Admits length options block) ∧ layout = placed header length :=
  yields_foldlM_placeSection header length options order _

end Layout

end Dalvik
