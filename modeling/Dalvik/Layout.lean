import Dalvik.Header.Integrity

/-!
# Layout

Which section of a file each offset belongs to. Sections are laid out in a fixed order, and one that
overlaps a section already there is left out, so the ranges never overlap.
-/

namespace Dalvik

/-- A range of offsets, from `start` up to but not including `stop`. -/
structure Span where
  start : Nat
  stop : Nat
  deriving DecidableEq, Repr

namespace Span

def contains (span : Span) (offset : Nat) : Bool :=
  span.start ≤ offset && offset < span.stop

/-- Whether two ranges share an offset, if neither is empty. -/
def overlaps (first second : Span) : Bool :=
  first.start < second.stop && second.start < first.stop

end Span

/-- The bytes that the header claims for a section. -/
def Header.span (header : Header) : Section → Span
  | .header => ⟨0, headerLength⟩
  | .table table =>
    let start := header.offset table
    ⟨start, start + header.count table * table.itemSize⟩
  | .data =>
    let start := header.data.offset.toNat
    ⟨start, start + header.data.size.toNat⟩
  | .link =>
    let start := header.link.offset.toNat
    ⟨start, start + header.link.size.toNat⟩

/-- A section in its place. -/
structure Extent where
  block : Section
  span : Span
  deriving DecidableEq, Repr

/-- The sections of a file in ascending order. -/
structure Layout where
  extents : List Extent := []
  deriving DecidableEq, Repr

namespace Layout

/-- Puts an extent before the first that starts after it. As long as ranges are disjoint this is the
insertion of `rangemap`, which keeps its ranges in ascending order of their starts. It would merge
or cut ranges only where they touch with equal values or overlap, and neither occurs here. -/
def insertSorted (extent : Extent) : List Extent → List Extent
  | [] => [extent]
  | next :: rest =>
    if extent.span.start < next.span.start then extent :: next :: rest
    else next :: insertSorted extent rest

/-- The sections that overlap a range, in ascending order, as `rangemap` lists them: ranges that
share an offset, and not those that only touch. -/
def overlapping (layout : Layout) (span : Span) : List Section :=
  (layout.extents.filter fun extent => extent.span.overlaps span).map Extent.block

/-- Adds a section unless it overlaps others, which is reported. -/
def place (layout : Layout) (extent : Extent) : Reporting Layout := do
  match layout.overlapping extent.span with
  | [] => return ⟨insertSorted extent layout.extents⟩
  | others =>
    Reporting.warn (.overlap extent.block extent.span.start extent.span.stop others)
    return layout

/-- Adds what a header says of one section. An empty section is left out. A table has to end within
the input; any other section that does not is left out as a false statement of the header. -/
def placeSection (header : Header) (length : Nat) (options : Options) (layout : Layout)
    (block : Section) : Reporting Layout := do
  let span := header.span block
  if span.start = span.stop then return layout
  else if length < span.stop then
    match block with
    | .table table =>
      Reporting.fail (.tablePastEnd table span.start span.stop (header.count table) length)
    | _ =>
      Reporting.contradict options (.blockPastEnd block span.start span.stop length)
      return layout
  else layout.place ⟨block, span⟩

/-- The sections after the header, in the order in which they are laid out. -/
def order : List Section :=
  Section.all.tail

/-- Lays out the sections of a header over an input of `length` bytes. -/
def ofHeader (header : Header) (length : Nat) (options : Options) : Reporting Layout :=
  order.foldlM (placeSection header length options) ⟨[⟨.header, header.span .header⟩]⟩

/-- The section that an offset belongs to. -/
def owner? (layout : Layout) (offset : Nat) : Option Section :=
  (layout.extents.find? fun extent => extent.span.contains offset).map Extent.block

/-- The range of a section. -/
def span? (layout : Layout) (block : Section) : Option Span :=
  (layout.extents.find? fun extent => extent.block == block).map Extent.span

end Layout

end Dalvik
