import Dalvik.Proofs.Notes
import Dalvik.Proofs.Strictness

/-!
# What the checks of the header note

A load that is not strict notes every statement of the header that the input contradicts, and any
load notes an unknown version and the sections that overlap. Where the header stops a load, no place
is named.
-/

namespace Dalvik

variable {input : Bytes} {options : Options}

/-- A failure of the header. Only a strict load fails for the integrity of the input. -/
structure Failure.OfHeader (failure : Failure) (options : Options) : Prop where
  contexts : failure.contexts = []
  kind : failure.kind ∈ [.truncated, .invalidHeader] ∨
    failure.kind = .integrity ∧ options.strict = true

theorem Failure.ofHeader_truncated {fault : Fault} (h : fault.kind = .truncated) :
    Failure.OfHeader { fault } options :=
  ⟨rfl, .inl (List.mem_cons.mpr (.inl h))⟩

theorem Failure.ofHeader_invalidHeader {fault : Fault} (h : fault.kind = .invalidHeader) :
    Failure.OfHeader { fault } options :=
  ⟨rfl, .inl (List.mem_cons.mpr (.inr (List.mem_singleton.mpr h)))⟩

theorem Failure.ofHeader_contradicted (hstrict : options.strict = true)
    (statement : Contradiction) :
    Failure.OfHeader { fault := .contradicted statement } options := by
  cases statement with
  | headerSize | fileSize => exact ofHeader_invalidHeader rfl
  | checksum | signature => exact ⟨rfl, .inr ⟨rfl, hstrict⟩⟩
  | blockPastEnd => exact ofHeader_truncated rfl

/-! ## Reading the header -/

namespace Header

open Decode

theorem silent_readPlacement : readPlacement.Silent input (Failure.LacksBytesOr []) :=
  silent_word.bind fun _ => silent_word.bind fun _ => silent_pure _

theorem silent_readFields : readFields.Silent input (Failure.LacksBytesOr []) :=
  (silent_block 8).bind fun _ => silent_word.bind fun _ => (silent_block 20).bind fun _ =>
    silent_word.bind fun _ => silent_word.bind fun _ => silent_word.bind fun _ =>
      silent_readPlacement.bind fun _ => silent_word.bind fun _ =>
        silent_readPlacement.bind fun _ => silent_readPlacement.bind fun _ =>
          silent_readPlacement.bind fun _ => silent_readPlacement.bind fun _ =>
            silent_readPlacement.bind fun _ => silent_readPlacement.bind fun _ =>
              silent_readPlacement.bind fun _ => silent_pure _

theorem silent_check (header : Header) :
    header.check.Silent input (Failure.OfHeader · options) := by
  apply silent_of_run
  intro pos
  cases hrefusal : header.refusal? with
  | none =>
      refine .inl ⟨(), pos, fun journal => ?_⟩
      rw [run_check, hrefusal]
      rfl
  | some fault =>
      refine .inr ⟨{ fault }, pos,
        Failure.ofHeader_invalidHeader (kind_of_refusal?_eq_some hrefusal), fun journal => ?_⟩
      rw [run_check, hrefusal]
      rfl

/-- Where there are bytes enough, all that can be wrong with a header is what it says. -/
theorem silent_read : Header.read.Silent input (Failure.OfHeader · options) := by
  refine (notes_length.bind_of_noted fun length _ hlength => Notes.ite
    (fun _ => notes_fail (Failure.ofHeader_truncated rfl)) fun hle => Silent.bind ?_ fun header =>
      (silent_check header).bind fun _ => silent_pure header).imp (fun _ => id) ?_
  · obtain ⟨rfl, -⟩ := hlength
    obtain ⟨header, hheader⟩ := exists_encode (Nat.le_of_not_lt hle)
    exact (silent_readFields.atOffset 0).of_reads (reads_readFields.atOffset 0)
      fun _ => ⟨header, Nat.zero_le _, hheader⟩
  · rintro _ _ ⟨_, _, _, ⟨-, rfl⟩, rfl, rfl⟩
    rfl

end Header

/-! ## Comparing the header with the input -/

namespace Reporting

theorem notes_contradict (options : Options) (statement : Contradiction) :
    (contradict options statement).Notes (Failure.OfHeader · options)
      fun _ anomalies => anomalies = [.contradicted statement] := by
  cases hstrict : options.strict with
  | true =>
      rw [contradict, if_pos hstrict]
      exact notes_fail (Failure.ofHeader_contradicted hstrict statement)
  | false =>
      rw [contradict, if_neg (by simp [hstrict])]
      exact notes_warn _

variable {rest : Reporting Unit} {cause : Failure → Prop} {list : List Anomaly}

theorem notes_warnIf (hrest : rest.Notes cause fun _ anomalies => anomalies = list) (c : Prop)
    [Decidable c] (anomaly : Anomaly) :
    Notes (if c then do
        warn anomaly
        rest
      else rest) cause fun _ anomalies => anomalies = (if c then [anomaly] else []) ++ list := by
  split
  · refine ((notes_warn anomaly).bind fun _ => hrest).imp (fun _ => id) ?_
    rintro _ _ ⟨_, _, _, rfl, rfl, rfl⟩
    rfl
  · exact hrest

/-- What is held against the header on a condition is noted on that condition. -/
theorem notes_contradictIf
    (hrest : rest.Notes (Failure.OfHeader · options) fun _ anomalies => anomalies = list) (c : Prop)
    [Decidable c] (statement : Contradiction) :
    Notes (if c then do
        contradict options statement
        rest
      else rest) (Failure.OfHeader · options) fun _ anomalies =>
        anomalies = (statement.when c).map .contradicted ++ list := by
  by_cases hc : c
  · simp only [Contradiction.when, if_pos hc]
    refine ((notes_contradict options statement).bind fun _ => hrest).imp (fun _ => id) ?_
    rintro _ _ ⟨_, _, _, rfl, rfl, rfl⟩
    rfl
  · simp only [Contradiction.when, if_neg hc]
    exact hrest

/-- The same for a statement that is looked at only if the options ask for it. -/
theorem notes_contradictIfAsked
    (hrest : rest.Notes (Failure.OfHeader · options) fun _ anomalies => anomalies = list)
    (asked : Bool) (c : Prop) [Decidable c] (statement : Contradiction) :
    Notes (if asked then
        if c then do
          contradict options statement
          rest
        else rest
      else rest) (Failure.OfHeader · options) fun _ anomalies =>
        anomalies = (statement.when (asked ∧ c)).map .contradicted ++ list := by
  cases asked with
  | true =>
      simp only [if_true, true_and]
      exact notes_contradictIf hrest c statement
  | false =>
      simp only [Bool.false_eq_true, if_false, false_and, Contradiction.when]
      exact hrest

end Reporting

namespace Header

open Reporting

/-- What is odd about a version, which is that it is unknown. -/
def versionAnomalies (header : Header) : List Anomaly :=
  if !isKnownVersion header.version then [.unknownVersion header.version] else []

theorem notes_checkAgainst (header : Header) (input : Bytes) (options : Options) :
    (header.checkAgainst input options).Notes (Failure.OfHeader · options) fun _ anomalies =>
      anomalies = header.versionAnomalies ++
        (header.misstatements input options).map .contradicted := by
  -- The checks from the last to the first, each with everything that follows it.
  have hrecord : Notes (record (.headerAccepted header.version (header.count .strings)
      (header.count .types) (header.count .classes))) (Failure.OfHeader · options)
      fun _ anomalies => anomalies = [] :=
    notes_record (LogLine.isTransition_headerAccepted _ _ _ _)
  have hsignature := notes_contradictIfAsked hrecord options.compareSignature
    (computedSignature input ≠ header.signature.toList) (.signature header.signature.toList)
  have hchecksum := notes_contradictIfAsked hsignature options.compareChecksum
    (computedChecksum input ≠ header.checksum) (.checksum header.checksum (computedChecksum input))
  have hfileSize := notes_contradictIf hchecksum (header.fileSize.toNat ≠ input.size)
    (.fileSize header.fileSize input.size)
  have hheaderSize := notes_contradictIf hfileSize (header.headerSize.toNat ≠ headerLength)
    (.headerSize header.headerSize)
  refine (notes_warnIf hheaderSize (!isKnownVersion header.version)
    (.unknownVersion header.version)).imp (fun _ => id) ?_
  rintro _ _ rfl
  simp [misstatements_eq, versionAnomalies]

end Header

/-! ## Laying out the sections -/

namespace Layout

open Reporting

/-- What is odd about an extent that is added to a layout. -/
def conflicts (layout : Layout) (extent : Extent) : List Anomaly :=
  match layout.overlapping extent.span with
  | [] => []
  | others => [.overlap extent.block extent.span.start extent.span.stop others]

/-- What is odd about a section of a header that is added to a layout. -/
def sectionAnomalies (header : Header) (length : Nat) (layout : Layout) (block : Section) :
    List Anomaly :=
  let span := header.span block
  if span.start = span.stop then []
  else if length < span.stop then (header.overrun length block).map .contradicted
  else layout.conflicts ⟨block, span⟩

/-- What is odd about some sections of a header that are added to a layout in their order. -/
def anomalies (header : Header) (length : Nat) : List Section → Layout → List Anomaly
  | [], _ => []
  | block :: blocks, layout =>
    sectionAnomalies header length layout block ++
      anomalies header length blocks (addSection header length layout block)

theorem notes_place {cause : Failure → Prop} (layout : Layout) (extent : Extent) :
    (layout.place extent).Notes cause fun after anomalies =>
      after = layout.add extent ∧ anomalies = layout.conflicts extent := by
  unfold place add conflicts
  cases hothers : layout.overlapping extent.span with
  | nil => exact notes_pure _
  | cons first others =>
      refine ((notes_warn _).bind fun _ => notes_pure layout).imp (fun _ => id) ?_
      rintro _ _ ⟨_, _, _, rfl, ⟨rfl, rfl⟩, rfl⟩
      exact ⟨by simp, rfl⟩

theorem notes_placeSection (header : Header) (length : Nat) (options : Options) (layout : Layout)
    (block : Section) :
    (placeSection header length options layout block).Notes (Failure.OfHeader · options)
      fun after anomalies => after = addSection header length layout block ∧
        anomalies = sectionAnomalies header length layout block := by
  unfold placeSection addSection sectionAnomalies
  by_cases hempty : (header.span block).start = (header.span block).stop
  · simp only [hempty, if_true, true_or]
    exact notes_pure layout
  · by_cases hlt : length < (header.span block).stop
    · simp only [hempty, hlt, if_true, if_false, or_true]
      cases block with
      | table table => exact notes_fail (Failure.ofHeader_truncated rfl)
      | header | data | link =>
          refine ((notes_contradict options _).bind fun _ => notes_pure layout).imp (fun _ => id) ?_
          rintro _ _ ⟨_, _, _, rfl, ⟨rfl, rfl⟩, rfl⟩
          exact ⟨rfl, by simp [Header.overrun, Contradiction.when, hempty, hlt]⟩
    · simp only [hempty, hlt, if_false, or_self]
      exact notes_place layout _

theorem notes_foldlM_placeSection (header : Header) (length : Nat) (options : Options)
    (blocks : List Section) (layout : Layout) :
    (blocks.foldlM (placeSection header length options) layout).Notes (Failure.OfHeader · options)
      fun _ found => found = anomalies header length blocks layout := by
  induction blocks generalizing layout with
  | nil => exact (notes_pure layout).imp (fun _ => id) fun _ _ h => h.2
  | cons block blocks ih =>
      rw [List.foldlM_cons]
      refine ((notes_placeSection header length options layout block).bind ih).imp (fun _ => id) ?_
      rintro _ _ ⟨_, _, _, ⟨rfl, rfl⟩, rfl, rfl⟩
      rfl

end Layout

/-! ## The header of a file -/

/-- What is odd about the header of an input, in the order in which it is noted. -/
def Header.anomalies (header : Header) (input : Bytes) (options : Options) : List Anomaly :=
  header.versionAnomalies ++ (header.misstatements input options).map .contradicted ++
    Layout.anomalies header input.size Layout.order ⟨[⟨.header, header.span .header⟩]⟩

theorem Layout.notes_ofHeader (header : Header) (length : Nat) (options : Options) :
    (ofHeader header length options).Notes (Failure.OfHeader · options) fun _ found =>
      found = anomalies header length order ⟨[⟨.header, header.span .header⟩]⟩ :=
  notes_foldlM_placeSection header length options order _

theorem Layout.part_conflicts {layout : Layout} {extent : Extent} {anomaly : Anomaly}
    (h : anomaly ∈ layout.conflicts extent) : anomaly.part = "header" := by
  unfold conflicts at h
  split at h
  · cases h
  · rw [List.mem_singleton.mp h]
    rfl

theorem Layout.part_sectionAnomalies {header : Header} {length : Nat} {layout : Layout}
    {block : Section} {anomaly : Anomaly}
    (h : anomaly ∈ sectionAnomalies header length layout block) : anomaly.part = "header" := by
  simp only [sectionAnomalies] at h
  split at h
  · cases h
  · split at h
    · obtain ⟨statement, -, rfl⟩ := List.mem_map.mp h
      rfl
    · exact part_conflicts h

theorem Layout.part_anomalies {header : Header} {length : Nat} {blocks : List Section}
    {layout : Layout} {anomaly : Anomaly} (h : anomaly ∈ anomalies header length blocks layout) :
    anomaly.part = "header" := by
  induction blocks generalizing layout with
  | nil => cases h
  | cons block blocks ih =>
      rcases List.mem_append.mp h with hsection | hrest
      · exact part_sectionAnomalies hsection
      · exact ih hrest

theorem Header.part_anomalies {header : Header} {anomaly : Anomaly}
    (h : anomaly ∈ header.anomalies input options) : anomaly.part = "header" := by
  rw [anomalies, List.append_assoc, List.mem_append, List.mem_append] at h
  rcases h with hversion | hstatement | hlayout
  · unfold versionAnomalies at hversion
    split at hversion
    · rw [List.mem_singleton.mp hversion]
      rfl
    · cases hversion
  · obtain ⟨statement, -, rfl⟩ := List.mem_map.mp hstatement
    rfl
  · exact Layout.part_anomalies hlayout

end Dalvik
