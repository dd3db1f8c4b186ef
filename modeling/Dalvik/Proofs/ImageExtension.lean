import Dalvik.Proofs.PoolExtension
import Dalvik.Proofs.Acceptance

/-!
# Bytes after the end of a file

Appending bytes to an input can only cure a lack of bytes. What could be read without them is read
again, and what was wrong without them stays wrong.
-/

namespace Dalvik

open Decode

variable {input more : Bytes} {options : Options}

/-! ## Header and layout -/

namespace Header

theorem lasts_readPlacement : readPlacement.Lasts input more :=
  lasts_word.bind fun _ => lasts_word.bind fun _ => lasts_pure _

theorem lasts_readFields : readFields.Lasts input more :=
  (lasts_block 8).bind fun _ => lasts_word.bind fun _ => (lasts_block 20).bind fun _ =>
    lasts_word.bind fun _ => lasts_word.bind fun _ => lasts_word.bind fun _ =>
      lasts_readPlacement.bind fun _ => lasts_word.bind fun _ =>
        lasts_readPlacement.bind fun _ => lasts_readPlacement.bind fun _ =>
          lasts_readPlacement.bind fun _ => lasts_readPlacement.bind fun _ =>
            lasts_readPlacement.bind fun _ => lasts_readPlacement.bind fun _ =>
              lasts_readPlacement.bind fun _ => lasts_pure _

theorem lasts_check (header : Header) : header.check.Lasts input more := by
  apply Lasts.ite
  · exact fun _ => lasts_fail _
  intro _
  apply Lasts.ite
  · exact fun _ => lasts_pure ()
  intro _
  apply Lasts.ite
  · exact fun _ => lasts_fail _
  · exact fun _ => lasts_fail _

theorem lasts_read : Header.read.Lasts input more := by
  apply persists_length.bind
  intro length lengthLong hle
  apply Persists.guard
  · exact persists_of_truncated fun _ => ⟨_, rfl, rfl⟩
  · omega
  · exact fun _ => Lasts.bind (lasts_readFields.atOffset 0) fun header =>
      header.lasts_check.bind fun _ => lasts_pure header

/-- A load that is not strict accepts any header over any input. -/
theorem persists_checkAgainst (header : Header) (hstrict : options.strict = false) :
    Reporting.Persists (· = ·) (header.checkAgainst input options)
      (header.checkAgainst (input ++ more) options) := by
  have hany : ∀ {p : Prop}, options.strict → p := fun h => by simp [hstrict] at h
  apply Reporting.persists_of_yields (header.yields_checkAgainst input options)
    (header.yields_checkAgainst (input ++ more) options)
  · exact ⟨(), hany⟩
  · exact ⟨(), hany⟩
  · exact fun _ _ _ _ => rfl

theorem Admits.mono {header : Header} {length lengthLong : Nat} {block : Section}
    (h : header.Admits length options block) (hle : length ≤ lengthLong) :
    header.Admits lengthLong options block := by
  rcases h with hempty | hfits | hblock
  · exact .inl hempty
  · exact .inr (.inl (Nat.le_trans hfits hle))
  · exact .inr (.inr hblock)

end Header

namespace Layout

variable {length lengthLong : Nat}

/-- Without strictness, only a table that ends past the input keeps a section from its place. The
layouts on the two inputs need not be the same. -/
theorem persists_placeSection (header : Header) (hle : length ≤ lengthLong)
    (hstrict : options.strict = false) (layout layoutLong : Layout) (block : Section) :
    Reporting.Persists (fun _ _ => True) (placeSection header length options layout block)
      (placeSection header lengthLong options layoutLong block) := by
  by_cases hadmits : header.Admits length options block
  · apply Reporting.persists_of_yields
      (yields_placeSection header length options layout block)
      (yields_placeSection header lengthLong options layoutLong block)
    · exact ⟨_, hadmits, rfl⟩
    · exact ⟨_, hadmits.mono hle, rfl⟩
    · exact fun _ _ _ _ => trivial
  · have hne : (header.span block).start ≠ (header.span block).stop := fun hempty =>
      hadmits (.inl hempty)
    have hlt : ¬(header.span block).stop ≤ length := fun hfits => hadmits (.inr (.inl hfits))
    cases block with
    | table table =>
        rw [placeSection, if_neg hne, if_pos (Nat.lt_of_not_le hlt)]
        exact Reporting.persists_fail_of_truncated rfl _
    | header | data | link => exact (hadmits (.inr (.inr ⟨hstrict, by simp⟩))).elim

theorem persists_foldlM_placeSection (header : Header) (hle : length ≤ lengthLong)
    (hstrict : options.strict = false) (blocks : List Section) (layout layoutLong : Layout) :
    Reporting.Persists (fun _ _ => True)
      (blocks.foldlM (placeSection header length options) layout)
      (blocks.foldlM (placeSection header lengthLong options) layoutLong) := by
  induction blocks generalizing layout layoutLong with
  | nil => exact Reporting.persists_pure trivial
  | cons block blocks ih =>
      rw [List.foldlM_cons, List.foldlM_cons]
      apply (persists_placeSection header hle hstrict layout layoutLong block).bind
      exact fun _ _ _ => ih _ _

end Layout

/-! ## Loads -/

/-- Two images that differ at most in what depends on the length of the input: the input itself, the
layout and what was noted. -/
structure Image.SameContents (first second : Image) : Prop where
  header : first.header = second.header
  strings : first.strings = second.strings
  types : first.types = second.types
  protos : first.protos = second.protos
  fields : first.fields = second.fields
  methods : first.methods = second.methods
  classes : first.classes = second.classes

namespace Load

variable {α β γ δ : Type}

/-- As for decoding steps: the result of a step on an input continues to that of another step on the
longer input. -/
def Persists (input more : Bytes) (related : α → β → Prop) (short : Load α) (long : Load β) :
    Prop :=
  Effect.Persists (fun progress other : Progress => progress.scan.pos = other.scan.pos) related
    (run short input) (run long (input ++ more))

variable {related : α → β → Prop} {relatedNext : γ → δ → Prop}

theorem Persists.bind {short : Load α} {long : Load β} {shortNext : α → Load γ}
    {longNext : β → Load δ} (hstep : Persists input more related short long)
    (hnext : ∀ a b, related a b → Persists input more relatedNext (shortNext a) (longNext b)) :
    Persists input more relatedNext (short >>= shortNext) (long >>= longNext) := by
  rw [Persists, run_bind_eq_andThen, run_bind_eq_andThen]
  exact Effect.Persists.bind hstep hnext

theorem persists_liftDecode {short : Decode α} {long : Decode β}
    (h : Decode.Persists input more related short long) :
    Persists input more related (liftM short) (liftM long) :=
  fun progress other hpos => h progress.scan other.scan hpos

theorem persists_liftReporting {short : Reporting α} {long : Reporting β}
    (h : Reporting.Persists related short long) :
    Persists input more related (liftM short) (liftM long) :=
  persists_liftDecode (Decode.persists_liftReporting h)

/-- What follows a step that ends with the same value on the longer input. -/
theorem persists_bind_of_lasts {step : Decode α} {short : α → Load γ} {long : α → Load δ}
    (hstep : step.Lasts input more)
    (hnext : ∀ a, Persists input more relatedNext (short a) (long a)) :
    Persists input more relatedNext (liftM step >>= short) (liftM step >>= long) := by
  apply (persists_liftDecode hstep).bind
  rintro a _ rfl
  exact hnext a

theorem persists_read : Persists input more (fun short long => short = input ∧ long = input ++ more)
    (read : Load Bytes) (read : Load Bytes) := fun _ _ hpos => .value ⟨⟨rfl, rfl⟩, hpos⟩

theorem persists_complete (stage : Stage) :
    Persists input more (fun _ _ => True) (complete stage) (complete stage) :=
  fun _ _ hpos => .value ⟨trivial, hpos⟩

theorem persists_checkSize (h : (input ++ more).size ≤ options.inputLimit) :
    Persists input more (· = ·) (checkSize options) (checkSize options) := by
  intro progress other hpos
  have hshort := Nat.le_trans (Bytes.size_le_append input more) h
  rw [run_checkSize_of_le hshort, run_checkSize_of_le h]
  exact .value ⟨rfl, hpos⟩

theorem persists_finish (event : Progress → Event) (found foundLong : Image)
    (h : foundLong.SameContents found) :
    Persists input more (fun short long => long.SameContents short)
      (do
        let noted ← progress
        Reporting.record (event noted)
        let last ← progress
        return { found with journal := last.scan.journal })
      (do
        let noted ← progress
        Reporting.record (event noted)
        let last ← progress
        return { foundLong with journal := last.scan.journal }) :=
  fun _ _ hpos => .value
    ⟨⟨h.header, h.strings, h.types, h.protos, h.fields, h.methods, h.classes⟩, hpos⟩

theorem persists_image (hstrict : options.strict = false)
    (hlimit : (input ++ more).size ≤ options.inputLimit) :
    Persists input more (fun short long => long.SameContents short)
      (image options) (image options) := by
  apply (persists_checkSize hlimit).bind
  intro _ _ _
  apply persists_read.bind
  rintro input _ ⟨rfl, rfl⟩
  apply persists_bind_of_lasts Header.lasts_read
  intro header
  apply (persists_liftReporting (header.persists_checkAgainst hstrict)).bind
  intro _ _ _
  apply (persists_liftReporting (Layout.persists_foldlM_placeSection header
    (Bytes.size_le_append input more) hstrict Layout.order _ _)).bind
  intro layout layoutLong _
  apply (persists_complete _).bind
  intro _ _ _
  apply persists_bind_of_lasts (Pool.Strings.lasts_read _ _)
  intro strings
  apply (persists_complete _).bind
  intro _ _ _
  apply persists_bind_of_lasts (Pool.Types.lasts_read strings _ _ _)
  intro types
  apply (persists_complete _).bind
  intro _ _ _
  apply persists_bind_of_lasts
    (Pool.References.lasts_read (ProtoItem.lasts_readAt strings types) _ _ _)
  intro protos
  apply (persists_complete _).bind
  intro _ _ _
  apply persists_bind_of_lasts
    (Pool.References.lasts_read (FieldItem.lasts_readAt strings types) _ _ _)
  intro fields
  apply (persists_complete _).bind
  intro _ _ _
  apply persists_bind_of_lasts
    (Pool.References.lasts_read (MethodItem.lasts_readAt strings types protos) _ _ _)
  intro methods
  apply (persists_complete _).bind
  intro _ _ _
  apply persists_bind_of_lasts (Pool.Classes.lasts_read _ _ _)
  intro classes
  apply (persists_complete _).bind
  intro _ _ _
  exact persists_finish _
    { input, header, layout, strings, types, protos, fields, methods, classes, journal := {} }
    { input := input ++ more, header, layout := layoutLong, strings, types, protos, fields, methods
      classes, journal := {} }
    ⟨rfl, rfl, rfl, rfl, rfl, rfl, rfl⟩

end Load

/-- Bytes after the end of an input change nothing that was read without them, and no failure but
for lack of bytes. What can be read with them therefore has the same contents without them, unless
there are too few bytes. -/
theorem Image.read_append (hstrict : options.strict = false)
    (hlimit : (input ++ more).size ≤ options.inputLimit) :
    (∀ image, Image.read input options = .ok image →
      ∃ extended, Image.read (input ++ more) options = .ok extended ∧
        extended.SameContents image) ∧
    (∀ failure, Image.read input options = .error failure → failure.kind ≠ .truncated →
      Image.read (input ++ more) options = .error failure) ∧
    ∀ extended, Image.read (input ++ more) options = .ok extended →
      (∃ image, Image.read input options = .ok image ∧ extended.SameContents image) ∨
        ∃ failure, Image.read input options = .error failure ∧ failure.kind = .truncated := by
  have hread : ∀ input, Image.read input options = ((Load.image options).run input {}).1 :=
    fun _ => rfl
  have hcontinues := Load.persists_image hstrict hlimit {} {} rfl
  rw [← hread, ← hread] at hcontinues
  generalize Image.read input options = short at hcontinues ⊢
  generalize Image.read (input ++ more) options = long at hcontinues ⊢
  cases hcontinues with
  | @value image extended h =>
      refine ⟨?_, ?_, ?_⟩
      · rintro _ ⟨⟩
        exact ⟨extended, rfl, h.1⟩
      · rintro _ ⟨⟩
      · rintro _ ⟨⟩
        exact .inl ⟨image, rfl, h.1⟩
  | @truncated failure h _ =>
      refine ⟨?_, ?_, ?_⟩
      · rintro _ ⟨⟩
      · rintro _ ⟨⟩ hkind
        exact (hkind h).elim
      · intro _ _
        exact .inr ⟨failure, rfl, h⟩
  | failure failure =>
      refine ⟨?_, ?_, ?_⟩
      · rintro _ ⟨⟩
      · intro found hfound _
        exact hfound
      · rintro _ ⟨⟩

namespace Contents

/-- The sample with a byte after its end. -/
theorem read_append_sample :
    ({} : Options).strict = false ∧
      (sample.encode ++ #[0]).size ≤ ({} : Options).inputLimit ∧
      ∃ image extended, Image.read sample.encode {} = .ok image ∧
        Image.read (sample.encode ++ #[0]) {} = .ok extended ∧ extended.SameContents image := by
  have hsize : (sample.encode ++ #[0]).size = 286 := by
    rw [Array.size_append, size_encode, size_sample]
    rfl
  have hlimit : (sample.encode ++ #[0]).size ≤ ({} : Options).inputLimit := by
    rw [hsize]
    decide
  have hsample : 285 ≤ ({} : Options).inputLimit := by decide
  obtain ⟨journal, hread⟩ := (Image.read_eq_ok_iff _).mpr (storedIn_sample hsample)
  obtain ⟨extended, hextended, hsame⟩ := (Image.read_append rfl hlimit).1 _ hread
  exact ⟨rfl, hlimit, _, extended, hread, hextended, hsame⟩

end Contents

end Dalvik
