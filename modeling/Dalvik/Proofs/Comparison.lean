import Dalvik.Proofs.ImageReads
import Dalvik.Proofs.Notes
import Mathlib.Data.List.Forall2

/-!
# Two steps compared

Two steps agree if from the same place they both fail for the same reason, or both succeed with
values that are related; either way they end at the same place. What they note is not compared.
-/

namespace Dalvik

variable {α β γ δ : Type} {input : Bytes}

/-! ## Effects -/

/-- How two effects end that agree up to a key of the state. -/
inductive Effect.EndAlike {σ κ : Type} (key : σ → κ) (related : α → β → Prop) :
    Except Failure α × σ → Except Failure β × σ → Prop where
  | value {a : α} {b : β} {after other : σ} (h : related a b) (hkey : key after = key other) :
    EndAlike key related (.ok a, after) (.ok b, other)
  | failure {failure : Failure} {after other : σ} (hkey : key after = key other) :
    EndAlike key related (.error failure, after) (.error failure, other)

namespace Effect

variable {σ κ : Type} {key : σ → κ} {related : α → β → Prop} {relatedNext : γ → δ → Prop}

/-- Two effects that end alike from all states with the same key. -/
def Agree (key : σ → κ) (first : Effect σ α) (second : Effect σ β) (related : α → β → Prop) :
    Prop :=
  ∀ state other, key state = key other → EndAlike key related (first state) (second other)

theorem EndAlike.imp {relatedOther : α → β → Prop} {first : Except Failure α × σ}
    {second : Except Failure β × σ} (h : EndAlike key related first second)
    (hrelated : ∀ a b, related a b → relatedOther a b) :
    EndAlike key relatedOther first second := by
  cases h with
  | value h hkey => exact .value (hrelated _ _ h) hkey
  | failure hkey => exact .failure hkey

/-- Either both effects fail for one reason, or both end with values that are related. -/
theorem EndAlike.results {first : Except Failure α × σ} {second : Except Failure β × σ}
    (h : EndAlike key related first second) :
    (∃ failure, first.1 = .error failure ∧ second.1 = .error failure) ∨
      ∃ a b, first.1 = .ok a ∧ second.1 = .ok b ∧ related a b := by
  cases h with
  | value h => exact .inr ⟨_, _, rfl, rfl, h⟩
  | failure => exact .inl ⟨_, rfl, rfl⟩

theorem Agree.andThen {first : Effect σ α} {second : Effect σ β} {firstNext : α → Effect σ γ}
    {secondNext : β → Effect σ δ} (h : Agree key first second related)
    (hnext : ∀ a b, related a b → Agree key (firstNext a) (secondNext b) relatedNext) :
    Agree key (first.andThen firstNext) (second.andThen secondNext) relatedNext := by
  intro state other hstate
  have hends := h state other hstate
  unfold Effect.andThen
  generalize first state = firstEnd at hends
  generalize second other = secondEnd at hends
  cases hends with
  | value h hkey => exact hnext _ _ h _ _ hkey
  | failure hkey => exact .failure hkey

end Effect

/-! ## Decoding steps -/

namespace Decode

/-- Two steps that agree up to what they note. -/
def Agree (first : Decode α) (second : Decode β) (input : Bytes) (related : α → β → Prop) : Prop :=
  Effect.Agree Scan.pos (run first input) (run second input) related

variable {related : α → β → Prop} {relatedNext : γ → δ → Prop}

theorem Agree.imp {first : Decode α} {second : Decode β} {relatedOther : α → β → Prop}
    (h : first.Agree second input related) (hrelated : ∀ a b, related a b → relatedOther a b) :
    first.Agree second input relatedOther := fun state other hstate =>
  (h state other hstate).imp hrelated

/-- A step agrees with itself, as it never looks at what has been noted. -/
theorem Notes.agree {step : Decode α} {cause : Failure → Prop} {noted : α → List Anomaly → Prop}
    (h : step.Notes input cause noted) :
    step.Agree step input fun a b => a = b ∧ ∃ anomalies, noted a anomalies := by
  rintro ⟨pos, journal⟩ ⟨_, other⟩ ⟨⟩
  obtain ⟨result, next, added, hrun, hending⟩ := h pos
  rw [hrun, hrun]
  cases hending with
  | value h htells => exact .value ⟨rfl, _, h⟩ rfl
  | failure h htells => exact .failure rfl

theorem Notes.agree_eq {step : Decode α} {cause : Failure → Prop} {noted : α → List Anomaly → Prop}
    (h : step.Notes input cause noted) : step.Agree step input (· = ·) :=
  h.agree.imp fun _ _ h => h.1

theorem Agree.bind {first : Decode α} {second : Decode β} {firstNext : α → Decode γ}
    {secondNext : β → Decode δ} (h : first.Agree second input related)
    (hnext : ∀ a b, related a b → (firstNext a).Agree (secondNext b) input relatedNext) :
    (first >>= firstNext).Agree (second >>= secondNext) input relatedNext := by
  rw [Agree, run_bind_eq_andThen, run_bind_eq_andThen]
  exact Effect.Agree.andThen h hnext

/-- Steps that take no bytes and always end with the same value. -/
theorem agree_of_reads {first : Decode α} {second : Decode β} {a : α} {b : β}
    (hfirst : first.Reads input 0 fun _ value => value = a)
    (hsecond : second.Reads input 0 fun _ value => value = b) (h : related a b) :
    first.Agree second input related := by
  rintro ⟨pos, journal⟩ ⟨_, other⟩ ⟨⟩
  obtain ⟨after, hrun⟩ := (hfirst ⟨pos, journal⟩ a pos).mpr ⟨rfl, rfl⟩
  obtain ⟨otherAfter, hrunOther⟩ := (hsecond ⟨pos, other⟩ b pos).mpr ⟨rfl, rfl⟩
  rw [hrun, hrunOther]
  exact .value h rfl

theorem agree_pure {a : α} {b : β} (h : related a b) : Agree (pure a) (pure b) input related :=
  agree_of_reads (reads_pure a) (reads_pure b) h

theorem agree_fail (fault : Fault) :
    Agree (fail fault : Decode α) (fail fault : Decode β) input related := fun _ _ hkey =>
  .failure hkey

theorem agree_record (event other : Event) :
    Agree (liftM (Reporting.record event)) (liftM (Reporting.record other)) input
      ((· = ·) : Unit → Unit → Prop) := by
  have hreads : ∀ event, Reads (liftM (Reporting.record event)) input 0
      fun _ (value : Unit) => value = () := fun event =>
    (reads_record event).congr rfl fun _ _ => iff_of_true trivial rfl
  exact agree_of_reads (hreads event) (hreads other) rfl

theorem Agree.within {first : Decode α} {second : Decode β} (h : first.Agree second input related)
    (context : Context) : (within context first).Agree (within context second) input related := by
  intro state other hstate
  have hends := h state other hstate
  rw [run_within, run_within]
  generalize run first input state = firstEnd at hends
  generalize run second input other = secondEnd at hends
  cases hends with
  | value h hkey => exact .value h hkey
  | failure hkey => exact .failure hkey

theorem Agree.atOffset {first : Decode α} {second : Decode β} (h : first.Agree second input related)
    (offset : Nat) : (atOffset offset first).Agree (atOffset offset second) input related := by
  rintro ⟨pos, journal⟩ ⟨_, other⟩ ⟨⟩
  by_cases hle : offset ≤ input.size
  · have hends := h ⟨offset, journal⟩ ⟨offset, other⟩ rfl
    rw [run_atOffset_of_le hle, run_atOffset_of_le hle]
    generalize run first input ⟨offset, journal⟩ = firstEnd at hends ⊢
    generalize run second input ⟨offset, other⟩ = secondEnd at hends ⊢
    cases hends with
    | value h hkey => exact .value h rfl
    | failure hkey => exact .failure rfl
  · -- Past the end of the input neither step is made.
    have hlt := Nat.lt_of_not_le hle
    rw [run_atOffset_of_lt hlt, run_atOffset_of_lt hlt]
    exact .failure rfl

theorem agree_tabulateFrom {first : Nat → Decode α} {second : Nat → Decode β}
    (h : ∀ index, (first index).Agree (second index) input related) (count index : Nat)
    {done : Array α} {other : Array β} (hdone : List.Forall₂ related done.toList other.toList) :
    (tabulateFrom first count index done).Agree (tabulateFrom second count index other) input
      fun items others => List.Forall₂ related items.toList others.toList := by
  -- On the items left to read; those that have been read are related already.
  induction count generalizing index done other with
  | zero => exact agree_pure hdone
  | succ count ih =>
      refine (h index).bind fun a b hab => ih (index + 1) ?_
      rw [Array.toList_push, Array.toList_push]
      exact List.rel_append hdone (.cons hab .nil)

theorem agree_tabulate {first : Nat → Decode α} {second : Nat → Decode β}
    (h : ∀ index, (first index).Agree (second index) input related) (count : Nat) :
    (tabulate count first).Agree (tabulate count second) input fun items others =>
      List.Forall₂ related items.toList others.toList :=
  agree_tabulateFrom h count 0 .nil

/-- Tables agree if their items do. -/
theorem agree_table {first : Nat → Decode α} {second : Nat → Decode β}
    (h : ∀ index, (first index).Agree (second index) input related) (table : Table)
    (count offset : Nat) :
    (Decode.table table count offset first).Agree (Decode.table table count offset second) input
      fun items others => List.Forall₂ related items.toList others.toList := by
  have hfits : (requireTable table.name count table.itemSize).Silent input
      (Failure.LacksBytesOr []) := silent_requireTable _ _ _
  exact (agree_record _ _).bind fun _ _ _ => (((Notes.agree_eq hfits).bind fun _ _ _ =>
    agree_tabulate h count).atOffset offset).within _

end Decode

/-! ## Loads -/

namespace Load

/-- Two loads that agree up to what they note. -/
def Agree (first : Load α) (second : Load β) (input : Bytes) (related : α → β → Prop) : Prop :=
  Effect.Agree (fun progress : Progress => (progress.stage, progress.scan.pos)) (run first input)
    (run second input) related

variable {related : α → β → Prop} {relatedNext : γ → δ → Prop}

theorem Agree.bind {first : Load α} {second : Load β} {firstNext : α → Load γ}
    {secondNext : β → Load δ} (h : first.Agree second input related)
    (hnext : ∀ a b, related a b → (firstNext a).Agree (secondNext b) input relatedNext) :
    (first >>= firstNext).Agree (second >>= secondNext) input relatedNext := by
  rw [Agree, run_bind_eq_andThen, run_bind_eq_andThen]
  exact Effect.Agree.andThen h hnext

theorem agree_liftDecode {first : Decode α} {second : Decode β}
    (h : first.Agree second input related) :
    Agree (liftM first) (liftM second) input related := by
  intro progress other hkey
  obtain ⟨hstage, hpos⟩ := Prod.mk.inj hkey
  have hends := h progress.scan other.scan hpos
  have hfirst : run (liftM first) input progress = ((first.run input progress.scan).1,
      { progress with scan := (first.run input progress.scan).2 }) := rfl
  have hsecond : run (liftM second) input other = ((second.run input other.scan).1,
      { other with scan := (second.run input other.scan).2 }) := rfl
  rw [hfirst, hsecond]
  generalize first.run input progress.scan = firstEnd at hends
  generalize second.run input other.scan = secondEnd at hends
  cases hends with
  | value h hkey => exact .value h (Prod.ext hstage hkey)
  | failure hkey => exact .failure (Prod.ext hstage hkey)

/-- A step that notes nothing but what `noted` tells of agrees with itself. -/
theorem agree_liftNotes {step : Decode α} {cause : Failure → Prop}
    {noted : α → List Anomaly → Prop} (h : step.Notes input cause noted) :
    Agree (liftM step) (liftM step) input (· = ·) :=
  agree_liftDecode h.agree_eq

theorem agree_read : Agree (read : Load Bytes) read input fun a b => input = a ∧ input = b :=
  fun _ _ hkey => .value ⟨rfl, rfl⟩ hkey

theorem agree_complete (stage : Stage) : (complete stage).Agree (complete stage) input (· = ·) :=
  fun _ _ hkey => .value rfl (Prod.ext rfl (Prod.mk.inj hkey).2)

end Load

end Dalvik
