import Dalvik.Proofs.Effects
import Dalvik.Proofs.ItemReads

/-!
# How steps fail

A step is described by the failures that it can end with. What an item of a table fails with is told
apart from a table that lies outside the input, by the places that it names or by its fault.
-/

namespace Dalvik

variable {α β : Type} {input : Bytes}

/-- Whether a fault may be that of a whole table: the cursor cannot be put at its start, or the
items do not fit into what is left. -/
def Fault.isOutside : Fault → Bool
  | .seekPastEnd .. | .tableTooLarge .. => true
  | _ => false

/-- A failure that says of a table that it lies outside the input. -/
structure Failure.OfTable (failure : Failure) (table : Table) : Prop where
  contexts : failure.contexts = [.pool table]
  isOutside : failure.fault.isOutside

/-- A failure that names the place of the fault, or whose fault cannot be that of a whole table. -/
def Failure.OfItem (failure : Failure) : Prop :=
  failure.contexts = [] → failure.fault.isOutside = false

theorem Failure.ofItem_within (failure : Failure) (context : Context) :
    (failure.within context).OfItem := by
  intro hnil
  simp [Failure.within] at hnil

namespace Decode

/-- Every failure of a step is one that `cause` allows. -/
def Fails (step : Decode α) (input : Bytes) (cause : Failure → Prop) : Prop :=
  ∀ scan failure after, run step input scan = (.error failure, after) → cause failure

variable {cause : Failure → Prop}

theorem fails_fail {fault : Fault} (h : cause { fault }) :
    Fails (fail fault : Decode α) input cause := by
  intro scan failure after hrun
  cases hrun
  exact h

/-- A step that always succeeds fails in no way. -/
theorem fails_of_reads {step : Decode α} {width : Nat} {spec : Nat → α → Prop}
    (h : step.Reads input width spec) (hsome : ∀ pos, ∃ a, spec pos a) :
    step.Fails input cause := by
  intro scan failure after hrun
  obtain ⟨a, ha⟩ := hsome scan.pos
  obtain ⟨journal, hok⟩ := (h scan a (scan.pos + width)).mpr ⟨rfl, ha⟩
  rw [hok] at hrun
  cases hrun

theorem fails_pure (a : α) : Fails (pure a) input cause :=
  fails_of_reads (reads_pure a) fun _ => ⟨a, rfl⟩

theorem fails_length : length.Fails input cause :=
  fails_of_reads reads_length fun _ => ⟨_, rfl⟩

theorem fails_warn (anomaly : Anomaly) : Fails (liftM (Reporting.warn anomaly)) input cause :=
  fails_of_reads (reads_warn anomaly) fun _ => ⟨(), trivial⟩

theorem fails_forM_warn (anomaly : α → Anomaly) (list : List α) :
    Fails (list.forM fun a => Reporting.warn (anomaly a) : Decode Unit) input cause :=
  fails_of_reads (reads_forM_warn anomaly list) fun _ => ⟨(), trivial⟩

theorem fails_record (event : Event) : Fails (liftM (Reporting.record event)) input cause :=
  fails_of_reads (reads_record event) fun _ => ⟨(), trivial⟩

/-- A failure of two steps is one of the first, or one of the second. -/
theorem Fails.bind {step : Decode α} {next : α → Decode β} (hstep : step.Fails input cause)
    (hnext : ∀ a, (next a).Fails input cause) : (step >>= next).Fails input cause := by
  intro scan failure after hrun
  rw [run_bind_eq_andThen] at hrun
  rcases Effect.error_of_andThen hrun with hfirst | ⟨a, middle, -, hsecond⟩
  · exact hstep scan failure after hfirst
  · exact hnext a middle failure after hsecond

/-- What follows a step may rely on what the step ends with. -/
theorem Fails.bind_of_reads {step : Decode α} {next : α → Decode β} {width : Nat}
    {spec : Nat → α → Prop} (hreads : step.Reads input width spec)
    (hstep : step.Fails input cause) (hnext : ∀ pos a, spec pos a → (next a).Fails input cause) :
    (step >>= next).Fails input cause := by
  intro scan failure after hrun
  rw [run_bind_eq_andThen] at hrun
  rcases Effect.error_of_andThen hrun with hfirst | ⟨a, middle, hfirst, hsecond⟩
  · exact hstep scan failure after hfirst
  · obtain ⟨-, hspec⟩ := (hreads scan a middle.pos).mp ⟨middle.journal, hfirst⟩
    exact hnext scan.pos a hspec middle failure after hsecond

theorem Fails.ite {first second : Decode α} {c : Prop} [Decidable c]
    (hfirst : c → first.Fails input cause) (hsecond : ¬c → second.Fails input cause) :
    (if c then first else second).Fails input cause := by
  split
  next hc => exact hfirst hc
  next hc => exact hsecond hc

theorem Fails.within {step : Decode α} {inner : Failure → Prop} (h : step.Fails input inner)
    (context : Context) (hcause : ∀ failure, inner failure → cause (failure.within context)) :
    (within context step).Fails input cause := by
  intro scan failure after hrun
  rw [run_within] at hrun
  cases hresult : run step input scan with
  | mk result middle =>
      rw [hresult] at hrun
      cases result with
      | ok a => cases hrun
      | error refusal =>
          cases hrun
          exact hcause refusal (h scan refusal middle hresult)

theorem fails_liftExcept {result : Except Failure α}
    (h : ∀ failure, result = .error failure → cause failure) :
    Fails (liftM result) input cause := by
  intro scan failure after hrun
  cases result with
  | ok a => cases hrun
  | error refusal =>
      cases hrun
      exact h failure rfl

theorem fails_tabulateFrom {body : Nat → Decode α} (h : ∀ index, (body index).Fails input cause)
    (count index : Nat) (done : Array α) :
    (tabulateFrom body count index done).Fails input cause := by
  induction count generalizing index done with
  | zero => exact fails_pure done
  | succ count ih => exact (h index).bind fun item => ih (index + 1) (done.push item)

theorem fails_tabulate {body : Nat → Decode α} (h : ∀ index, (body index).Fails input cause)
    (count : Nat) : (tabulate count body).Fails input cause :=
  fails_tabulateFrom h count 0 #[]

/-! ## References -/

/-- Whatever fails at a place that is named fails as a part of an item. -/
theorem fails_within (context : Context) (step : Decode α) :
    (Decode.within context step).Fails input Failure.OfItem := by
  have hany : step.Fails input fun _ => True := fun _ _ _ _ => trivial
  exact hany.within context fun failure _ => failure.ofItem_within context

theorem fails_natural (width : Nat) : (natural width).Fails input Failure.OfItem := by
  apply Fails.bind
  · exact fails_of_reads reads_position fun _ => ⟨_, rfl⟩
  intro start
  exact (fails_within _ _).bind fun digits => fails_pure _

theorem fails_word : word.Fails input Failure.OfItem :=
  (fails_natural 4).bind fun _ => fails_pure _

theorem fails_checkReference (source : Referrer) (target : Table) (size index : Nat) :
    (checkReference source target size index).Fails input Failure.OfItem := by
  apply Fails.ite
  · exact fun _ => fails_pure ()
  · exact fun _ => fails_fail fun _ => rfl

theorem fails_optionalReference (source : Referrer) (target : Table) (size index : Nat) :
    (optionalReference source target size index).Fails input Failure.OfItem := by
  apply Fails.ite
  · exact fun _ => fails_pure none
  · exact fun _ => (fails_checkReference source target size index).bind fun _ => fails_pure _

theorem fails_typeListAt (types offset : Nat) (context : Context) :
    (typeListAt types offset context).Fails input Failure.OfItem := by
  apply Fails.ite
  · exact fun _ => fails_pure []
  · exact fun _ => fails_within context _

theorem fails_warnFirst {α : Type} (anomaly? : Option Anomaly) (value : α) :
    Fails (match anomaly? with
      | some anomaly => do
        Reporting.warn anomaly
        pure value
      | none => pure value : Decode α) input cause :=
  fails_of_reads (reads_warnFirst anomaly? value) fun _ => ⟨value, rfl⟩

end Decode

/-! ## Items -/

open Decode

theorem StringItem.fails_readAt (index : Nat) :
    (StringItem.readAt index).Fails input Failure.OfItem := by
  apply (fails_natural 4).bind
  intro offset
  refine fails_length.bind fun length => ?_
  apply Fails.ite
  · exact fun _ => fails_within _ _
  · exact fun _ => (fails_within _ _).bind fun item => fails_warnFirst (item.anomaly? index) item

theorem TypeItem.fails_readAt (strings : Pool.Strings) (arrayLimit index : Nat) :
    (TypeItem.readAt strings arrayLimit index).Fails input Failure.OfItem := by
  apply (fails_within _ _).bind
  intro stringIndex
  cases strings.items[stringIndex]? with
  | none => exact fails_fail fun _ => rfl
  | some string =>
      apply Fails.ite
      · exact fun _ => (fails_warn _).bind fun _ => fails_pure _
      · exact fun _ => fails_pure _

theorem ProtoItem.Stored.fails_read : Stored.read.Fails input Failure.OfItem :=
  (fails_natural 4).bind fun _ => (fails_natural 4).bind fun _ => (fails_natural 4).bind fun _ =>
    fails_pure _

theorem ProtoItem.fails_ofStored (strings : Pool.Strings) (types : Pool.Types) (index : Nat)
    (stored : Stored) : (ofStored strings types index stored).Fails input Failure.OfItem :=
  (fails_checkReference _ _ _ _).bind fun _ => (fails_checkReference _ _ _ _).bind fun _ =>
    (fails_typeListAt _ _ _).bind fun _ => fails_pure _

/-- The short form is looked up only for references that can be followed. -/
theorem ProtoItem.fails_readAt (strings : Pool.Strings) (types : Pool.Types) (index : Nat) :
    (ProtoItem.readAt strings types index).Fails input Failure.OfItem := by
  apply Stored.fails_read.bind
  intro stored
  apply Fails.bind_of_reads (reads_ofStored strings types index stored)
    (fails_ofStored strings types index stored)
  rintro _ item ⟨hshorty, hreturn, hs, hr, -, hparameters⟩
  rw [hs] at hshorty
  rw [hr] at hreturn
  obtain ⟨anomaly?, hanomaly⟩ := exists_anomaly? hshorty hreturn hparameters.lt index
  apply Fails.bind
  · apply fails_liftExcept
    intro failure hfailure
    rw [hanomaly] at hfailure
    cases hfailure
  · exact fun anomaly? => fails_warnFirst anomaly? item

theorem FieldItem.fails_read : FieldItem.read.Fails input Failure.OfItem :=
  (fails_natural 2).bind fun _ => (fails_natural 2).bind fun _ => (fails_natural 4).bind fun _ =>
    fails_pure _

theorem FieldItem.fails_check (strings : Pool.Strings) (types : Pool.Types) (index : Nat)
    (item : FieldItem) : (item.check strings types index).Fails input Failure.OfItem :=
  (fails_checkReference _ _ _ _).bind fun _ => (fails_checkReference _ _ _ _).bind fun _ =>
    fails_checkReference _ _ _ _

theorem FieldItem.fails_readAt (strings : Pool.Strings) (types : Pool.Types) (index : Nat) :
    (FieldItem.readAt strings types index).Fails input Failure.OfItem :=
  fails_read.bind fun item => (item.fails_check strings types index).bind fun _ => fails_pure item

theorem MethodItem.fails_read : MethodItem.read.Fails input Failure.OfItem :=
  (fails_natural 2).bind fun _ => (fails_natural 2).bind fun _ => (fails_natural 4).bind fun _ =>
    fails_pure _

theorem MethodItem.fails_check (strings : Pool.Strings) (types : Pool.Types) (protos : Pool.Protos)
    (index : Nat) (item : MethodItem) :
    (item.check strings types protos index).Fails input Failure.OfItem :=
  (fails_checkReference _ _ _ _).bind fun _ => (fails_checkReference _ _ _ _).bind fun _ =>
    fails_checkReference _ _ _ _

theorem MethodItem.fails_readAt (strings : Pool.Strings) (types : Pool.Types) (protos : Pool.Protos)
    (index : Nat) : (MethodItem.readAt strings types protos index).Fails input Failure.OfItem :=
  fails_read.bind fun item => (item.fails_check strings types protos index).bind fun _ =>
    fails_pure item

namespace ClassItem

theorem fails_readData (pools : Pools) (index offset : Nat) :
    (readData pools index offset).Fails input Failure.OfItem := by
  apply Fails.ite
  · exact fun _ => fails_pure none
  · exact fun _ => (fails_within _ _).bind fun _ => fails_pure _

theorem Stored.fails_read : Stored.read.Fails input Failure.OfItem :=
  (fails_natural 4).bind fun _ => fails_word.bind fun _ => (fails_natural 4).bind fun _ =>
    (fails_natural 4).bind fun _ => (fails_natural 4).bind fun _ => (fails_natural 4).bind fun _ =>
      (fails_natural 4).bind fun _ => (fails_natural 4).bind fun _ => fails_pure _

theorem fails_ofStored (pools : Pools) (index : Nat) (stored : Stored) :
    (ofStored pools index stored).Fails input Failure.OfItem :=
  (fails_checkReference _ _ _ _).bind fun _ => (fails_optionalReference _ _ _ _).bind fun _ =>
    (fails_optionalReference _ _ _ _).bind fun _ => (fails_typeListAt _ _ _).bind fun _ =>
      (fails_readData pools index _).bind fun _ => fails_pure _

theorem fails_readAt (pools : Pools) (index : Nat) :
    (ClassItem.readAt pools index).Fails input Failure.OfItem := by
  apply Stored.fails_read.bind
  intro stored
  apply (fails_ofStored pools index stored).bind
  intro item
  refine fails_length.bind fun length => ?_
  exact (fails_forM_warn id _).bind fun _ => fails_pure item

end ClassItem

end Dalvik
