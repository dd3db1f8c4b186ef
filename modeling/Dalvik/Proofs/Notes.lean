import Dalvik.Proofs.Cursor
import Dalvik.Proofs.Effects

/-!
# What steps note

A step adds to the journal and never looks at it: how it ends, where it leaves the cursor and what
it notes are the same whatever has been noted before. The notes of a step are described by the
anomalies that they warn of.
-/

namespace Dalvik

variable {α β : Type} {input : Bytes}

/-! ## The log -/

/-- The line that stands for a diagnostic in the log. -/
def Diagnostic.alert (diagnostic : Diagnostic) : LogLine :=
  match diagnostic.severity with
  | .warning => ⟨.warn, "[" ++ diagnostic.part ++ "] " ++ diagnostic.message⟩
  | .error => ⟨.error, "[" ++ diagnostic.part ++ "] " ++ diagnostic.message⟩

theorem Diagnostic.logLine_eq_alert (diagnostic : Diagnostic) :
    diagnostic.logLine = diagnostic.alert := by
  obtain ⟨severity, part, message⟩ := diagnostic
  cases severity <;> rfl

namespace LogLine

/-- Whether a log line warns of something or tells of an error. -/
def isAlert (line : LogLine) : Bool :=
  line.level == .warn || line.level == .error

/-- Whether a log line tells of a step from one stage to the next. -/
def isTransition (line : LogLine) : Bool :=
  line.level == .debug && "DexParser ".toList.isPrefixOf line.message.toList

theorem isAlert_alert (diagnostic : Diagnostic) : diagnostic.alert.isAlert = true := by
  obtain ⟨severity, part, message⟩ := diagnostic
  cases severity <;> rfl

theorem isTransition_alert (diagnostic : Diagnostic) :
    diagnostic.alert.isTransition = false := by
  obtain ⟨severity, part, message⟩ := diagnostic
  cases severity <;> rfl

/-- No event is logged as a warning or as an error. -/
theorem isAlert_event (event : Event) : event.logLine.isAlert = false := by
  cases event <;> rfl

/-- A line that begins with another letter tells of no step. -/
theorem isTransition_of_head? {line : LogLine} {c : Char}
    (h : line.message.toList.head? = some c) (hc : 'D' ≠ c) : line.isTransition = false := by
  obtain ⟨rest, hrest⟩ := List.head?_eq_some_iff.mp h
  have hmark : "DexParser ".toList = 'D' :: "exParser ".toList := by decide
  rw [isTransition, hrest, hmark, List.isPrefixOf_cons_cons, beq_false_of_ne hc, Bool.false_and,
    Bool.and_false]

theorem isTransition_headerAccepted (version strings types classes : Nat) :
    (Event.headerAccepted version strings types classes).logLine.isTransition = false := by
  have hfirst : "dex header ok: version ".toList = 'd' :: "ex header ok: version ".toList := by
    decide
  refine isTransition_of_head? (c := 'd') ?_ (by decide)
  change ("dex header ok: version " ++ _ ++ _ ++ _ ++ _ ++ _ ++ _ ++ _ ++ _).toList.head? = _
  simp only [String.toList_append, List.append_assoc, hfirst]
  rfl

theorem isTransition_tableStarted (table : Table) (offset count : Nat) :
    (Event.tableStarted table offset count).logLine.isTransition = false := by
  have hname : ∃ c rest, table.poolName.toList = c :: rest ∧ 'D' ≠ c := by
    cases table <;> exact ⟨_, _, rfl, by decide⟩
  obtain ⟨c, rest, hlist, hc⟩ := hname
  refine isTransition_of_head? ?_ hc
  change (table.poolName ++ _ ++ _ ++ _ ++ _ ++ _ ++ _).toList.head? = _
  simp only [String.toList_append, List.append_assoc, hlist]
  rfl

theorem isTransition_advanced (before after : Stage) :
    (Event.advanced before after).logLine.isTransition = true := by
  change (true && "DexParser ".toList.isPrefixOf
    ("DexParser " ++ before.text ++ " -> " ++ after.text).toList) = true
  rw [Bool.true_and, List.isPrefixOf_iff_prefix]
  simp only [String.toList_append, List.append_assoc]
  exact List.prefix_append _ _

end LogLine

/-! ## Journals -/

namespace Journal

/-- The lines of the log that warn of something or tell of an error. -/
def alerts (journal : Journal) : List LogLine :=
  journal.log.filter LogLine.isAlert

/-- The lines of the log that tell of a step from one stage to the next. -/
def transitions (journal : Journal) : List LogLine :=
  journal.log.filter LogLine.isTransition

/-- A journal of one note. -/
def single (entry : Entry) : Journal :=
  ({} : Journal).push entry

theorem push_eq_append_single (journal : Journal) (entry : Entry) :
    journal.push entry = journal ++ single entry := by
  cases entry <;> rfl

@[simp]
theorem append_empty (journal : Journal) : journal ++ ({} : Journal) = journal := by
  change Journal.mk (journal.entries ++ #[]) (journal.lines ++ #[]) = journal
  rw [Array.append_empty, Array.append_empty]

theorem append_assoc (first second third : Journal) :
    first ++ second ++ third = first ++ (second ++ third) := by
  change Journal.mk (first.entries ++ second.entries ++ third.entries)
    (first.lines ++ second.lines ++ third.lines) = _
  rw [Array.append_assoc, Array.append_assoc]
  rfl

theorem alerts_append (first second : Journal) :
    (first ++ second).alerts = first.alerts ++ second.alerts := by
  rw [alerts, log_append, List.filter_append]
  rfl

theorem transitions_append (first second : Journal) :
    (first ++ second).transitions = first.transitions ++ second.transitions := by
  rw [transitions, log_append, List.filter_append]
  rfl

theorem alerts_single_diagnostic (diagnostic : Diagnostic) :
    (single (.diagnostic diagnostic)).alerts = [diagnostic.alert] := by
  change [diagnostic.logLine].filter LogLine.isAlert = _
  rw [diagnostic.logLine_eq_alert, List.filter_cons_of_pos (LogLine.isAlert_alert diagnostic)]
  rfl

theorem transitions_single_diagnostic (diagnostic : Diagnostic) :
    (single (.diagnostic diagnostic)).transitions = [] := by
  change [diagnostic.logLine].filter LogLine.isTransition = _
  rw [diagnostic.logLine_eq_alert, List.filter_cons_of_neg]
  · rfl
  · rw [LogLine.isTransition_alert]
    exact Bool.false_ne_true

theorem alerts_push_diagnostic (journal : Journal) (diagnostic : Diagnostic) :
    (journal.push (.diagnostic diagnostic)).alerts = journal.alerts ++ [diagnostic.alert] := by
  rw [push_eq_append_single, alerts_append, alerts_single_diagnostic]

theorem transitions_push_diagnostic (journal : Journal) (diagnostic : Diagnostic) :
    (journal.push (.diagnostic diagnostic)).transitions = journal.transitions := by
  rw [push_eq_append_single, transitions_append, transitions_single_diagnostic, List.append_nil]

theorem alerts_single_event (event : Event) : (single (.event event)).alerts = [] := by
  change [event.logLine].filter LogLine.isAlert = _
  rw [List.filter_cons_of_neg]
  · rfl
  · rw [LogLine.isAlert_event]
    exact Bool.false_ne_true

theorem transitions_single_advanced (before after : Stage) :
    (single (.event (.advanced before after))).transitions =
      [(Event.advanced before after).logLine] :=
  List.filter_cons_of_pos (LogLine.isTransition_advanced before after)

/-- Notes that warn of some anomalies in their order, and of nothing else, and complete no stage.
The log shows the same warnings. -/
structure Tells (notes : Journal) (anomalies : List Anomaly) : Prop where
  diagnostics : notes.diagnostics = anomalies.map Anomaly.warning
  alerts : notes.alerts = notes.diagnostics.map Diagnostic.alert
  transitions : notes.transitions = []

theorem tells_empty : Tells {} [] := ⟨rfl, rfl, rfl⟩

theorem tells_warning (anomaly : Anomaly) :
    (single (.diagnostic anomaly.warning)).Tells [anomaly] :=
  ⟨rfl, alerts_single_diagnostic _, transitions_single_diagnostic _⟩

theorem tells_event {event : Event} (h : event.logLine.isTransition = false) :
    (single (.event event)).Tells [] := by
  refine ⟨rfl, alerts_single_event event, ?_⟩
  change [event.logLine].filter LogLine.isTransition = []
  rw [List.filter_cons_of_neg]
  · rfl
  · rw [h]
    exact Bool.false_ne_true

theorem Tells.append {first second : Journal} {firstAnomalies secondAnomalies : List Anomaly}
    (hfirst : first.Tells firstAnomalies) (hsecond : second.Tells secondAnomalies) :
    (first ++ second).Tells (firstAnomalies ++ secondAnomalies) where
  diagnostics := by
    rw [diagnostics_append, hfirst.diagnostics, hsecond.diagnostics, List.map_append]
  alerts := by
    rw [alerts_append, hfirst.alerts, hsecond.alerts, diagnostics_append, List.map_append]
  transitions := by
    rw [transitions_append, hfirst.transitions, hsecond.transitions, List.append_nil]

end Journal

/-! ## Endings -/

/-- A failure for lack of bytes, or of one of some other kinds. -/
def Failure.LacksBytesOr (others : List Fault.Kind) (failure : Failure) : Prop :=
  failure.kind = .truncated ∨ failure.kind ∈ others

/-- The kinds of failures that a table can have besides a lack of bytes. A string refers to nothing;
the items of all other tables do. -/
def Table.otherKinds : Table → List Fault.Kind
  | strings => []
  | _ => [.indexOutOfRange]

/-- A failure of the pool of a table: the last place that it names is that pool. -/
structure Failure.OfPool (failure : Failure) (table : Table) : Prop where
  context : failure.contexts.getLast? = some (.pool table)
  kind : failure.LacksBytesOr table.otherKinds

theorem Failure.ofPool_within {failure : Failure} {table : Table}
    (h : failure.LacksBytesOr table.otherKinds) : (failure.within (.pool table)).OfPool table :=
  ⟨List.getLast?_concat, h⟩

/-- The end of a step that has added some notes: a value, with notes of anomalies that `noted` tells
of, or a failure that `cause` allows. -/
inductive Ending (cause : Failure → Prop) (noted : α → List Anomaly → Prop) (added : Journal) :
    Except Failure α → Prop where
  | value {a : α} {anomalies : List Anomaly} (h : noted a anomalies)
    (htells : added.Tells anomalies) : Ending cause noted added (.ok a)
  | failure {failure : Failure} {anomalies : List Anomaly} (h : cause failure)
    (htells : added.Tells anomalies) : Ending cause noted added (.error failure)

namespace Ending

variable {cause causeOther : Failure → Prop} {noted notedOther : α → List Anomaly → Prop}
  {added : Journal} {result : Except Failure α}

theorem imp (h : Ending cause noted added result)
    (hcause : ∀ failure, cause failure → causeOther failure)
    (hnoted : ∀ a anomalies, noted a anomalies → notedOther a anomalies) :
    Ending causeOther notedOther added result := by
  cases h with
  | value h htells => exact .value (hnoted _ _ h) htells
  | failure h htells => exact .failure (hcause _ h) htells

/-- What is noted before another step comes before its notes. -/
theorem prepend {notedNext : β → List Anomaly → Prop} {last : Journal}
    {resultNext : Except Failure β} {before : List Anomaly} (hbefore : added.Tells before)
    (h : Ending cause notedNext last resultNext) :
    Ending cause (fun b anomalies => ∃ rest, notedNext b rest ∧ anomalies = before ++ rest)
      (added ++ last) resultNext := by
  cases h with
  | value h htells => exact .value ⟨_, h, rfl⟩ (hbefore.append htells)
  | failure h htells => exact .failure h (hbefore.append htells)

end Ending

/-! ## Steps that only write to the journal -/

namespace Reporting

/-- Whatever has been noted before, a step ends in the same way and adds the same notes, which
`cause` and `noted` describe. -/
def Notes (step : Reporting α) (cause : Failure → Prop) (noted : α → List Anomaly → Prop) : Prop :=
  ∃ result added, (∀ journal, run step journal = (result, journal ++ added)) ∧
    Ending cause noted added result

variable {cause causeOther : Failure → Prop} {noted notedOther : α → List Anomaly → Prop}

theorem Notes.imp {step : Reporting α} (h : step.Notes cause noted)
    (hcause : ∀ failure, cause failure → causeOther failure)
    (hnoted : ∀ a anomalies, noted a anomalies → notedOther a anomalies) :
    step.Notes causeOther notedOther := by
  obtain ⟨result, added, hrun, hending⟩ := h
  exact ⟨result, added, hrun, hending.imp hcause hnoted⟩

theorem notes_pure (a : α) :
    Notes (pure a) cause fun value anomalies => value = a ∧ anomalies = [] :=
  ⟨.ok a, {}, fun journal => by rw [run_pure, Journal.append_empty],
    .value ⟨rfl, rfl⟩ Journal.tells_empty⟩

theorem notes_fail {fault : Fault} (h : cause { fault }) :
    Notes (fail fault : Reporting α) cause noted :=
  ⟨.error { fault }, {}, fun journal => by rw [run_fail, Journal.append_empty],
    .failure h Journal.tells_empty⟩

theorem notes_warn (anomaly : Anomaly) :
    Notes (warn anomaly) cause fun _ anomalies => anomalies = [anomaly] :=
  ⟨.ok (), .single (.diagnostic anomaly.warning), fun _ => rfl,
    .value rfl (Journal.tells_warning anomaly)⟩

theorem notes_record {event : Event} (h : event.logLine.isTransition = false) :
    Notes (record event) cause fun _ anomalies => anomalies = [] :=
  ⟨.ok (), .single (.event event), fun _ => rfl, .value rfl (Journal.tells_event h)⟩

theorem Notes.bind {step : Reporting α} {next : α → Reporting β}
    {notedNext : α → β → List Anomaly → Prop} (hstep : step.Notes cause noted)
    (hnext : ∀ a, (next a).Notes cause (notedNext a)) :
    (step >>= next).Notes cause fun b anomalies =>
      ∃ a first rest, noted a first ∧ notedNext a b rest ∧ anomalies = first ++ rest := by
  obtain ⟨result, added, hrun, hending⟩ := hstep
  cases hending with
  | @value a first h htells =>
      obtain ⟨resultNext, last, hrunNext, hendingNext⟩ := hnext a
      refine ⟨resultNext, added ++ last, fun journal => ?_, ?_⟩
      · rw [run_bind, hrun]
        exact (hrunNext _).trans (by rw [Journal.append_assoc])
      · exact (hendingNext.prepend htells).imp (fun _ => id)
          fun b anomalies ⟨rest, hrest, heq⟩ => ⟨a, first, rest, h, hrest, heq⟩
  | @failure failure anomalies h htells =>
      exact ⟨.error failure, added, fun journal => by rw [run_bind, hrun], .failure h htells⟩

end Reporting

/-! ## Decoding steps -/

namespace Decode

/-- From every offset and whatever has been noted before, a step ends in the same way, leaves the
cursor at the same place and adds the same notes, which `cause` and `noted` describe. -/
def Notes (step : Decode α) (input : Bytes) (cause : Failure → Prop)
    (noted : α → List Anomaly → Prop) : Prop :=
  ∀ pos, ∃ result next added,
    (∀ journal, run step input ⟨pos, journal⟩ = (result, ⟨next, journal ++ added⟩)) ∧
      Ending cause noted added result

/-- A step that notes nothing. -/
def Silent (step : Decode α) (input : Bytes) (cause : Failure → Prop) : Prop :=
  step.Notes input cause fun _ anomalies => anomalies = []

variable {cause causeOther : Failure → Prop} {noted notedOther : α → List Anomaly → Prop}
  {notedNext : α → β → List Anomaly → Prop}

theorem Notes.imp {step : Decode α} (h : step.Notes input cause noted)
    (hcause : ∀ failure, cause failure → causeOther failure)
    (hnoted : ∀ a anomalies, noted a anomalies → notedOther a anomalies) :
    step.Notes input causeOther notedOther := by
  intro pos
  obtain ⟨result, next, added, hrun, hending⟩ := h pos
  exact ⟨result, next, added, hrun, hending.imp hcause hnoted⟩

/-- What a run that succeeds adds to the diagnostics. -/
theorem Notes.diagnostics_of_run {step : Decode α} {scan after : Scan} {a : α}
    (h : step.Notes input cause noted) (hrun : run step input scan = (.ok a, after)) :
    ∃ anomalies, noted a anomalies ∧
      after.journal.diagnostics =
        scan.journal.diagnostics ++ anomalies.map Anomaly.warning := by
  obtain ⟨result, next, added, hall, hending⟩ := h scan.pos
  obtain ⟨rfl, rfl⟩ := Prod.mk.inj ((hall scan.journal).symm.trans hrun)
  cases hending with
  | value h htells =>
      refine ⟨_, h, ?_⟩
      rw [Journal.diagnostics_append, htells.diagnostics]

theorem notes_pure (a : α) :
    Notes (pure a) input cause fun value anomalies => value = a ∧ anomalies = [] := fun pos =>
  ⟨.ok a, pos, {}, fun journal => by rw [run_pure, Journal.append_empty],
    .value ⟨rfl, rfl⟩ Journal.tells_empty⟩

theorem notes_fail {fault : Fault} (h : cause { fault }) :
    Notes (fail fault : Decode α) input cause noted := fun pos =>
  ⟨.error { fault }, pos, {}, fun journal => by rw [run_fail, Journal.append_empty],
    .failure h Journal.tells_empty⟩

/-- What follows a step may rely on what the step ends with. -/
theorem Notes.bind_of_noted {step : Decode α} {next : α → Decode β}
    (hstep : step.Notes input cause noted)
    (hnext : ∀ a first, noted a first → (next a).Notes input cause (notedNext a)) :
    (step >>= next).Notes input cause fun b anomalies =>
      ∃ a first rest, noted a first ∧ notedNext a b rest ∧ anomalies = first ++ rest := by
  intro pos
  obtain ⟨result, middle, added, hrun, hending⟩ := hstep pos
  cases hending with
  | @value a first h htells =>
      obtain ⟨resultNext, stop, last, hrunNext, hendingNext⟩ := hnext a first h middle
      refine ⟨resultNext, stop, added ++ last, fun journal => ?_, ?_⟩
      · rw [run_bind_of_ok (hrun journal), hrunNext, Journal.append_assoc]
      · exact (hendingNext.prepend htells).imp (fun _ => id)
          fun b anomalies ⟨rest, hrest, heq⟩ => ⟨a, first, rest, h, hrest, heq⟩
  | @failure failure anomalies h htells =>
      exact ⟨.error failure, middle, added, fun journal => run_bind_of_error (hrun journal),
        .failure h htells⟩

/-- What a step ends with when it succeeds does not depend on what it notes. -/
theorem Notes.and_reads {step : Decode α} {width : Nat} {spec : Nat → α → Prop}
    (h : step.Notes input cause noted) (hreads : step.Reads input width spec) :
    step.Notes input cause fun a anomalies => noted a anomalies ∧ ∃ pos, spec pos a := by
  intro pos
  obtain ⟨result, next, added, hrun, hending⟩ := h pos
  refine ⟨result, next, added, hrun, ?_⟩
  cases hending with
  | @value a anomalies h htells =>
      obtain ⟨-, hspec⟩ := (hreads ⟨pos, {}⟩ a next).mp ⟨_, hrun {}⟩
      exact .value ⟨h, pos, hspec⟩ htells
  | failure h htells => exact .failure h htells

theorem Notes.bind {step : Decode α} {next : α → Decode β} (hstep : step.Notes input cause noted)
    (hnext : ∀ a, (next a).Notes input cause (notedNext a)) :
    (step >>= next).Notes input cause fun b anomalies =>
      ∃ a first rest, noted a first ∧ notedNext a b rest ∧ anomalies = first ++ rest :=
  hstep.bind_of_noted fun a _ _ => hnext a

/-- The notes of a step after one that notes nothing are all its own. -/
theorem Silent.bind_notes {step : Decode α} {next : α → Decode β}
    {notedLast : β → List Anomaly → Prop} (hstep : step.Silent input cause)
    (hnext : ∀ a, (next a).Notes input cause notedLast) :
    (step >>= next).Notes input cause notedLast :=
  (Notes.bind hstep hnext).imp (fun _ => id) (by rintro b _ ⟨_, _, _, rfl, h, rfl⟩; exact h)

theorem Notes.ite {first second : Decode α} {c : Prop} [Decidable c]
    (hfirst : c → first.Notes input cause noted) (hsecond : ¬c → second.Notes input cause noted) :
    (if c then first else second).Notes input cause noted := by
  split
  next hc => exact hfirst hc
  next hc => exact hsecond hc

/-- A place is named in the failures of a step, and in nothing that it notes. -/
theorem Notes.within {step : Decode α} (h : step.Notes input cause noted) (context : Context)
    (hcause : ∀ failure, cause failure → causeOther (failure.within context)) :
    (within context step).Notes input causeOther noted := by
  intro pos
  obtain ⟨result, next, added, hrun, hending⟩ := h pos
  refine ⟨result.mapError fun failure => failure.within context, next, added, fun journal => ?_, ?_⟩
  · rw [run_within, hrun]
  · cases hending with
    | value h htells => exact .value h htells
    | failure h htells => exact .failure (hcause _ h) htells

/-! ### Steps that note nothing -/

theorem silent_pure (a : α) : Silent (pure a) input cause :=
  (notes_pure a).imp (fun _ => id) fun _ _ h => h.2

theorem Silent.bind {step : Decode α} {next : α → Decode β} (hstep : step.Silent input cause)
    (hnext : ∀ a, (next a).Silent input cause) : (step >>= next).Silent input cause :=
  hstep.bind_notes hnext

theorem Silent.ite {first second : Decode α} {c : Prop} [Decidable c]
    (hfirst : c → first.Silent input cause) (hsecond : ¬c → second.Silent input cause) :
    (if c then first else second).Silent input cause :=
  Notes.ite hfirst hsecond

/-- A step that leaves the journal alone, whether it succeeds or not. -/
theorem silent_of_run {step : Decode α}
    (h : ∀ pos, (∃ a next, ∀ journal, run step input ⟨pos, journal⟩ = (.ok a, ⟨next, journal⟩)) ∨
      ∃ failure next, cause failure ∧
        ∀ journal, run step input ⟨pos, journal⟩ = (.error failure, ⟨next, journal⟩)) :
    step.Silent input cause := by
  intro pos
  rcases h pos with ⟨a, next, hrun⟩ | ⟨failure, next, hcause, hrun⟩
  · exact ⟨.ok a, next, {}, fun journal => by rw [hrun, Journal.append_empty],
      .value rfl Journal.tells_empty⟩
  · exact ⟨.error failure, next, {}, fun journal => by rw [hrun, Journal.append_empty],
      .failure hcause Journal.tells_empty⟩

/-- A step that always succeeds fails in no way. -/
theorem Silent.of_reads {step : Decode α} {width : Nat} {spec : Nat → α → Prop}
    (h : step.Silent input causeOther) (hreads : step.Reads input width spec)
    (hsome : ∀ pos, ∃ a, spec pos a) : step.Silent input cause := by
  intro pos
  obtain ⟨result, next, added, hrun, hending⟩ := h pos
  refine ⟨result, next, added, hrun, ?_⟩
  cases hending with
  | value h htells => exact .value h htells
  | failure h htells =>
      obtain ⟨a, ha⟩ := hsome pos
      obtain ⟨journal, hok⟩ := (hreads ⟨pos, {}⟩ a (pos + width)).mpr ⟨rfl, ha⟩
      rw [hrun] at hok
      cases hok

theorem notes_length :
    length.Notes input cause fun value anomalies => value = input.size ∧ anomalies = [] :=
  fun pos => ⟨.ok input.size, pos, {}, fun journal => by rw [run_length, Journal.append_empty],
    .value ⟨rfl, rfl⟩ Journal.tells_empty⟩

theorem silent_length : length.Silent input cause :=
  notes_length.imp (fun _ => id) fun _ _ h => h.2

theorem silent_position : position.Silent input cause :=
  silent_of_run fun pos => .inl ⟨pos, pos, fun _ => rfl⟩

theorem silent_remaining : remaining.Silent input cause :=
  silent_of_run fun pos => .inl ⟨input.size - pos, pos, fun _ => rfl⟩

variable {others : List Fault.Kind}

/-- Naming a place changes the kind of no failure. -/
theorem Notes.within_kind {step : Decode α}
    (h : step.Notes input (Failure.LacksBytesOr others) noted) (context : Context) :
    (Decode.within context step).Notes input (Failure.LacksBytesOr others) noted :=
  h.within context fun _ hkind => hkind

theorem Silent.within_kind {step : Decode α}
    (h : step.Silent input (Failure.LacksBytesOr others)) (context : Context) :
    (Decode.within context step).Silent input (Failure.LacksBytesOr others) :=
  Notes.within_kind h context

theorem silent_block (count : Nat) :
    (block count).Silent input (Failure.LacksBytesOr others) := by
  apply silent_of_run
  intro pos
  by_cases hlt : input.size - pos < count
  · exact .inr ⟨{ fault := .endOfInput count pos }, pos, .inl rfl, fun _ => run_block_of_lt hlt⟩
  · have hsize : (input.extract pos (pos + count)).size = count := by
      rw [Array.size_extract]
      omega
    refine .inl ⟨⟨input.extract pos (pos + count), hsize⟩, pos + count, fun journal => ?_⟩
    rw [block, run_ofRun, dif_neg hlt]

theorem silent_natural (width : Nat) :
    (natural width).Silent input (Failure.LacksBytesOr others) := by
  apply Silent.bind silent_position
  intro start
  apply Silent.bind
  · exact ((silent_block width).bind fun _ => silent_pure _).within_kind _
  · exact fun digits => silent_pure _

theorem silent_word : word.Silent input (Failure.LacksBytesOr others) :=
  (silent_natural 4).bind fun _ => silent_pure _

theorem silent_uleb128 : uleb128.Silent input (Failure.LacksBytesOr others) := by
  apply silent_of_run
  intro pos
  cases hnumber : input.uleb128At? pos with
  | none =>
      refine .inr ⟨{ fault := .unterminatedNumber pos }, pos, .inl rfl, fun journal => ?_⟩
      exact run_uleb128_of_none hnumber
  | some found =>
      refine .inl ⟨found.1, found.2, fun journal => ?_⟩
      exact run_uleb128_of_some hnumber

theorem silent_untilNul : untilNul.Silent input (Failure.LacksBytesOr others) := by
  apply silent_of_run
  intro pos
  cases htext : input.untilNul pos with
  | none =>
      refine .inr ⟨{ fault := .unterminatedString pos }, pos, .inl rfl, fun journal => ?_⟩
      simp only [untilNul, run_ofRun, htext]
  | some text =>
      refine .inl ⟨text, pos + text.length + 1, fun journal => ?_⟩
      simp only [untilNul, run_ofRun, htext]

theorem silent_requireTable (name : String) (count itemSize : Nat) :
    (requireTable name count itemSize).Silent input (Failure.LacksBytesOr others) := by
  apply silent_of_run
  intro pos
  let needed := min (count * itemSize) maxSize
  by_cases hlt : input.size - pos < needed
  · refine .inr ⟨{ fault := .tableTooLarge name count pos needed (input.size - pos) }, pos,
      .inl rfl, fun journal => ?_⟩
    rw [requireTable, run_ofRun]
    exact if_pos hlt
  · refine .inl ⟨(), pos, fun journal => ?_⟩
    rw [requireTable, run_ofRun]
    exact if_neg hlt

/-! ### Steps elsewhere and steps in a row -/

/-- A step at another offset notes what it notes there, if the cursor can be put there at all. -/
theorem Notes.atOffset {step : Decode α}
    (h : step.Notes input (Failure.LacksBytesOr others) noted) (offset : Nat) :
    (atOffset offset step).Notes input (Failure.LacksBytesOr others) noted := by
  intro pos
  by_cases hle : offset ≤ input.size
  · obtain ⟨result, next, added, hrun, hending⟩ := h offset
    refine ⟨result, pos, added, fun journal => ?_, hending⟩
    rw [run_atOffset_of_le hle, hrun]
  · have hkind : Failure.LacksBytesOr others { fault := .seekPastEnd offset input.size } :=
      .inl rfl
    refine ⟨_, pos, {}, fun journal => ?_, .failure hkind Journal.tells_empty⟩
    rw [run_atOffset_of_lt (Nat.lt_of_not_le hle), Journal.append_empty]

theorem Silent.atOffset {step : Decode α}
    (h : step.Silent input (Failure.LacksBytesOr others)) (offset : Nat) :
    (atOffset offset step).Silent input (Failure.LacksBytesOr others) :=
  Notes.atOffset h offset

theorem notes_tabulateFrom {body : Nat → Decode α} {anomalies : α → Nat → List Anomaly}
    (h : ∀ index, (body index).Notes input cause fun item list => list = anomalies item index)
    (count index : Nat) (done : Array α) :
    (tabulateFrom body count index done).Notes input cause fun items list =>
      ∃ added : List α, items = done ++ added.toArray ∧
        list = (added.zipIdx index).flatMap fun (item, position) => anomalies item position := by
  -- On the items left to read, of which the first has the index `index`.
  induction count generalizing index done with
  | zero =>
      refine (notes_pure done).imp (fun _ => id) ?_
      rintro _ _ ⟨rfl, rfl⟩
      exact ⟨[], by simp, rfl⟩
  | succ count ih =>
      refine ((h index).bind fun item => ih (index + 1) (done.push item)).imp (fun _ => id) ?_
      rintro _ _ ⟨item, _, _, rfl, ⟨added, rfl, rfl⟩, rfl⟩
      exact ⟨item :: added, by simp, by rw [List.zipIdx_cons, List.flatMap_cons]⟩

/-- A tabulation notes what its items do, one after another. -/
theorem notes_tabulate {body : Nat → Decode α} {anomalies : α → Nat → List Anomaly}
    (h : ∀ index, (body index).Notes input cause fun item list => list = anomalies item index)
    (count : Nat) :
    (tabulate count body).Notes input cause fun items list =>
      list = items.toList.zipIdx.flatMap fun (item, index) => anomalies item index := by
  refine (notes_tabulateFrom h count 0 #[]).imp (fun _ => id) ?_
  rintro _ _ ⟨added, rfl, rfl⟩
  simp

theorem silent_tabulate {body : Nat → Decode α} (h : ∀ index, (body index).Silent input cause)
    (count : Nat) : (tabulate count body).Silent input cause :=
  (notes_tabulate h count).imp (fun _ => id) (by simp)

/-! ### Notes on the way -/

theorem notes_liftReporting {step : Reporting α} (h : step.Notes cause noted) :
    Notes (liftM step) input cause noted := by
  intro pos
  obtain ⟨result, added, hrun, hending⟩ := h
  refine ⟨result, pos, added, fun journal => ?_, hending⟩
  have hlift : run (liftM step) input ⟨pos, journal⟩ =
      ((step.run journal).1, ⟨pos, (step.run journal).2⟩) := rfl
  rw [hlift, hrun]

theorem notes_warn (anomaly : Anomaly) :
    Notes (liftM (Reporting.warn anomaly)) input cause fun _ anomalies => anomalies = [anomaly] :=
  notes_liftReporting (Reporting.notes_warn anomaly)

theorem silent_record {event : Event} (h : event.logLine.isTransition = false) :
    Silent (liftM (Reporting.record event)) input cause :=
  notes_liftReporting (Reporting.notes_record h)

theorem notes_liftExcept {result : Except Failure α}
    (h : ∀ failure, result = .error failure → cause failure) :
    Notes (liftM result) input cause
      fun value anomalies => result = .ok value ∧ anomalies = [] := by
  intro pos
  cases result with
  | ok a =>
      exact ⟨.ok a, pos, {}, fun journal => by rw [Journal.append_empty]; rfl,
        .value ⟨rfl, rfl⟩ Journal.tells_empty⟩
  | error failure =>
      exact ⟨.error failure, pos, {}, fun journal => by rw [Journal.append_empty]; rfl,
        .failure (h failure rfl) Journal.tells_empty⟩

theorem notes_forM_warn (anomaly : α → Anomaly) (list : List α) :
    Notes (list.forM fun a => Reporting.warn (anomaly a) : Decode Unit) input cause
      fun _ anomalies => anomalies = list.map anomaly := by
  induction list with
  | nil => exact silent_pure ()
  | cons a list ih =>
      refine ((notes_warn (anomaly a)).bind fun _ => ih).imp (fun _ => id) ?_
      rintro _ _ ⟨_, _, _, rfl, rfl, rfl⟩
      rfl

/-- A warning that may be due, and then a value. -/
theorem notes_warnFirst (anomaly? : Option Anomaly) (value : α) :
    Notes (match anomaly? with
      | some anomaly => do
        Reporting.warn anomaly
        pure value
      | none => pure value : Decode α) input cause
      fun found anomalies => found = value ∧ anomalies = anomaly?.toList := by
  cases anomaly? with
  | none => exact notes_pure value
  | some anomaly =>
      refine ((notes_warn anomaly).bind fun _ => notes_pure value).imp (fun _ => id) ?_
      rintro _ _ ⟨_, _, _, rfl, ⟨rfl, rfl⟩, rfl⟩
      exact ⟨rfl, rfl⟩

theorem notes_warnIf (c : Prop) [Decidable c] (anomaly : Anomaly) (value : α) :
    Notes (if c then do
        Reporting.warn anomaly
        pure value
      else pure value : Decode α) input cause
      fun found anomalies => found = value ∧ anomalies = if c then [anomaly] else [] := by
  split
  · exact notes_warnFirst (some anomaly) value
  · exact notes_pure value

/-- Reading a table notes what its items do, one after another. -/
theorem notes_table (table : Table) {item : Nat → Decode α} {anomalies : α → Nat → List Anomaly}
    (h : ∀ index, (item index).Notes input (Failure.LacksBytesOr table.otherKinds)
      fun value list => list = anomalies value index) (count offset : Nat) :
    (Decode.table table count offset item).Notes input (Failure.OfPool · table) fun items list =>
      list = items.toList.zipIdx.flatMap fun (item, index) => anomalies item index := by
  apply (silent_record (LogLine.isTransition_tableStarted _ _ _)).bind_notes
  intro _
  refine Notes.within (Notes.atOffset ?_ offset) _ fun _ => Failure.ofPool_within
  exact (silent_requireTable _ _ _).bind_notes fun _ => notes_tabulate h count

end Decode

end Dalvik
