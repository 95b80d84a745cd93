/-
The first number that is refused, and how the two policies part there.

A pass that passes over refused numbers always completes. One that ends at them does the same
up to the first of them, and from there on leaves everything as it was.

* `FirstRefusal` : the first refused number of some classes, with all that stands before and
  after it;
* `nonempty_firstRefusal` : where a number is refused there is a first one;
* `run_abort` : the pass that ends early is the one that does not, cut at the first refused
  number.

Design notes: up to the class of the refused number both passes agree, so one installer
describes what either of them remembers on arriving at that class. What happens inside of it
is the account of a stretch under the two policies; only the fields in front of the refused
number are in both.
-/
import FixedInit.Proofs.Range

namespace FixedInit

/-! ### How far the policies get -/

namespace ErrorPolicy

theorem left_skip (fields : List FieldDef) : skip.left fields = [] := by
  cases stopped : skip.left fields with
  | nil => rfl
  | cons field rest =>
    obtain ⟨aborts, -⟩ := refusal?_of_stops (stops_of_left stopped)
    cases aborts

theorem reached_skip (fields : List FieldDef) : skip.reached fields = fields :=
  reached_of_left (left_skip fields)

variable {ready rest : List FieldDef} {field : FieldDef} {cause : LiteralError}

theorem abort_stops (refused : field.refusal? = some cause) : abort.passes field = false := by
  simp [passes, refused]

theorem left_abort (accepted : ∀ field ∈ ready, field.refusal? = none)
    (refused : field.refusal? = some cause) :
    abort.left (ready ++ field :: rest) = field :: rest := by
  rw [left_append accepted]
  exact List.dropWhile_cons_of_neg (by simp [abort_stops refused])

theorem reached_abort (accepted : ∀ field ∈ ready, field.refusal? = none)
    (refused : field.refusal? = some cause) :
    abort.reached (ready ++ field :: rest) = ready := by
  have none_more : abort.reached (field :: rest) = [] :=
    List.takeWhile_cons_of_neg (by simp [abort_stops refused])
  rw [reached_append accepted, none_more, List.append_nil]

end ErrorPolicy

namespace Pass

variable {enums : List EnumDef} {installer : Installer} {classes : List ClassDef}

/-- A pass that passes over refused numbers visits all classes. -/
theorem failure_skip (sound : installer.Sound) (enums : List EnumDef)
    (classes : List ClassDef) :
    (range .skip enums installer classes).failure = none := by
  induction classes generalizing installer with
  | nil => rfl
  | cons c classes ih =>
    have complete :=
      (failure_eq_none_iff sound .skip enums c).mpr (ErrorPolicy.left_skip c.fields)
    rw [range_cons_of_complete complete]
    exact ih (sound_visit sound .skip enums c).1

/-! ### The first refused number -/

/-- The first field of some classes with a refused number: the classes and the fields in front
of it, where no number is refused, the field itself, and the fields and the classes after
it. -/
structure FirstRefusal (classes : List ClassDef) where
  before : List ClassDef
  owner : ClassDef
  later : List ClassDef
  ready : List FieldDef
  field : FieldDef
  rest : List FieldDef
  cause : LiteralError
  classes_eq : classes = before ++ owner :: later
  fields_eq : owner.fields = ready ++ field :: rest
  accepted_before : ∀ c ∈ before, ∀ field ∈ c.fields, field.refusal? = none
  accepted_ready : ∀ field ∈ ready, field.refusal? = none
  refused : field.refusal? = some cause

/-- The fields in front of the first refused number, each with its class. -/
def FirstRefusal.preceding (p : FirstRefusal classes) : List (ClassDef × FieldDef) :=
  fieldsOf p.before ++ p.ready.map fun field => (p.owner, field)

/-- What is remembered on arriving at the class of the refused number. -/
def FirstRefusal.arrival (p : FirstRefusal classes) (enums : List EnumDef)
    (installer : Installer) : Installer :=
  (range .skip enums installer p.before).installer

theorem nonempty_firstRefusal {c : ClassDef} {field : FieldDef} (hc : c ∈ classes)
    (hfield : field ∈ c.fields) (refused : field.refusal? ≠ none) :
    Nonempty (FirstRefusal classes) := by
  have refuses : ∃ c ∈ classes, (c.fields.any fun field => field.refusal?.isSome) = true :=
    ⟨c, hc, List.any_eq_true.mpr ⟨field, hfield, Option.isSome_iff_ne_none.mpr refused⟩⟩
  -- the first class with a refused number, and the first such number in it
  obtain ⟨owner, found⟩ := Option.isSome_iff_exists.mp (List.find?_isSome.mpr refuses)
  obtain ⟨owner_refuses, before, later, classes_eq, before_fine⟩ :=
    List.find?_eq_some_iff_append.mp found
  obtain ⟨first, found⟩ := Option.isSome_iff_exists.mp
    (List.find?_isSome.mpr (List.any_eq_true.mp owner_refuses))
  obtain ⟨first_refused, ready, rest, fields_eq, ready_fine⟩ :=
    List.find?_eq_some_iff_append.mp found
  obtain ⟨cause, first_refused⟩ := Option.isSome_iff_exists.mp first_refused
  refine ⟨⟨before, owner, later, ready, first, rest, cause, classes_eq, fields_eq, ?_, ?_,
    first_refused⟩⟩
  · intro c hc field hfield
    have fine := before_fine c hc
    rw [Bool.not_eq_true', List.any_eq_false] at fine
    exact Option.not_isSome_iff_eq_none.mp (fine field hfield)
  · intro field hfield
    have fine := ready_fine field hfield
    rw [Bool.not_eq_true'] at fine
    exact Option.not_isSome_iff_eq_none.mp (Bool.eq_false_iff.mp fine)

/-! ### The two passes at the first refused number -/

section

variable (sound : installer.Sound) (p : FirstRefusal classes) (enums : List EnumDef)

include sound

theorem failure_visit_abort :
    (visit .abort enums installer p.owner).failure = some p.cause := by
  rw [(visit_accounts sound .abort enums p.owner).failure_eq, p.fields_eq,
    ErrorPolicy.left_abort p.accepted_ready p.refused]
  exact p.refused

/-- Both passes settle the fields in front of the refused number alike. -/
theorem treated_abort :
    treated .abort enums installer p.owner =
      { p.owner with
        fields := (treated .skip enums installer p.owner).fields.take p.ready.length ++
          p.field :: p.rest
        statics :=
          p.owner.statics ++ if gains installer.fieldName p.owner p.ready then
            [Factory.member installer.fieldName]
          else [] } := by
  have ready_settled : (treated .skip enums installer p.owner).fields.take p.ready.length =
      p.ready.map (Site.of enums installer p.owner).settle := by
    rw [treated_eq sound, ErrorPolicy.reached_skip, ErrorPolicy.left_skip, List.append_nil,
      p.fields_eq, List.map_append]
    exact List.take_left' (List.length_map _)
  rw [ready_settled, treated_eq sound, p.fields_eq,
    ErrorPolicy.reached_abort p.accepted_ready p.refused,
    ErrorPolicy.left_abort p.accepted_ready p.refused]

theorem diagnostics_visit_skip :
    ∃ more, diagnostics (visit .skip enums installer p.owner).log =
      diagnostics (visit .abort enums installer p.owner).log ++ more := by
  rw [(visit_accounts sound .skip enums p.owner).diagnostics_eq,
    (visit_accounts sound .abort enums p.owner).diagnostics_eq, ErrorPolicy.reached_skip,
    p.fields_eq, ErrorPolicy.reached_abort p.accepted_ready p.refused, List.filterMap_append]
  exact ⟨_, rfl⟩

theorem range_skip :
    range .skip enums installer classes =
      (range .skip enums installer p.before).followedBy
        (range .skip enums (p.arrival enums installer) (p.owner :: p.later)) := by
  conv_lhs => rw [p.classes_eq]
  exact range_append (failure_skip sound enums p.before) _

theorem range_abort :
    range .abort enums installer classes =
      (range .skip enums installer p.before).followedBy
        (range .abort enums (p.arrival enums installer) (p.owner :: p.later)) := by
  have agree : range .abort enums installer p.before = range .skip enums installer p.before :=
    range_congr p.accepted_before .abort .skip
  have complete := failure_skip sound enums p.before
  rw [← agree] at complete
  conv_lhs => rw [p.classes_eq]
  rw [range_append complete, agree]
  rfl

theorem sound_arrival :
    (p.arrival enums installer).Sound ∧
      (p.arrival enums installer).fieldName = installer.fieldName :=
  sound_range sound .skip enums p.before

theorem log_range_abort :
    (range .abort enums installer classes).log = (range .skip enums installer p.before).log ++
      (visit .abort enums (p.arrival enums installer) p.owner).log := by
  have failed := failure_visit_abort (sound_arrival sound p enums).1 p enums
  rw [range_abort sound p, range_cons_of_failure failed]
  rfl

/-- The remarks of the pass that ends are those on the fields in front of the refused
number. -/
theorem subjects_abort :
    (diagnostics (range .abort enums installer classes).log).map subject =
      subjects p.preceding := by
  obtain ⟨sound', -⟩ := sound_arrival sound p enums
  rw [log_range_abort sound p, diagnostics_append, List.map_append,
    subjects_range sound (failure_skip sound enums p.before), subjects_visit sound',
    p.fields_eq, ErrorPolicy.reached_abort p.accepted_ready p.refused, ← subjects_append]
  rfl

/-- They open the remarks of the pass that goes on. -/
theorem diagnostics_abort :
    diagnostics (range .abort enums installer classes).log =
      (diagnostics (range .skip enums installer classes).log).take
        (p.preceding.filter (·.2.isEligible)).length := by
  obtain ⟨sound', -⟩ := sound_arrival sound p enums
  have count : (diagnostics (range .abort enums installer classes).log).length =
      (p.preceding.filter (·.2.isEligible)).length := by
    rw [← List.length_map subject, subjects_abort sound p, subjects, List.length_map]
  have complete :=
    (failure_eq_none_iff sound' .skip enums p.owner).mpr (ErrorPolicy.left_skip _)
  obtain ⟨more, visited⟩ := diagnostics_visit_skip sound' p enums
  rw [← count, range_skip sound p, range_cons_of_complete complete, Range.followedBy,
    diagnostics_append, diagnostics_append, visited, log_range_abort sound p,
    diagnostics_append, List.append_assoc, ← List.append_assoc]
  exact (List.take_left' rfl).symm

end

/-! ### The two policies -/

theorem failure_of_result {outcome : Outcome} {failure : Failure}
    (h : outcome.result = .error failure) : ∃ cause, failure = .literal cause := by
  unfold Outcome.result at h
  cases ended : outcome.failure with
  | none =>
    rw [ended] at h
    cases h
  | some cause =>
    rw [ended] at h
    exact ⟨cause, (Except.error.inj h).symm⟩

/-- How a pass that ended at the first refused number compares with one that passed over
it. -/
structure Cut (fieldName : String) (o : Outline) (p : FirstRefusal o.classes)
    (aborted skipped : Outcome) : Prop where
  result_eq : aborted.result = .error (.literal p.cause)
  diagnostics_eq : diagnostics aborted.log =
    (diagnostics skipped.log).take (p.preceding.filter (·.2.isEligible)).length
  enums_eq : aborted.outline.enums = o.enums
  classes_eq : ∃ before owner later, skipped.outline.classes = before ++ owner :: later ∧
    before.length = p.before.length ∧
    aborted.outline.classes = before ++
      { p.owner with
        fields := owner.fields.take p.ready.length ++ p.field :: p.rest
        statics :=
          p.owner.statics ++ if gains fieldName p.owner p.ready then
            [Factory.member fieldName] else [] } :: p.later

theorem cut_of_runs {options : Options} (enabled : options.enabled = true) {o : Outline}
    (p : FirstRefusal o.classes) :
    Cut options.factoryField o p (run { options with policy := .abort } o)
      (run { options with policy := .skip } o) := by
  have enabled_abort : ({ options with policy := .abort } : Options).enabled = true := enabled
  have enabled_skip : ({ options with policy := .skip } : Options).enabled = true := enabled
  have sound := Installer.sound_new options.factoryField
  obtain ⟨sound', named⟩ := sound_arrival sound p o.enums
  -- at the class of the refused number one pass ends and the other one goes on
  have ended := range_abort sound p o.enums
  rw [range_cons_of_failure (failure_visit_abort sound' p o.enums)] at ended
  have passed := range_skip sound p o.enums
  rw [range_cons_of_complete ((failure_eq_none_iff sound' .skip o.enums p.owner).mpr
    (ErrorPolicy.left_skip _))] at passed
  refine ⟨?_, ?_, ?_, ?_⟩
  · rw [Outcome.result, failure_run enabled_abort, whole, ended]
    rfl
  · rw [diagnostics_run enabled_abort, diagnostics_run enabled_skip]
    exact diagnostics_abort sound p o.enums
  · rw [outline_run enabled_abort]
  · rw [outline_run enabled_abort, outline_run enabled_skip, whole, whole, ended, passed]
    refine ⟨_, _, _, rfl, ?_, ?_⟩
    · exact length_range sound .skip o.enums p.before
    · have cut := treated_abort sound' p o.enums
      rw [named] at cut
      rw [Range.followedBy, cut]
      rfl

/-- **The early end cuts the pass at the first refused number.** A pass that passes over
refused numbers completes, with one remark on each field with a fixed value. Without a refused
number the policies agree in everything. At the first one the pass that ends there has told
and done what the other one tells and does up to it, and nothing else; and numbers are all
that a pass can fail on. -/
theorem run_abort {options : Options} (enabled : options.enabled = true) (o : Outline) :
    let aborted := run { options with policy := .abort } o
    let skipped := run { options with policy := .skip } o
    skipped.result = .ok true ∧
    (diagnostics skipped.log).map subject = subjects (fieldsOf o.classes) ∧
    ((∀ c ∈ o.classes, ∀ field ∈ c.fields, field.refusal? = none) → aborted = skipped) ∧
    (∀ c ∈ o.classes, ∀ field ∈ c.fields, field.refusal? ≠ none →
      Nonempty (FirstRefusal o.classes)) ∧
    (∀ p : FirstRefusal o.classes, Cut options.factoryField o p aborted skipped ∧
      p.cause.field = p.field.name ∧ p.field.fixedValue? = some p.cause.value) ∧
    (∀ (any : Options) (source : Outline) (failure : Failure),
      (run any source).result = .error failure → ∃ cause, failure = .literal cause) := by
  intro aborted skipped
  have enabled_skip : ({ options with policy := .skip } : Options).enabled = true := enabled
  have sound := Installer.sound_new options.factoryField
  have complete := failure_skip sound o.enums o.classes
  refine ⟨?_, ?_, fun fine => ?_, fun c hc field hfield => nonempty_firstRefusal hc hfield,
    fun p => ⟨cut_of_runs enabled p, names_of_refusal p.refused⟩,
    fun any source failure => failure_of_result⟩
  · exact (result_eq_ok_iff skipped).mpr ((failure_run enabled_skip o).trans complete)
  · rw [diagnostics_run enabled_skip]
    exact subjects_range sound complete
  · have agree : range .abort o.enums (.new options.factoryField) o.classes =
        range .skip o.enums (.new options.factoryField) o.classes :=
      range_congr fine .abort .skip
    simp only [aborted, skipped, run, agree]

/-- The count in `orders`, after a calendar value of its class. -/
def refusedCount : FirstRefusal orders.classes where
  before := []
  owner := orders.classes[0]
  later := [orders.classes[1]]
  ready := [fixedField "placed" (.boxed .calendar) "2024-01-01"]
  field := fixedField "count" (.boxed .int) "ten"
  rest := [fixedField "note" (.boxed .string) "none"]
  cause := .invalidInteger "count" "Integer" "ten" "invalid digit found in string"
  classes_eq := rfl
  fields_eq := rfl
  accepted_before := nofun
  accepted_ready := List.forall_mem_singleton.mpr rfl
  refused := rfl

theorem run_abort_orders :
    Cut "DATATYPE_FACTORY" orders refusedCount
        (run { Options.standard with policy := .abort } orders)
        (run { Options.standard with policy := .skip } orders) ∧
      (run { Options.standard with policy := .abort } orders).outline.classes.map
        (·.statics.map (·.name)) = [["DATATYPE_FACTORY"], ["DATATYPE_FACTORY"]] := by
  have enabled : Options.standard.enabled = true := rfl
  obtain ⟨-, -, -, -, cut, -⟩ := run_abort enabled orders
  exact ⟨(cut refusedCount).1, rfl⟩

end Pass

end FixedInit
