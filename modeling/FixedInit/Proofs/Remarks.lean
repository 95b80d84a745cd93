/-
One remark for each field that a pass treats.

* `severity_of_decline`, `grant_of_attach` : what kind of answer a field gets at its site;
* `reported_of_reached` : the remark on a field says what became of it;
* `failure_run_places` : a pass ends at the first place that it does not get past;
* `remarks_of_run` : the remarks of a pass are those on the fields with a fixed value, place
  by place.

Design notes: names of classes and of fields may repeat, so a remark belongs to a place and
not to a name. The remarks and the places are lists of one length, compared entry by entry.
-/
import FixedInit.Proofs.Attachment
import FixedInit.Proofs.Pairing

namespace FixedInit.Pass

variable {options : Options} {o : Outline} {p : Place} {site : Site} {field : FieldDef}
  {value message : String} {severity : Severity} {expr : Expr}

/-! ### Kinds of answers -/

theorem Answer.ofNumber_eq_decline {reading : Except LiteralError Expr}
    (h : ofNumber reading = .decline severity message) : severity = .warn := by
  cases reading with
  | ok expr => cases h
  | error cause =>
    cases h
    rfl

theorem Answer.ofFactory_eq_decline {grant : Except InstallError StaticRef}
    (h : ofFactory value grant = .decline severity message) :
    severity = .error ∧ ∃ cause, grant = .error cause := by
  cases grant with
  | ok ref => cases h
  | error cause =>
    cases h
    exact ⟨rfl, cause, rfl⟩

/-- A field is left alone with an error if it has a calendar value and its class no factory,
and with a warning otherwise. -/
theorem severity_of_decline (h : site.answer field value = .decline severity message) :
    severity = .error ∧ Target.of field.type = .calendar ∧
    (∃ cause, site.grant = .error cause) ∨
      severity = .warn ∧ Target.of field.type ≠ .calendar := by
  unfold Site.answer at h
  cases target : Target.of field.type with
  | calendar =>
    rw [target] at h
    obtain ⟨rfl, refused⟩ := Answer.ofFactory_eq_decline h
    exact .inl ⟨rfl, rfl, refused⟩
  | narrowInt width =>
    rw [target] at h
    exact .inr ⟨Answer.ofNumber_eq_decline h, nofun⟩
  | wideInt =>
    rw [target] at h
    exact .inr ⟨Answer.ofNumber_eq_decline h, nofun⟩
  | singleFloat =>
    rw [target] at h
    exact .inr ⟨Answer.ofNumber_eq_decline h, nofun⟩
  | doubleFloat =>
    rw [target] at h
    exact .inr ⟨Answer.ofNumber_eq_decline h, nofun⟩
  | enumeration name =>
    rw [target] at h
    simp only at h
    split at h
    · cases h
    · cases h
      exact .inr ⟨rfl, nofun⟩
  | unsupported name =>
    rw [target] at h
    cases h
    exact .inr ⟨rfl, nofun⟩
  | _ =>
    rw [target] at h
    cases h

theorem grant_of_attach (h : site.answer field value = .attach expr)
    (calendar : Target.of field.type = .calendar) : ∃ ref, site.grant = .ok ref := by
  rw [Site.answer, calendar] at h
  cases grant : site.grant with
  | ok ref => exact ⟨ref, rfl⟩
  | error cause =>
    rw [grant] at h
    cases h

/-! ### The remark on one field -/

/-- The request for the factory of the class of a place, as it is made for the field there: of
the class and with the installer that the fields in front of it leave. -/
def request (options : Options) (o : Outline) (p : Place) :
    Except InstallError Installation :=
  let done := stretch options.policy o.enums (arrival options o p) p.owner p.ready
  done.installer.install done.owner

/-- The fields in front of a place do not change the answer to the request. -/
theorem grant_siteOf (options : Options) (o : Outline) (p : Place) :
    (siteOf options o p).grant = (request options o p).map (·.ref) := by
  obtain ⟨sound, -⟩ := sound_arrivalAt options o p
  have done := stretch_accounts sound options.policy o.enums p.owner p.ready
  have same := congrArg Site.grant (Site.of_attemptIf sound o.enums
    ((options.policy.reached p.ready).any FieldDef.isCalendar) p.owner)
  rw [← done.installer_eq, ← done.owner_eq] at same
  refine Eq.trans same.symm ?_
  unfold request Site.of Installer.attempt
  cases Installer.install _ _ with
  | ok made => rfl
  | error cause => rfl

theorem grant_eq_error_iff {cause : InstallError} :
    (siteOf options o p).grant = .error cause ↔ request options o p = .error cause := by
  rw [grant_siteOf]
  cases request options o p with
  | ok made => simp [Except.map]
  | error other => simp [Except.map]

/-- A remark that says what became of the field at a place: an information for an initializer
that was attached, an error for a calendar value without a factory, and a warning for all
else. -/
structure Reported (options : Options) (o : Outline) (p : Place)
    (remark : Diagnostic) : Prop where
  className_eq : remark.className = p.owner.name
  field_eq : remark.field = p.field.name
  info_iff : remark.severity = .info ↔ ∃ expr, attached? options o p = some expr
  error_iff : remark.severity = .error ↔
    Target.of p.field.type = .calendar ∧ ∃ cause, request options o p = .error cause
  shows : ∀ expr, attached? options o p = some expr →
    p.field? (run options o).outline.classes = some { p.field with init := some expr } ∧
      ∃ opening, remark.message = opening ++ expr.render
  keeps : remark.severity ≠ .info → p.field? (run options o).outline.classes = some p.field

theorem reported_of_reached (enabled : options.enabled = true) (hp : p ∈ o.places)
    (reached : isReached options.policy p = true) {remark : Diagnostic}
    (h : (siteOf options o p).remark? p.field = some remark) :
    Reported options o p remark := by
  have attached := attached?_eq enabled hp
  have after := field?_run_attached enabled hp
  obtain ⟨answer, answered, rfl⟩ := Option.map_eq_some_iff.mp h
  obtain ⟨value, -, given⟩ := Option.map_eq_some_iff.mp answered
  rw [if_pos reached, answered, Option.bind_some] at attached
  cases answer with
  | attach expr =>
    have granted : Target.of p.field.type = .calendar →
        ¬ ∃ cause, request options o p = .error cause := by
      rintro calendar ⟨cause, refused⟩
      obtain ⟨ref, grant⟩ := grant_of_attach given calendar
      rw [grant_eq_error_iff.mpr refused] at grant
      cases grant
    refine ⟨rfl, rfl, iff_of_true rfl ⟨expr, attached⟩, ?_, ?_, fun other => absurd rfl other⟩
    · exact iff_of_false nofun fun failed => granted failed.1 failed.2
    · intro other shown
      rw [attached] at shown
      cases shown
      refine ⟨by rw [after, attached]; rfl, ?_⟩
      exact ⟨_, rfl⟩
  | decline severity message =>
    have unchanged : p.field? (run options o).outline.classes = some p.field := by
      rw [after, attached]
      rfl
    have silent : ∀ expr, attached? options o p ≠ some expr := fun expr shown => by
      rw [attached] at shown
      cases shown
    obtain ⟨rfl, calendar, cause, refused⟩ | ⟨rfl, other⟩ := severity_of_decline given
    · exact ⟨rfl, rfl, iff_of_false nofun fun shown => silent _ shown.choose_spec,
        iff_of_true rfl ⟨calendar, cause, grant_eq_error_iff.mp refused⟩,
        fun expr shown => absurd shown (silent expr), fun _ => unchanged⟩
    · exact ⟨rfl, rfl, iff_of_false nofun fun shown => silent _ shown.choose_spec,
        iff_of_false nofun fun failed => other failed.1,
        fun expr shown => absurd shown (silent expr), fun _ => unchanged⟩

/-! ### All remarks -/

theorem reported_reachedPlaces (enabled : options.enabled = true) (o : Outline) :
    List.Forall₂ (Reported options o)
      ((reachedPlaces options.policy o.places).filter (·.field.isEligible))
      (diagnostics (run options o).log) := by
  rw [diagnostics_run_places enabled]
  refine forall₂_filterMap (fun p => Site.remark?_isSome _ _) fun p reached remark h => ?_
  have hp : p ∈ o.places := List.takeWhile_subset _ reached
  exact reported_of_reached enabled hp (isReached_of_mem_reachedPlaces reached) h

/-- A pass ends at the first place that it does not get past. -/
theorem failure_run_places (enabled : options.enabled = true) (o : Outline) :
    (run options o).failure =
      (leftPlaces options.policy o.places).head?.bind (·.field.refusal?) := by
  have places_eq := fields_placesFrom [] o.classes
  rw [failure_run enabled, whole, failure_range (Installer.sound_new _), ← places_eq,
    ErrorPolicy.left, List.dropWhile_map, List.head?_map, Option.bind_map]
  rfl

theorem unchanged_of_left (enabled : options.enabled = true)
    (h : p ∈ leftPlaces options.policy o.places) :
    p.field? (run options o).outline.classes = some p.field ∧
    attached? options o p = none := by
  have hp : p ∈ o.places := List.dropWhile_subset _ h
  have missed := isReached_of_mem_leftPlaces h
  rw [field?_run enabled hp, attached?_eq enabled hp, missed]
  exact ⟨rfl, rfl⟩

/-- **One remark for each field that is treated.** A pass keeps what was recorded before and
appends its own remarks: one for each field with a fixed value, in order, and when it ends
early one for each of those in front of the field that ended it. Each says what became of its
field, and fields without a remark are left as they were. -/
theorem remarks_of_run (enabled : options.enabled = true) (o : Outline)
    (recorder : Recorder) :
    ∃ remarks, (recorder.record (run options o).log).entries = recorder.entries ++ remarks ∧
      (∀ completed, (run options o).result = .ok completed →
        List.Forall₂ (Reported options o) (o.places.filter (·.field.isEligible)) remarks) ∧
      (∀ failure, (run options o).result = .error failure →
        ∃ front stop back cause, o.places = front ++ stop :: back ∧
          stop.field.refusal? = some cause ∧ failure = .literal cause ∧
          (∀ p ∈ front, p.field.refusal? = none) ∧
          List.Forall₂ (Reported options o) (front.filter (·.field.isEligible)) remarks ∧
          ∀ p ∈ stop :: back, p.field? (run options o).outline.classes = some p.field ∧
            attached? options o p = none) ∧
      ∀ p ∈ o.places, p.field.isEligible = false →
        p.field? (run options o).outline.classes = some p.field ∧
        attached? options o p = none := by
  have reported := reported_reachedPlaces enabled o
  have split := reachedPlaces_append_leftPlaces options.policy o.places
  have ended := failure_run_places enabled o
  refine ⟨diagnostics (run options o).log, rfl, ?_, ?_, ?_⟩
  · intro completed result
    cases left : leftPlaces options.policy o.places with
    | nil =>
      rw [left, List.append_nil] at split
      rwa [split] at reported
    | cons stop back =>
      obtain ⟨-, cause, refused⟩ := ErrorPolicy.refusal?_of_stops (stops_of_leftPlaces left)
      rw [left, List.head?_cons, Option.bind_some, refused] at ended
      rw [Outcome.result, ended] at result
      cases result
  · intro failure result
    cases left : leftPlaces options.policy o.places with
    | nil =>
      rw [left] at ended
      rw [Outcome.result, ended] at result
      cases result
    | cons stop back =>
      obtain ⟨abort, cause, refused⟩ :=
        ErrorPolicy.refusal?_of_stops (stops_of_leftPlaces left)
      rw [left, List.head?_cons, Option.bind_some, refused] at ended
      rw [Outcome.result, ended] at result
      refine ⟨_, stop, back, cause, by rw [← left, split], refused,
        (Except.error.inj result).symm, ?_, reported,
        fun p hp => unchanged_of_left enabled (left ▸ hp)⟩
      intro p hp
      have passed := List.all_eq_true.mp (List.all_takeWhile (l := o.places)) p hp
      rw [abort] at passed
      exact Option.isNone_iff_eq_none.mp passed
  · intro p hp ineligible
    have silent : (siteOf options o p).answer? p.field = none := by
      have fixed : p.field.fixedValue? = none := by
        simpa [FieldDef.isEligible] using ineligible
      rw [Site.answer?, fixed]
      rfl
    have nothing : attached? options o p = none := by
      rw [attached?_eq enabled hp, silent]
      exact ite_self none
    rw [field?_run_attached enabled hp, nothing]
    exact ⟨rfl, rfl⟩

/-- The count in `orders` is no number and is passed over; all other fields get their
initializers. -/
theorem remarks_on_orders :
    List.Forall₂ (Reported { Options.standard with policy := .skip } orders) orders.places
        (diagnostics (run { Options.standard with policy := .skip } orders).log) ∧
      (diagnostics (run { Options.standard with policy := .skip } orders).log).map
        (·.severity) =
        [.info, .warn, .info, .info, .info] := by
  have enabled : ({ Options.standard with policy := .skip } : Options).enabled = true := rfl
  obtain ⟨remarks, told, reported, -, -⟩ := remarks_of_run enabled orders .empty
  refine ⟨?_, rfl⟩
  rw [List.append_cancel_left told]
  exact reported true rfl

end FixedInit.Pass
