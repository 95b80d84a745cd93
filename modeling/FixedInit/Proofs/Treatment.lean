/-
The treatment of one field, apart from the class and the installer that it may change.

A field with a fixed value is answered by its declared type, the catalog of enumerations and
the answer that a request for the factory of its class would get; these three make up the
`Site` of the field.

* `treat_eq` : a treatment fails exactly on a refused number, and otherwise gives the answer
  of the site;
* `settle_settle` : a field that was settled is not changed by settling it again.

Design notes: a number that is refused counts as an answer too, the remark that it was passed
over. The site then says what becomes of every field, and the policy only says how far a pass
gets.
-/
import FixedInit.Pass
import FixedInit.Proofs.Installation

namespace FixedInit

namespace FieldDef

/-- The reading of the fixed value of a field of a number type, by the literals of that
type. -/
def number? (field : FieldDef) : Option (Except LiteralError Expr) :=
  field.fixedValue?.bind fun value =>
    match Target.of field.type with
    | .narrowInt width => some (Literal.narrowInt field.name width value)
    | .wideInt => some (Literal.wideInt field.name value)
    | .singleFloat => some (Literal.singleFloat field.name value)
    | .doubleFloat => some (Literal.doubleFloat field.name value)
    | _ => none

/-- The failure of a fixed value that is no literal of the field's number type. -/
def refusal? (field : FieldDef) : Option LiteralError :=
  match field.number? with
  | some (.error cause) => some cause
  | _ => none

/-- Whether a field has a fixed calendar value. -/
def isCalendar (field : FieldDef) : Bool :=
  field.isEligible && Target.of field.type == .calendar

end FieldDef

/-- The text that was refused. -/
def LiteralError.value : LiteralError → String
  | invalidInteger _ _ value _ => value
  | invalidFloat _ _ value _ => value

namespace Pass

/-- The answer to a number: its literal, or the remark that it was passed over. -/
def Answer.ofNumber : Except LiteralError Expr → Answer
  | .ok expr => .attach expr
  | .error cause => .decline .warn (passedOverMessage cause)

/-- The answer to a calendar value, by what was answered to the request for a factory. -/
def Answer.ofFactory (value : String) : Except InstallError StaticRef → Answer
  | .ok ref => .attach (Factory.calendar ref value)
  | .error cause => .decline .error (uninstalledMessage cause)

/-- What the answer to a field depends on besides the field. -/
structure Site where
  enums : List EnumDef
  className : String
  grant : Except InstallError StaticRef

namespace Site

/-- The site of the fields of a class. -/
def of (enums : List EnumDef) (installer : Installer) (owner : ClassDef) : Site :=
  ⟨enums, owner.name, (installer.attempt owner).grant⟩

/-- The answer to a field with a fixed value. -/
def answer (site : Site) (field : FieldDef) (value : String) : Answer :=
  match Target.of field.type with
  | .text => .attach (.str value)
  | .boolean => .attach (.bool (Literal.boolean value))
  | .narrowInt width => .ofNumber (Literal.narrowInt field.name width value)
  | .wideInt => .ofNumber (Literal.wideInt field.name value)
  | .singleFloat => .ofNumber (Literal.singleFloat field.name value)
  | .doubleFloat => .ofNumber (Literal.doubleFloat field.name value)
  | .calendar => .ofFactory value site.grant
  | .enumeration name =>
    match Catalog.constant? site.enums name value with
    | some expr => .attach expr
    | none => .decline .warn (unmatchedMessage name value)
  | .unsupported type =>
    .decline .warn (unsupportedMessage site.className field.name type value)

/-- The answer to a field; one without a fixed value gets none. -/
def answer? (site : Site) (field : FieldDef) : Option Answer :=
  field.fixedValue?.map (site.answer field)

/-- The field after its answer. -/
def settle (site : Site) (field : FieldDef) : FieldDef :=
  match site.answer? field with
  | some answer => answer.applyTo field
  | none => field

/-- The remark on a field. -/
def remark? (site : Site) (field : FieldDef) : Option Diagnostic :=
  (site.answer? field).map (·.diagnostic site.className field)

end Site

/-! ### Fields without numbers and without calendars -/

theorem isEligible_eq_false {field : FieldDef} (h : field.fixedValue? = none) :
    field.isEligible = false := by
  simp [FieldDef.isEligible, h]

theorem isCalendar_of_ineligible {field : FieldDef} (h : field.fixedValue? = none) :
    field.isCalendar = false := by
  simp [FieldDef.isCalendar, isEligible_eq_false h]

theorem isCalendar_iff {field : FieldDef} :
    field.isCalendar = true ↔ field.isEligible = true ∧ Target.of field.type = .calendar := by
  simp [FieldDef.isCalendar]

/-! ### What a treatment gives -/

/-- A treatment fails on a refused number only. Otherwise it gives the answer of the site, and
makes an attempt to install if the field has a calendar value. -/
theorem treat_eq {enums : List EnumDef} {installer : Installer} {owner : ClassDef}
    {field : FieldDef} {value : String} (fixed : field.fixedValue? = some value) :
    treat enums installer owner field value =
      match field.refusal? with
      | some cause => .error cause
      | none =>
        .ok ⟨(Site.of enums installer owner).answer field value,
          (installer.attemptIf field.isCalendar owner).owner,
          (installer.attemptIf field.isCalendar owner).installer,
          (installer.attemptIf field.isCalendar owner).events⟩ := by
  have eligible : field.isEligible = true := by simp [FieldDef.isEligible, fixed]
  unfold treat FieldDef.refusal? FieldDef.number? FieldDef.isCalendar Site.answer Site.of
  rw [fixed, eligible]
  -- among numbers the reading decides, for a calendar the installer, for an enumeration the
  -- catalog
  cases Target.of field.type with
  | text => rfl
  | boolean => rfl
  | narrowInt width =>
    simp only [Option.bind_some]
    cases Literal.narrowInt field.name width value <;> rfl
  | wideInt =>
    simp only [Option.bind_some]
    cases Literal.wideInt field.name value <;> rfl
  | singleFloat =>
    simp only [Option.bind_some]
    cases Literal.singleFloat field.name value <;> rfl
  | doubleFloat =>
    simp only [Option.bind_some]
    cases Literal.doubleFloat field.name value <;> rfl
  | calendar =>
    simp only [Installer.attemptIf, Installer.attempt, Option.bind_some]
    cases installer.install owner <;> rfl
  | enumeration name =>
    simp only [Option.bind_some]
    cases Catalog.constant? enums name value <;> rfl
  | unsupported type => rfl

/-! ### Settled fields -/

namespace Site

variable (site : Site) (field : FieldDef)

/-- Settling a field changes nothing but its initializer. -/
theorem settle_eq : site.settle field = { field with init := (site.settle field).init } := by
  unfold settle
  cases site.answer? field with
  | none => rfl
  | some answer =>
    cases answer with
    | attach expr => rfl
    | decline severity message => rfl

theorem refusal?_settle : (site.settle field).refusal? = field.refusal? := by
  rw [settle_eq]
  rfl

theorem isCalendar_settle : (site.settle field).isCalendar = field.isCalendar := by
  rw [settle_eq]
  rfl

theorem remark?_settle : site.remark? (site.settle field) = site.remark? field := by
  rw [settle_eq]
  rfl

/-- An answer does not depend on the initializer, so the second one attaches what the first
one did. -/
theorem settle_settle : site.settle (site.settle field) = site.settle field := by
  have same : site.answer? (site.settle field) = site.answer? field := by
    rw [settle_eq]
    rfl
  -- attaching twice is attaching once, and declining changes nothing either time
  rw [settle, same]
  unfold settle
  cases site.answer? field with
  | none => rfl
  | some answer =>
    cases answer with
    | attach expr => rfl
    | decline severity message => rfl

theorem remark?_isSome : (site.remark? field).isSome = field.isEligible := by
  simp [remark?, answer?, FieldDef.isEligible]

theorem remark?_names {diagnostic : Diagnostic} (h : site.remark? field = some diagnostic) :
    diagnostic.className = site.className ∧ diagnostic.field = field.name := by
  obtain ⟨answer, -, rfl⟩ := Option.map_eq_some_iff.mp h
  cases answer with
  | attach expr => exact ⟨rfl, rfl⟩
  | decline severity message => exact ⟨rfl, rfl⟩

end Site

/-! ### Refused numbers -/

theorem answer?_of_number {field : FieldDef} {reading : Except LiteralError Expr}
    (h : field.number? = some reading) (site : Site) :
    site.answer? field = some (.ofNumber reading) := by
  unfold FieldDef.number? at h
  obtain ⟨value, fixed, h⟩ := Option.bind_eq_some_iff.mp h
  rw [Site.answer?, fixed, Option.map_some, Option.some_inj, Site.answer]
  cases target : Target.of field.type with
  | narrowInt width => rw [target] at h; cases h; rfl
  | wideInt => rw [target] at h; cases h; rfl
  | singleFloat => rw [target] at h; cases h; rfl
  | doubleFloat => rw [target] at h; cases h; rfl
  | _ => rw [target] at h; cases h

theorem number?_of_refusal {field : FieldDef} {cause : LiteralError}
    (h : field.refusal? = some cause) : field.number? = some (.error cause) := by
  unfold FieldDef.refusal? at h
  split at h
  · rename_i cause' eq
    rw [eq, Option.some.inj h]
  · cases h

theorem isCalendar_of_refusal {field : FieldDef} {cause : LiteralError}
    (h : field.refusal? = some cause) : field.isCalendar = false := by
  by_contra calendar
  obtain ⟨-, target⟩ := isCalendar_iff.mp (Bool.not_eq_false _ ▸ calendar)
  have number := number?_of_refusal h
  unfold FieldDef.number? at number
  obtain ⟨value, -, number⟩ := Option.bind_eq_some_iff.mp number
  rw [target] at number
  cases number

theorem settle_of_refusal {field : FieldDef} {cause : LiteralError}
    (h : field.refusal? = some cause) (site : Site) : site.settle field = field := by
  rw [Site.settle, answer?_of_number (number?_of_refusal h)]
  rfl

/-- A refusal names the field and the text that was refused. -/
theorem names_of_refusal {field : FieldDef} {cause : LiteralError}
    (h : field.refusal? = some cause) :
    cause.field = field.name ∧ field.fixedValue? = some cause.value := by
  have number := number?_of_refusal h
  unfold FieldDef.number? at number
  obtain ⟨value, fixed, number⟩ := Option.bind_eq_some_iff.mp number
  rw [fixed]
  cases target : Target.of field.type with
  | narrowInt width =>
    rw [target] at number
    have refused := Option.some.inj number
    unfold Literal.narrowInt at refused
    split at refused <;> cases refused
    exact ⟨rfl, rfl⟩
  | wideInt =>
    rw [target] at number
    have refused := Option.some.inj number
    unfold Literal.wideInt at refused
    split at refused <;> cases refused
    exact ⟨rfl, rfl⟩
  | singleFloat =>
    rw [target] at number
    have refused := Option.some.inj number
    unfold Literal.singleFloat at refused
    split at refused <;> cases refused
    exact ⟨rfl, rfl⟩
  | doubleFloat =>
    rw [target] at number
    have refused := Option.some.inj number
    unfold Literal.doubleFloat at refused
    split at refused <;> cases refused
    exact ⟨rfl, rfl⟩
  | _ =>
    rw [target] at number
    cases number

theorem remark?_of_refusal {field : FieldDef} {cause : LiteralError}
    (h : field.refusal? = some cause) (site : Site) :
    site.remark? field =
      some ⟨.warn, site.className, cause.field, passedOverMessage cause⟩ := by
  rw [Site.remark?, answer?_of_number (number?_of_refusal h), (names_of_refusal h).1]
  rfl

end Pass

end FixedInit
