/-
The pass: every field with a fixed value is given an initializer of its type.

The classes are treated in order and the fields of a class in order. A value that is no
literal of its field's type ends the pass or is passed over, as the policy says; all other
difficulties are only reported.

* `run_disabled` : a disabled pass leaves the outline as it is;
* `fields_of_stretch` : a pass adds, removes and reorders no field.

Design notes: a stretch of fields is treated by recursion, so that what a field leads to
stands in front of what the later ones lead to. When the pass ends early the rest of the
stretch is returned untouched.
-/
import FixedInit.Factory
import FixedInit.Literal
import FixedInit.Options

namespace FixedInit.Pass

/-! ### One field -/

/-- What a field with a fixed value is answered. -/
inductive Answer
  /-- The initializer of the field. -/
  | attach (expr : Expr)
  /-- No initializer, with the reason. -/
  | decline (severity : Severity) (message : String)

/-- The treatment of one field: the answer, and the class, the installer and the events after
it. -/
structure Treatment where
  answer : Answer
  owner : ClassDef
  installer : Installer
  events : List Event

/-- The reason for leaving a field of a type without literals alone. -/
def unsupportedMessage (className field type value : String) : String :=
  "Did not create default value for field " ++ className ++ "." ++ field ++
    ". Don't know how to create default value expression for fields of type " ++ type ++
    ". Default value of \"" ++ value ++ "\" specified in schema"

/-- The reason for leaving a field without the factory alone. -/
def uninstalledMessage (cause : InstallError) : String :=
  "Failed to create code: " ++ cause.message

/-- The reason for leaving a field without a constant alone. -/
def unmatchedMessage (enumeration value : String) : String :=
  "Could not find member on enum " ++ enumeration ++ " with value: " ++ value

/-- The remark on a value that was passed over. -/
def passedOverMessage (cause : LiteralError) : String :=
  "Did not create default value: " ++ cause.message

/-- The remark on a field that is given an initializer. -/
def attachedMessage (target : Target) (className field : String) (expr : Expr) : String :=
  "Initializing " ++ target.label ++ " variable " ++ className ++ "." ++ field ++ " to " ++
    expr.render

/-- Treats a field with a fixed value. Only a calendar value may change the class and the
installer, and only a malformed number is an error. -/
def treat (enums : List EnumDef) (installer : Installer) (owner : ClassDef) (field : FieldDef)
    (value : String) : Except LiteralError Treatment :=
  let answered (answer : Answer) : Treatment := ⟨answer, owner, installer, []⟩
  let attached (expr : Expr) : Treatment := answered (.attach expr)
  match Target.of field.type with
  | .text => .ok (attached (.str value))
  | .boolean => .ok (attached (.bool (Literal.boolean value)))
  | .narrowInt width => (Literal.narrowInt field.name width value).map attached
  | .wideInt => (Literal.wideInt field.name value).map attached
  | .singleFloat => (Literal.singleFloat field.name value).map attached
  | .doubleFloat => (Literal.doubleFloat field.name value).map attached
  | .calendar =>
    match installer.install owner with
    | .ok made =>
      .ok ⟨.attach (Factory.calendar made.ref value), made.owner, made.installer, made.events⟩
    | .error cause => .ok (answered (.decline .error (uninstalledMessage cause)))
  | .enumeration name =>
    match Catalog.constant? enums name value with
    | some expr => .ok (attached expr)
    | none => .ok (answered (.decline .warn (unmatchedMessage name value)))
  | .unsupported type =>
    .ok (answered (.decline .warn (unsupportedMessage owner.name field.name type value)))

/-- The remark that goes with an answer. -/
def Answer.diagnostic (answer : Answer) (className : String)
    (field : FieldDef) : Diagnostic :=
  match answer with
  | attach expr =>
    ⟨.info, className, field.name,
      attachedMessage (Target.of field.type) className field.name expr⟩
  | decline severity message => ⟨severity, className, field.name, message⟩

/-- The field after an answer. -/
def Answer.applyTo (answer : Answer) (field : FieldDef) : FieldDef :=
  match answer with
  | attach expr => { field with init := some expr }
  | decline _ _ => field

/-! ### The fields of a class -/

/-- The outcome of a stretch of fields of one class: the fields, the class with the members
that it gained, the installer, the events, and the error that ended the pass. -/
structure Stretch where
  fields : List FieldDef
  owner : ClassDef
  installer : Installer
  log : List Event
  failure : Option LiteralError

/-- A stretch with one more field and its events in front. -/
def Stretch.after (rest : Stretch) (field : FieldDef) (events : List Event) : Stretch :=
  { rest with fields := field :: rest.fields, log := events ++ rest.log }

/-- Treats the fields of a class from some point on. -/
def stretch (policy : ErrorPolicy) (enums : List EnumDef) (installer : Installer)
    (owner : ClassDef) :
    List FieldDef → Stretch
  | [] => ⟨[], owner, installer, [], none⟩
  | field :: fields =>
    match field.fixedValue? with
    | none => (stretch policy enums installer owner fields).after field []
    | some value =>
      match treat enums installer owner field value with
      | .ok treatment =>
        (stretch policy enums treatment.installer treatment.owner fields).after
          (treatment.answer.applyTo field)
          (treatment.events ++ [.remark (treatment.answer.diagnostic owner.name field)])
      | .error cause =>
        match policy with
        | .abort => ⟨field :: fields, owner, installer, [], some cause⟩
        | .skip =>
          (stretch policy enums installer owner fields).after field
            [.remark ⟨.warn, owner.name, cause.field, passedOverMessage cause⟩]

/-! ### The classes of an outline -/

/-- The outcome of a range of classes. -/
structure Range where
  classes : List ClassDef
  installer : Installer
  log : List Event
  failure : Option LiteralError

/-- Treats classes from some point on. -/
def range (policy : ErrorPolicy) (enums : List EnumDef) (installer : Installer) :
    List ClassDef → Range
  | [] => ⟨[], installer, [], none⟩
  | c :: classes =>
    let first := stretch policy enums installer c c.fields
    let treated := { first.owner with fields := first.fields }
    match first.failure with
    | some cause => ⟨treated :: classes, first.installer, first.log, some cause⟩
    | none =>
      let rest := range policy enums first.installer classes
      ⟨treated :: rest.classes, rest.installer, first.log ++ rest.log, rest.failure⟩

/-! ### The whole pass -/

/-- The outcome of a pass: the error that ended it, the outline after it, and what it told. -/
structure Outcome where
  failure : Option LiteralError
  outline : Outline
  log : List Event

/-- The result of a pass for the host: true, or the failure. -/
def Outcome.result (outcome : Outcome) : Except Failure Bool :=
  match outcome.failure with
  | none => .ok true
  | some cause => .error (.literal cause)

/-- The number of fields with a fixed value. -/
def eligibleCount (o : Outline) : Nat :=
  (o.fields.filter (·.2.isEligible)).length

/-- Runs the pass. -/
def run (options : Options) (o : Outline) : Outcome :=
  if options.enabled then
    let treated := range options.policy o.enums (.new options.factoryField) o.classes
    let closing := match treated.failure with
      | none => [Event.completed treated.classes.length treated.installer.count]
      | some _ => []
    ⟨treated.failure, { o with classes := treated.classes },
      .started (eligibleCount o) :: treated.log ++ closing⟩
  else ⟨none, o, [.disabled]⟩

theorem run_disabled {options : Options} (h : options.enabled = false) (o : Outline) :
    run options o = ⟨none, o, [.disabled]⟩ := by
  simp [run, h]

theorem fields_of_stretch (policy : ErrorPolicy) (enums : List EnumDef)
    (installer : Installer) (owner : ClassDef) (fields : List FieldDef) :
    (stretch policy enums installer owner fields).fields.map
      (fun field => (field.name, field.type, field.component)) =
      fields.map fun field => (field.name, field.type, field.component) := by
  induction fields generalizing installer owner with
  | nil => rfl
  | cons field fields ih =>
    unfold stretch
    split
    · simp [Stretch.after, ih]
    · split
      · rename_i treatment _
        cases h : treatment.answer <;> simp [Stretch.after, Answer.applyTo, ih]
      · split
        · rfl
        · simp [Stretch.after, ih]

end FixedInit.Pass
