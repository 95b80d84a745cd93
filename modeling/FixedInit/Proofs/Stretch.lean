/-
What becomes of the fields of one class.

A pass gets to the fields of a class in order, up to the first one at which the policy ends
it. Each field that it gets to is settled at the site of the class, and all of them together
cost one attempt to install.

* `stretch_cons_of_passes`, `stretch_cons_of_stops` : one step of a stretch;
* `stretch_accounts` : the fields, the class, the installer, the remarks and the failure of a
  stretch, read off the class as it was.

Design notes: the invariant of the induction is that the site stays the same. An attempt that
succeeded is remembered and its member declared, one that failed left no trace, so every later
request for the factory is answered like the first.
-/
import FixedInit.Proofs.Treatment

namespace FixedInit

/-! ### How far a pass gets -/

namespace ErrorPolicy

/-- Whether a pass goes on after a field. -/
def passes (policy : ErrorPolicy) (field : FieldDef) : Bool :=
  match policy with
  | abort => field.refusal?.isNone
  | skip => true

/-- The fields that a pass gets to. -/
def reached (policy : ErrorPolicy) (fields : List FieldDef) : List FieldDef :=
  fields.takeWhile policy.passes

/-- The fields from the one at which a pass ends. -/
def left (policy : ErrorPolicy) (fields : List FieldDef) : List FieldDef :=
  fields.dropWhile policy.passes

variable {policy : ErrorPolicy} {field : FieldDef} {fields : List FieldDef}

theorem passes_of_accepted (policy : ErrorPolicy) (h : field.refusal? = none) :
    policy.passes field = true := by
  cases policy with
  | abort => simp [passes, h]
  | skip => rfl

theorem refusal?_of_stops (h : policy.passes field = false) :
    policy = .abort ∧ ∃ cause, field.refusal? = some cause := by
  cases policy with
  | abort => exact ⟨rfl, Option.isSome_iff_exists.mp (by simpa [passes] using h)⟩
  | skip => cases h

theorem reached_append_left (policy : ErrorPolicy) (fields : List FieldDef) :
    policy.reached fields ++ policy.left fields = fields :=
  List.takeWhile_append_dropWhile

theorem reached_of_left (h : policy.left fields = []) : policy.reached fields = fields := by
  have whole := policy.reached_append_left fields
  rwa [h, List.append_nil] at whole

theorem stops_of_left {rest : List FieldDef} (h : policy.left fields = field :: rest) :
    policy.passes field = false := by
  have head := List.head?_dropWhile_not policy.passes fields
  rw [show fields.dropWhile policy.passes = field :: rest from h] at head
  exact head

theorem refusal?_left_eq_none_iff (policy : ErrorPolicy) (fields : List FieldDef) :
    (policy.left fields).head?.bind FieldDef.refusal? = none ↔ policy.left fields = [] := by
  cases left : policy.left fields with
  | nil => exact iff_of_true rfl rfl
  | cons field rest =>
    obtain ⟨-, cause, refused⟩ := refusal?_of_stops (stops_of_left left)
    simp [refused]

/-- A pass that gets past all fields up to some point gets to exactly those beyond it that it
gets to from there. -/
theorem reached_append {ready : List FieldDef} (h : ∀ field ∈ ready, field.refusal? = none)
    (policy : ErrorPolicy) (rest : List FieldDef) :
    policy.reached (ready ++ rest) = ready ++ policy.reached rest :=
  List.takeWhile_append_of_pos fun field hfield => policy.passes_of_accepted (h field hfield)

theorem left_append {ready : List FieldDef} (h : ∀ field ∈ ready, field.refusal? = none)
    (policy : ErrorPolicy) (rest : List FieldDef) :
    policy.left (ready ++ rest) = policy.left rest :=
  List.dropWhile_append_of_pos fun field hfield => policy.passes_of_accepted (h field hfield)

end ErrorPolicy

/-! ### Logs -/

theorem courseEvents_append (a b : List Event) :
    courseEvents (a ++ b) = courseEvents a ++ courseEvents b :=
  List.filter_append a b

theorem diagnostics_remarks (remarks : List Diagnostic) :
    diagnostics (remarks.map .remark) = remarks := by
  induction remarks with
  | nil => rfl
  | cons remark remarks ih => exact congrArg (remark :: ·) ih

theorem courseEvents_remarks (remarks : List Diagnostic) :
    courseEvents (remarks.map .remark) = [] := by
  induction remarks with
  | nil => rfl
  | cons remark remarks ih => exact ih

theorem diagnostics_of_course {events : List Event}
    (h : ∀ event ∈ events, event.diagnostic? = none) :
    diagnostics events = [] :=
  List.filterMap_eq_nil_iff.mpr h

theorem courseEvents_of_course {events : List Event}
    (h : ∀ event ∈ events, event.diagnostic? = none) : courseEvents events = events :=
  List.filter_eq_self.mpr fun event hevent => by rw [h event hevent]; rfl

namespace Pass

variable {policy : ErrorPolicy} {enums : List EnumDef} {installer : Installer}
    {owner : ClassDef} {field : FieldDef} {fields : List FieldDef}

/-! ### One step -/

theorem Site.of_attemptIf (sound : installer.Sound) (enums : List EnumDef) (needed : Bool)
    (owner : ClassDef) :
    Site.of enums (installer.attemptIf needed owner).installer
      (installer.attemptIf needed owner).owner = Site.of enums installer owner := by
  obtain ⟨granted, -, -, -⟩ := Installer.attemptIf_attemptIf installer owner needed true
  rw [Installer.grant_attemptIf, Installer.grant_attemptIf] at granted
  rw [Site.of, granted, Installer.owner_attemptIf sound]
  rfl

theorem stretch_cons_of_passes (h : policy.passes field = true) :
    stretch policy enums installer owner (field :: fields) =
      (stretch policy enums (installer.attemptIf field.isCalendar owner).installer
        (installer.attemptIf field.isCalendar owner).owner fields).after
        ((Site.of enums installer owner).settle field)
        ((installer.attemptIf field.isCalendar owner).events ++
          ((Site.of enums installer owner).remark? field).toList.map .remark) := by
  rw [stretch]
  cases fixed : field.fixedValue? with
  | none =>
    rw [isCalendar_of_ineligible fixed, Site.settle, Site.remark?, Site.answer?, fixed]
    rfl
  | some value =>
    simp only [treat_eq fixed]
    cases refused : field.refusal? with
    | none =>
      rw [Site.settle, Site.remark?, Site.answer?, fixed]
      rfl
    | some cause =>
      -- a pass that ends at a refused number does not get past it
      cases policy with
      | abort => simp [ErrorPolicy.passes, refused] at h
      | skip =>
        rw [isCalendar_of_refusal refused, settle_of_refusal refused,
          remark?_of_refusal refused]
        rfl

theorem stretch_cons_of_stops (h : policy.passes field = false) :
    stretch policy enums installer owner (field :: fields) =
      ⟨field :: fields, owner, installer, [], field.refusal?⟩ := by
  obtain ⟨rfl, cause, refused⟩ := ErrorPolicy.refusal?_of_stops h
  obtain ⟨-, fixed⟩ := names_of_refusal refused
  rw [stretch, fixed]
  simp only [treat_eq fixed, refused]

/-! ### All steps -/

/-- The account of a stretch, read off the class as it was. The fields that the pass gets to
are settled where they stand, and one attempt to install serves them all. -/
structure Stretch.Accounts (out : Stretch) (policy : ErrorPolicy) (enums : List EnumDef)
    (installer : Installer) (owner : ClassDef) (fields : List FieldDef) : Prop where
  fields_eq : out.fields =
    (policy.reached fields).map (Site.of enums installer owner).settle ++ policy.left fields
  failure_eq : out.failure = (policy.left fields).head?.bind FieldDef.refusal?
  owner_eq : out.owner =
    (installer.attemptIf ((policy.reached fields).any FieldDef.isCalendar) owner).owner
  installer_eq : out.installer =
    (installer.attemptIf ((policy.reached fields).any FieldDef.isCalendar) owner).installer
  diagnostics_eq : diagnostics out.log =
    (policy.reached fields).filterMap (Site.of enums installer owner).remark?
  courseEvents_eq : courseEvents out.log =
    (installer.attemptIf ((policy.reached fields).any FieldDef.isCalendar) owner).events

theorem stretch_accounts (sound : installer.Sound) (policy : ErrorPolicy)
    (enums : List EnumDef) (owner : ClassDef) (fields : List FieldDef) :
    (stretch policy enums installer owner fields).Accounts policy enums installer
      owner fields := by
  -- what the attempt for one field leaves behind is where the later fields start
  induction fields generalizing installer owner with
  | nil => exact ⟨rfl, rfl, rfl, rfl, rfl, rfl⟩
  | cons field fields ih =>
    cases h : policy.passes field with
    | false =>
      have none_reached : policy.reached (field :: fields) = [] :=
        List.takeWhile_cons_of_neg (by simp [h])
      have all_left : policy.left (field :: fields) = field :: fields :=
        List.dropWhile_cons_of_neg (by simp [h])
      rw [stretch_cons_of_stops h]
      refine ⟨?_, ?_, ?_, ?_, ?_, ?_⟩ <;> simp only [none_reached, all_left] <;> rfl
    | true =>
      have reached_cons : policy.reached (field :: fields) = field :: policy.reached fields :=
        List.takeWhile_cons_of_pos h
      have left_cons : policy.left (field :: fields) = policy.left fields :=
        List.dropWhile_cons_of_pos h
      have rest := ih (Installer.sound_attemptIf sound field.isCalendar owner)
        (installer.attemptIf field.isCalendar owner).owner
      rw [stretch_cons_of_passes h]
      -- the attempts for the first field and for the later ones make up one attempt
      obtain ⟨-, same_owner, same_installer, same_events⟩ :=
        Installer.attemptIf_attemptIf installer owner field.isCalendar
          ((policy.reached fields).any FieldDef.isCalendar)
      have same_site := Site.of_attemptIf sound enums field.isCalendar owner
      have silent := diagnostic?_of_mem_attemptIf installer field.isCalendar owner
      refine ⟨?_, ?_, ?_, ?_, ?_, ?_⟩
      · rw [Stretch.after, rest.fields_eq, same_site, reached_cons, left_cons]
        rfl
      · rw [Stretch.after, rest.failure_eq, left_cons]
      · rw [Stretch.after, rest.owner_eq, same_owner, reached_cons]
        rfl
      · rw [Stretch.after, rest.installer_eq, same_installer, reached_cons]
        rfl
      · rw [Stretch.after, diagnostics_append, diagnostics_append, rest.diagnostics_eq,
          same_site, diagnostics_of_course silent, diagnostics_remarks, reached_cons,
          List.filterMap_cons]
        cases (Site.of enums installer owner).remark? field with
        | none => rfl
        | some remark => rfl
      · rw [Stretch.after, courseEvents_append, courseEvents_append, rest.courseEvents_eq,
          courseEvents_of_course silent, courseEvents_remarks, List.append_nil, same_events,
          reached_cons]
        rfl

end Pass

end FixedInit
