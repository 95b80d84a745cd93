/-
What becomes of the classes of an outline.

The classes are treated one after the other until a field ends the pass. What is passed on
from class to class is the installer alone.

* `treated_eq` : a class after its visit, read off the class before it;
* `range_append` : a range of classes in two parts;
* `range_keeps` : what each visit keeps of an installer, a range keeps;
* `range_congr` : without a refused number the policy does not matter;
* `subjects_range` : a complete range makes one remark on each field with a fixed value, in
  order.
-/
import FixedInit.Proofs.Stretch
import Mathlib.Data.List.Forall2

namespace FixedInit.Pass

variable {policy : ErrorPolicy} {enums : List EnumDef} {installer : Installer} {c : ClassDef}
  {classes : List ClassDef}

/-- The stretch of all fields of a class. -/
def visit (policy : ErrorPolicy) (enums : List EnumDef) (installer : Installer)
    (c : ClassDef) : Stretch :=
  stretch policy enums installer c c.fields

/-- A class after its visit. -/
def treated (policy : ErrorPolicy) (enums : List EnumDef) (installer : Installer)
    (c : ClassDef) : ClassDef :=
  { (visit policy enums installer c).owner with
    fields := (visit policy enums installer c).fields }

theorem visit_accounts (sound : installer.Sound) (policy : ErrorPolicy)
    (enums : List EnumDef) (c : ClassDef) :
    (visit policy enums installer c).Accounts policy enums installer c c.fields :=
  stretch_accounts sound policy enums c c.fields

/-- Whether a pass that gets to some fields gives their class a factory member. -/
def gains (fieldName : String) (c : ClassDef) (reached : List FieldDef) : Bool :=
  reached.any FieldDef.isCalendar && Factory.free fieldName c

theorem hasMember_of_gains {fieldName : String} {reached : List FieldDef}
    (gained : gains fieldName c reached = true) : c.hasMember fieldName = false := by
  rw [gains, Bool.and_eq_true, Factory.free_iff] at gained
  exact gained.2.2

/-- A class after its visit is the class before it, with the fields that were reached settled
and at most one more static member. -/
theorem treated_eq (sound : installer.Sound) (policy : ErrorPolicy) (enums : List EnumDef)
    (c : ClassDef) :
    treated policy enums installer c =
      { c with
        fields := (policy.reached c.fields).map (Site.of enums installer c).settle ++
          policy.left c.fields
        statics := c.statics ++
          if gains installer.fieldName c (policy.reached c.fields) then
            [Factory.member installer.fieldName] else [] } := by
  have account := visit_accounts sound policy enums c
  rw [treated, account.owner_eq, account.fields_eq, Installer.owner_attemptIf sound]
  rfl

theorem statics_treated {fieldName : String} (sound : installer.Sound)
    (named : installer.fieldName = fieldName) (policy : ErrorPolicy) (enums : List EnumDef)
    (c : ClassDef) :
    (treated policy enums installer c).statics =
      c.statics ++
        if gains fieldName c (policy.reached c.fields) then [Factory.member fieldName]
        else [] := by
  rw [treated_eq sound, named]

section

variable (sound : installer.Sound) (policy : ErrorPolicy) (enums : List EnumDef)
    (c : ClassDef)

include sound

theorem static?_treated_of_gains
    (gained : gains installer.fieldName c (policy.reached c.fields) = true) :
    (treated policy enums installer c).static? installer.fieldName =
      some (Factory.member installer.fieldName) := by
  obtain ⟨-, unheld⟩ := ClassDef.hasMember_eq_false_iff.mp (hasMember_of_gains gained)
  rw [ClassDef.static?, statics_treated sound rfl, gained]
  exact Factory.static?_addStatic unheld

theorem static?_treated_of_not_gains
    (unchanged : gains installer.fieldName c (policy.reached c.fields) = false) :
    (treated policy enums installer c).static? installer.fieldName =
      c.static? installer.fieldName := by
  rw [ClassDef.static?, statics_treated sound rfl, unchanged]
  exact congrArg _ (List.append_nil _)

end

/-- A visit fails exactly if it leaves a field. -/
theorem failure_eq_none_iff (sound : installer.Sound) (policy : ErrorPolicy)
    (enums : List EnumDef) (c : ClassDef) :
    (visit policy enums installer c).failure = none ↔ policy.left c.fields = [] := by
  rw [(visit_accounts sound policy enums c).failure_eq, ErrorPolicy.refusal?_left_eq_none_iff]

theorem range_cons_of_complete
    (h : (visit policy enums installer c).failure = none) :
    range policy enums installer (c :: classes) =
      ⟨treated policy enums installer c ::
          (range policy enums (visit policy enums installer c).installer classes).classes,
        (range policy enums (visit policy enums installer c).installer classes).installer,
        (visit policy enums installer c).log ++
          (range policy enums (visit policy enums installer c).installer classes).log,
        (range policy enums (visit policy enums installer c).installer classes).failure⟩ := by
  unfold visit at h
  rw [range]
  simp only [h]
  rfl

theorem range_cons_of_failure {cause : LiteralError}
    (h : (visit policy enums installer c).failure = some cause) :
    range policy enums installer (c :: classes) =
      ⟨treated policy enums installer c :: classes,
        (visit policy enums installer c).installer,
        (visit policy enums installer c).log, some cause⟩ := by
  unfold visit at h
  rw [range]
  simp only [h]
  rfl

/-- A complete range of classes with a further one after it. -/
def Range.followedBy (first second : Range) : Range :=
  ⟨first.classes ++ second.classes, second.installer, first.log ++ second.log, second.failure⟩

theorem range_append {before : List ClassDef}
    (h : (range policy enums installer before).failure = none) (rest : List ClassDef) :
    range policy enums installer (before ++ rest) =
      (range policy enums installer before).followedBy
        (range policy enums (range policy enums installer before).installer rest) := by
  induction before generalizing installer with
  | nil => rfl
  | cons c before ih =>
    cases failed : (visit policy enums installer c).failure with
    | some cause =>
      rw [range_cons_of_failure failed] at h
      cases h
    | none =>
      rw [range_cons_of_complete failed] at h
      rw [List.cons_append, range_cons_of_complete failed,
        range_cons_of_complete failed, ih h]
      simp only [Range.followedBy, List.cons_append, List.append_assoc]

/-- A class behind a complete range leaves the installer of its visit. -/
theorem range_snoc {before : List ClassDef}
    (complete : (range policy enums installer before).failure = none)
    (visited :
      (visit policy enums (range policy enums installer before).installer c).failure = none) :
    (range policy enums installer (before ++ [c])).failure = none ∧
      (range policy enums installer (before ++ [c])).installer =
        (visit policy enums (range policy enums installer before).installer c).installer := by
  rw [range_append complete, range_cons_of_complete visited]
  exact ⟨rfl, rfl⟩

theorem sound_visit (sound : installer.Sound) (policy : ErrorPolicy) (enums : List EnumDef)
    (c : ClassDef) :
    (visit policy enums installer c).installer.Sound ∧
      (visit policy enums installer c).installer.fieldName = installer.fieldName := by
  rw [(visit_accounts sound policy enums c).installer_eq]
  exact ⟨Installer.sound_attemptIf sound _ c, Installer.fieldName_attemptIf sound _ c⟩

/-- What each visit of a class keeps of a sound installer, a range of classes keeps. -/
theorem range_keeps {P : Installer → Prop} (sound : installer.Sound)
    (step : ∀ later : Installer, later.Sound → P later →
      ∀ c ∈ classes, P (visit policy enums later c).installer) (start : P installer) :
    (range policy enums installer classes).installer.Sound ∧
      P (range policy enums installer classes).installer := by
  induction classes generalizing installer with
  | nil => exact ⟨sound, start⟩
  | cons c classes ih =>
    have sound' := (sound_visit sound policy enums c).1
    have visited := step installer sound start c List.mem_cons_self
    cases failed : (visit policy enums installer c).failure with
    | some cause =>
      rw [range_cons_of_failure failed]
      exact ⟨sound', visited⟩
    | none =>
      rw [range_cons_of_complete failed]
      exact ih sound'
        (fun later hlater h d hd => step later hlater h d (List.mem_cons_of_mem c hd)) visited

theorem sound_range (sound : installer.Sound) (policy : ErrorPolicy) (enums : List EnumDef)
    (classes : List ClassDef) :
    (range policy enums installer classes).installer.Sound ∧
      (range policy enums installer classes).installer.fieldName = installer.fieldName := by
  refine range_keeps (P := fun later => later.fieldName = installer.fieldName) sound ?_ rfl
  exact fun later hlater named c _ => (sound_visit hlater policy enums c).2.trans named

/-- What a visit does to a class, whatever a sound installer remembers, holds of every class
of a range; those after the end of the pass stay as they are. -/
theorem forall₂_range {R : ClassDef → ClassDef → Prop} (sound : installer.Sound)
    (unchanged : ∀ c, R c c)
    (step : ∀ later : Installer, later.Sound → later.fieldName = installer.fieldName →
      ∀ c, R c (treated policy enums later c)) (classes : List ClassDef) :
    List.Forall₂ R classes (range policy enums installer classes).classes := by
  induction classes generalizing installer with
  | nil => exact .nil
  | cons c classes ih =>
    obtain ⟨sound', named⟩ := sound_visit sound policy enums c
    cases failed : (visit policy enums installer c).failure with
    | some cause =>
      -- no class after `c` is visited
      rw [range_cons_of_failure failed]
      exact .cons (step installer sound rfl c) (List.forall₂_same.mpr fun d _ => unchanged d)
    | none =>
      rw [range_cons_of_complete failed]
      refine .cons (step installer sound rfl c) (ih sound' fun later hlater hnamed => ?_)
      exact step later hlater (hnamed.trans named)

/-- The same for a range that is complete, so that no class stays unvisited and no visit
fails. -/
theorem forall₂_range_of_complete {R : ClassDef → ClassDef → Prop} (sound : installer.Sound)
    (step : ∀ later : Installer, later.Sound → later.fieldName = installer.fieldName →
      ∀ c, policy.left c.fields = [] → R c (treated policy enums later c))
    (complete : (range policy enums installer classes).failure = none) :
    List.Forall₂ R classes (range policy enums installer classes).classes := by
  induction classes generalizing installer with
  | nil => exact .nil
  | cons c classes ih =>
    obtain ⟨sound', named⟩ := sound_visit sound policy enums c
    cases failed : (visit policy enums installer c).failure with
    | some cause =>
      rw [range_cons_of_failure failed] at complete
      cases complete
    | none =>
      have all_left := (failure_eq_none_iff sound policy enums c).mp failed
      rw [range_cons_of_complete failed] at complete ⊢
      refine .cons (step installer sound rfl c all_left) (ih sound' ?_ complete)
      exact fun later hlater hnamed => step later hlater (hnamed.trans named)

theorem length_range (sound : installer.Sound) (policy : ErrorPolicy) (enums : List EnumDef)
    (classes : List ClassDef) :
    (range policy enums installer classes).classes.length = classes.length := by
  have paired : List.Forall₂ (fun _ _ => True) classes
      (range policy enums installer classes).classes :=
    forall₂_range sound (fun _ => trivial) (fun _ _ _ _ => trivial) classes
  exact paired.length_eq.symm

/-! ### The policy -/

theorem stretch_congr {owner : ClassDef} {fields : List FieldDef}
    (h : ∀ field ∈ fields, field.refusal? = none) (p q : ErrorPolicy) :
    stretch p enums installer owner fields = stretch q enums installer owner fields := by
  induction fields generalizing installer owner with
  | nil => rfl
  | cons field fields ih =>
    -- both policies pass a field without a refused number, and take the same step there
    have accepted := h field List.mem_cons_self
    rw [stretch_cons_of_passes (p.passes_of_accepted accepted),
      stretch_cons_of_passes (q.passes_of_accepted accepted),
      ih fun field hfield => h field (List.mem_cons_of_mem _ hfield)]

theorem range_congr (h : ∀ c ∈ classes, ∀ field ∈ c.fields, field.refusal? = none)
    (p q : ErrorPolicy) :
    range p enums installer classes = range q enums installer classes := by
  induction classes generalizing installer with
  | nil => rfl
  | cons c classes ih =>
    have first : stretch p enums installer c c.fields =
        stretch q enums installer c c.fields :=
      stretch_congr (h c List.mem_cons_self) p q
    have rest : ∀ later, range p enums later classes = range q enums later classes :=
      fun _ => ih fun c hc => h c (List.mem_cons_of_mem _ hc)
    rw [range, range]
    simp only [first, rest]

/-! ### The fields that are remarked on -/

/-- The fields of classes, each with its class, in order. -/
def fieldsOf (classes : List ClassDef) : List (ClassDef × FieldDef) :=
  classes.flatMap fun c => c.fields.map fun field => (c, field)

/-- The fields with a fixed value among others, by the names of their class and of
themselves. -/
def subjects (fields : List (ClassDef × FieldDef)) : List (String × String) :=
  (fields.filter (·.2.isEligible)).map fun entry => (entry.1.name, entry.2.name)

/-- The names of the class and of the field that a remark is about. -/
def subject (remark : Diagnostic) : String × String :=
  (remark.className, remark.field)

theorem subjects_append (a b : List (ClassDef × FieldDef)) :
    subjects (a ++ b) = subjects a ++ subjects b := by
  rw [subjects, List.filter_append, List.map_append]
  rfl

theorem subjects_remarks {site : Site} (h : site.className = c.name)
    (fields : List FieldDef) :
    (fields.filterMap site.remark?).map subject =
      subjects (fields.map fun field => (c, field)) := by
  induction fields with
  | nil => rfl
  | cons field fields ih =>
    have eligible := site.remark?_isSome field
    rw [List.filterMap_cons, List.map_cons, subjects, List.filter_cons]
    cases remarked : site.remark? field with
    | none =>
      rw [remarked] at eligible
      simp only [← eligible]
      exact ih
    | some remark =>
      obtain ⟨class_name, field_name⟩ := site.remark?_names field remarked
      rw [remarked] at eligible
      simp only [← eligible, List.map_cons, subject, class_name, field_name, h]
      exact congrArg (_ :: ·) ih

theorem subjects_visit (sound : installer.Sound) (policy : ErrorPolicy) (enums : List EnumDef)
    (c : ClassDef) :
    (diagnostics (visit policy enums installer c).log).map subject =
      subjects ((policy.reached c.fields).map fun field => (c, field)) := by
  rw [(visit_accounts sound policy enums c).diagnostics_eq]
  exact subjects_remarks rfl _

theorem subjects_range (sound : installer.Sound)
    (h : (range policy enums installer classes).failure = none) :
    (diagnostics (range policy enums installer classes).log).map subject =
      subjects (fieldsOf classes) := by
  induction classes generalizing installer with
  | nil => rfl
  | cons c classes ih =>
    cases failed : (visit policy enums installer c).failure with
    | some cause =>
      rw [range_cons_of_failure failed] at h
      cases h
    | none =>
      have all_reached := ErrorPolicy.reached_of_left
        ((failure_eq_none_iff sound policy enums c).mp failed)
      rw [range_cons_of_complete failed] at h ⊢
      rw [diagnostics_append, List.map_append, subjects_visit sound, all_reached,
        ih (sound_visit sound policy enums c).1 h, ← subjects_append]
      rfl

/-! ### The whole pass -/

/-- The range of all classes of an outline, as an enabled pass treats it. -/
def whole (options : Options) (o : Outline) : Range :=
  range options.policy o.enums (.new options.factoryField) o.classes

/-- What is told at the end of a pass: its completion, if it is completed. -/
def closing (done : Range) : List Event :=
  match done.failure with
  | none => [.completed done.classes.length done.installer.count]
  | some _ => []

theorem diagnostics_closing (done : Range) : diagnostics (closing done) = [] := by
  unfold closing
  cases done.failure with
  | none => rfl
  | some cause => rfl

theorem result_eq_ok_iff (outcome : Outcome) :
    outcome.result = .ok true ↔ outcome.failure = none := by
  unfold Outcome.result
  cases outcome.failure with
  | none => simp
  | some cause => simp

section

variable {options : Options} (enabled : options.enabled = true) (o : Outline)

include enabled

theorem failure_run : (run options o).failure = (whole options o).failure := by
  rw [run, if_pos enabled]
  rfl

theorem outline_run :
    (run options o).outline = { o with classes := (whole options o).classes } := by
  rw [run, if_pos enabled]
  rfl

theorem log_run : (run options o).log =
    .started (eligibleCount o) :: ((whole options o).log ++ closing (whole options o)) := by
  rw [run, if_pos enabled]
  rfl

theorem diagnostics_run :
    diagnostics (run options o).log = diagnostics (whole options o).log := by
  rw [log_run enabled]
  show diagnostics ((whole options o).log ++ closing (whole options o)) = _
  rw [diagnostics_append, diagnostics_closing, List.append_nil]

/-- Installations are told of among the classes only. -/
theorem installing_mem_run {className field : String} {id : ClassId} :
    .installing className id field ∈ (run options o).log ↔
      .installing className id field ∈ courseEvents (whole options o).log := by
  have elsewhere : Event.installing className id field ∉ closing (whole options o) := by
    unfold closing
    cases (whole options o).failure with
    | none => simp
    | some cause => simp
  rw [log_run enabled, List.mem_cons, List.mem_append, courseEvents, List.mem_filter]
  constructor
  · rintro (started | told | closed)
    · cases started
    · exact ⟨told, rfl⟩
    · exact absurd closed elsewhere
  · exact fun told => .inr (.inl told.1)

end

/-! ### A small outline -/

/-- A field whose element has a fixed value. -/
def fixedField (name : String) (type : TypeRef) (value : String) : FieldDef :=
  ⟨name, type, none, some (.particle (.once (.element ⟨name, none, some value, none⟩)))⟩

/-- Two classes of one identity, the second with a factory of its own; the count of the first
one is no number. -/
def orders : Outline where
  classes := [
    { id := ⟨0⟩
      name := "Order"
      fields := [fixedField "placed" (.boxed .calendar) "2024-01-01",
        fixedField "count" (.boxed .int) "ten", fixedField "note" (.boxed .string) "none"]
      statics := [] },
    { id := ⟨0⟩
      name := "Item"
      fields := [fixedField "made" (.boxed .calendar) "2024-01-01",
        fixedField "unit" (.enumeration "Unit") "kg"]
      statics := [Factory.member "DATATYPE_FACTORY"] }]
  enums := [⟨"Unit", [⟨"KG", "kg"⟩]⟩]

end FixedInit.Pass
