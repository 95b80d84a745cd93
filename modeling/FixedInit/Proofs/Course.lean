/-
The course of a pass, as the pass itself tells it.

A pass announces the number of fields with a fixed value, names each class to which it gives a
factory, and counts the classes and the factories once it is complete. The first number is
taken before any field is treated and the last one from what the installer remembers at the
end; both agree with what the pass did.

* `courseEvents_range` : besides its remarks a range of classes tells of the classes that
  grew;
* `mem_identities_range` : what is remembered after a complete range are the identities of the
  classes that were supplied with a factory for a calendar value;
* `course_of_run` : the first event of a pass, its installations, and its last event.

Design notes: an identity is remembered once for all classes that share it, and no matter
whether a factory was added or found. So factories are counted by identities, and there may be
more of them or fewer than installations.
-/
import FixedInit.Proofs.Attachment
import FixedInit.Proofs.RememberedIdentities

namespace FixedInit.Pass

variable {policy : ErrorPolicy} {enums : List EnumDef} {installer : Installer} {c : ClassDef}
  {classes : List ClassDef} {options : Options} {o : Outline} {p : Place} {id : ClassId}

/-! ### The fields to treat -/

theorem eligibleCount_eq_countP (o : Outline) :
    eligibleCount o = (o.classes.flatMap (·.fields)).countP (·.isEligible) := by
  have fields : o.classes.flatMap (·.fields) = o.fields.map (·.2) := by
    simp [Outline.fields, List.map_flatMap]
  rw [eligibleCount, fields, List.countP_map, ← List.countP_eq_length_filter]
  rfl

theorem length_diagnostics_run (enabled : options.enabled = true)
    (complete : (run options o).failure = none) :
    (diagnostics (run options o).log).length = eligibleCount o := by
  rw [failure_run enabled] at complete
  have remarked := congrArg List.length (subjects_range (Installer.sound_new _) complete)
  rw [List.length_map, subjects, List.length_map] at remarked
  rw [diagnostics_run enabled]
  exact remarked

/-! ### The classes that grow -/

/-- What is told of the classes that have more static members afterwards, in the order of the
classes. -/
def installations (fieldName : String) (before after : List ClassDef) : List Event :=
  ((before.zip after).filter fun (c, treated) =>
    c.statics.length < treated.statics.length).map
      fun (c, _) => .installing c.name c.id fieldName

theorem installations_cons (fieldName : String) (c treated : ClassDef)
    (before after : List ClassDef) :
    installations fieldName (c :: before) (treated :: after) =
      (if c.statics.length < treated.statics.length then [.installing c.name c.id fieldName]
        else []) ++ installations fieldName before after := by
  unfold installations
  by_cases grown : c.statics.length < treated.statics.length
  · simp [grown]
  · simp [grown]

theorem installations_self (fieldName : String) (classes : List ClassDef) :
    installations fieldName classes classes = [] := by
  induction classes with
  | nil => rfl
  | cons c classes ih =>
    rw [installations_cons, ih, if_neg (Nat.lt_irrefl _), List.append_nil]

theorem courseEvents_visit (sound : installer.Sound) (policy : ErrorPolicy)
    (enums : List EnumDef) (c : ClassDef) :
    courseEvents (visit policy enums installer c).log =
      if c.statics.length < (treated policy enums installer c).statics.length then
        [.installing c.name c.id installer.fieldName] else [] := by
  rw [(visit_accounts sound policy enums c).courseEvents_eq, Installer.events_attemptIf sound,
    statics_treated sound rfl, List.length_append]
  show (if gains installer.fieldName c (policy.reached c.fields) = true then _ else _) = _
  -- the class is told of if it gains the factory, and that is when it grows
  cases gains installer.fieldName c (policy.reached c.fields) with
  | true => simp
  | false => simp

theorem courseEvents_range (sound : installer.Sound) (policy : ErrorPolicy)
    (enums : List EnumDef) (classes : List ClassDef) :
    courseEvents (range policy enums installer classes).log =
      installations installer.fieldName classes
        (range policy enums installer classes).classes := by
  induction classes generalizing installer with
  | nil => rfl
  | cons c classes ih =>
    have told := courseEvents_visit sound policy enums c
    cases failed : (visit policy enums installer c).failure with
    | some cause =>
      -- the classes behind `c` are left as they are
      rw [range_cons_of_failure failed, installations_cons, installations_self,
        List.append_nil]
      exact told
    | none =>
      obtain ⟨sound', named⟩ := sound_visit sound policy enums c
      rw [range_cons_of_complete failed, courseEvents_append, told, ih sound', named,
        installations_cons]

/-! ### The classes that are supplied -/

theorem tidy_range (sound : installer.Sound) (tidy : installer.Tidy) (policy : ErrorPolicy)
    (enums : List EnumDef) (classes : List ClassDef) :
    (range policy enums installer classes).installer.Tidy := by
  refine (range_keeps sound ?_ tidy).2
  intro later hlater tidy c _
  rw [(visit_accounts hlater policy enums c).installer_eq]
  exact Installer.tidy_attemptIf tidy _ c

/-- Whether a field has a calendar value and its class a factory for it. -/
def Site.supplies (site : Site) (field : FieldDef) : Bool :=
  field.isCalendar && site.grant.isOk

theorem identities_visit (sound : installer.Sound)
    (complete : (visit policy enums installer c).failure = none) :
    (visit policy enums installer c).installer.identities =
      if c.fields.any (Site.of enums installer c).supplies then
        insert c.id installer.identities
      else installer.identities := by
  have all_reached :=
    ErrorPolicy.reached_of_left ((failure_eq_none_iff sound policy enums c).mp complete)
  have supplied : c.fields.any (Site.of enums installer c).supplies =
      (c.fields.any FieldDef.isCalendar && (installer.attempt c).grant.isOk) :=
    List.and_any_distrib_right.symm
  rw [(visit_accounts sound policy enums c).installer_eq, Installer.identities_attemptIf,
    all_reached, supplied]

theorem exists_supplied_in {before : List ClassDef} :
    (∃ p ∈ placesIn before c [] c.fields,
        (siteFrom policy enums installer p).supplies p.field = true ∧ p.owner.id = id) ↔
      c.fields.any
        (Site.of enums (range policy enums installer before).installer c).supplies = true ∧
        id = c.id := by
  -- all fields of a class are at one site
  rw [List.any_eq_true]
  constructor
  · rintro ⟨p, hp, supplied, rfl⟩
    obtain ⟨rfl, rfl, more, rest, -, split⟩ := mem_placesIn_iff.mp hp
    exact ⟨⟨p.field, by simp [split], supplied⟩, rfl⟩
  · rintro ⟨⟨field, hfield, supplied⟩, rfl⟩
    obtain ⟨ready, rest, split⟩ := List.append_of_mem hfield
    exact ⟨⟨before, c, ready, field⟩,
      mem_placesIn_iff.mpr ⟨rfl, rfl, ready, rest, rfl, split⟩, supplied, rfl⟩

/-- After a complete range the identities are remembered that were before, and those of the
classes with a field that is supplied. -/
theorem mem_identities_range (sound : installer.Sound) (before : List ClassDef)
    (complete : (range policy enums installer before).failure = none)
    (further : (range policy enums
      (range policy enums installer before).installer classes).failure = none)
    (id : ClassId) :
    id ∈ (range policy enums (range policy enums installer before).installer
      classes).installer.identities ↔
      id ∈ (range policy enums installer before).installer.identities ∨
        ∃ p ∈ placesFrom before classes,
          (siteFrom policy enums installer p).supplies p.field = true ∧ p.owner.id = id := by
  induction classes generalizing before with
  | nil => simp [range, placesFrom]
  | cons c classes ih =>
    have sound' := (sound_range sound policy enums before).1
    cases visited :
      (visit policy enums (range policy enums installer before).installer c).failure with
    | some cause =>
      rw [range_cons_of_failure visited] at further
      cases further
    | none =>
      -- the next class is arrived at with what this one leaves
      obtain ⟨complete', next⟩ := range_snoc complete visited
      rw [range_cons_of_complete visited] at further ⊢
      have following := ih (before ++ [c]) complete' (by rw [next]; exact further)
      rw [next, identities_visit sound' visited] at following
      simp only [placesFrom, List.mem_append, or_and_right, exists_or]
      rw [following, exists_supplied_in, ← or_assoc]
      refine or_congr_left ?_
      cases c.fields.any
        (Site.of enums (range policy enums installer before).installer c).supplies with
      | true => simp [or_comm]
      | false => simp

/-! ### The whole course -/

/-- The identities of the classes in which a pass initializes a field with a calendar
value. -/
def suppliedIds (options : Options) (o : Outline) : Finset ClassId :=
  ((o.places.filter fun p =>
    Target.of p.field.type = .calendar ∧ (attached? options o p).isSome).map
      (·.owner.id)).toFinset

theorem mem_suppliedIds_iff : id ∈ suppliedIds options o ↔
    ∃ p ∈ o.places,
      (Target.of p.field.type = .calendar ∧ (attached? options o p).isSome = true) ∧
      p.owner.id = id := by
  simp [suppliedIds, and_assoc]

/-- A field with a calendar value is given an initializer exactly if its class has a factory
for it. -/
theorem Site.isSome_answer_of_calendar (site : Site) {field : FieldDef}
    (calendar : Target.of field.type = .calendar) :
    ((site.answer? field).bind Answer.expr?).isSome = site.supplies field := by
  rw [Site.supplies, FieldDef.isCalendar, FieldDef.isEligible, calendar, Site.answer?]
  cases field.fixedValue? with
  | none => rfl
  | some value =>
    rw [Option.map_some, Option.bind_some, Site.answer, calendar]
    cases site.grant with
    | ok ref => rfl
    | error cause => rfl

/-- A complete pass gets to every place. -/
theorem isReached_of_complete (enabled : options.enabled = true)
    (complete : (run options o).failure = none) (hp : p ∈ o.places) :
    isReached options.policy p = true := by
  rw [failure_run enabled, whole,
    failure_range_eq_none_iff (Installer.sound_new _)] at complete
  obtain ⟨later, rest, split, fields_eq⟩ := mem_places_iff.mp hp
  rw [split, List.flatMap_append, List.flatMap_cons, fields_eq] at complete
  simp only [List.all_append, List.all_cons, Bool.and_eq_true] at complete
  obtain ⟨before, ⟨ready, passed, -⟩, -⟩ := complete
  exact isReached_iff.mpr ⟨before, ready, passed⟩

theorem supplies_iff_attached (enabled : options.enabled = true)
    (complete : (run options o).failure = none) (hp : p ∈ o.places) :
    (siteOf options o p).supplies p.field = true ↔
      Target.of p.field.type = .calendar ∧ (attached? options o p).isSome = true := by
  rw [attached?_eq enabled hp, if_pos (isReached_of_complete enabled complete hp)]
  constructor
  · intro supplied
    have calendar : Target.of p.field.type = .calendar :=
      (isCalendar_iff.mp (Bool.and_eq_true_iff.mp supplied).1).2
    exact ⟨calendar, by rw [Site.isSome_answer_of_calendar _ calendar, supplied]⟩
  · rintro ⟨calendar, shown⟩
    rwa [Site.isSome_answer_of_calendar _ calendar] at shown

theorem identities_whole (enabled : options.enabled = true)
    (complete : (run options o).failure = none) :
    (whole options o).installer.identities = suppliedIds options o := by
  have complete' := complete
  rw [failure_run enabled] at complete'
  ext id
  have remembered :=
    mem_identities_range (Installer.sound_new options.factoryField) [] rfl complete' id
  -- what is remembered was remembered in this pass
  rw [range, Installer.identities_new] at remembered
  rw [mem_suppliedIds_iff, whole, remembered]
  simp only [Finset.notMem_empty, false_or]
  refine exists_congr fun p => and_congr_right fun hp => and_congr_left fun _ => ?_
  exact supplies_iff_attached enabled complete hp

theorem isOk_result_iff (outcome : Outcome) :
    outcome.result.isOk = true ↔ outcome.failure = none := by
  unfold Outcome.result
  cases outcome.failure with
  | none => exact iff_of_true rfl rfl
  | some cause => exact iff_of_false nofun nofun

/-- What a pass tells at its end. -/
theorem closing_whole (enabled : options.enabled = true) (o : Outline) :
    closing (whole options o) =
      if (run options o).result.isOk then
        [.completed o.classes.length (suppliedIds options o).card]
      else [] := by
  have ended := failure_run enabled o
  have counted :=
    Installer.count_eq_card (tidy_range (Installer.sound_new options.factoryField)
      (Installer.tidy_new _) options.policy o.enums o.classes)
  cases failure : (run options o).failure with
  | none =>
    rw [closing, ← ended, failure, Outcome.result, failure]
    show [Event.completed _ _] = [.completed _ _]
    rw [← identities_whole enabled failure, whole, counted,
      length_range (Installer.sound_new _)]
  | some cause =>
    rw [closing, ← ended, failure, Outcome.result, failure]
    rfl

theorem courseEvents_run (enabled : options.enabled = true) (o : Outline) :
    courseEvents (run options o).log =
      .started (eligibleCount o) ::
        (installations options.factoryField o.classes (run options o).outline.classes ++
          closing (whole options o)) := by
  have ending : courseEvents (closing (whole options o)) = closing (whole options o) := by
    unfold closing
    cases (whole options o).failure with
    | none => rfl
    | some cause => rfl
  have between :=
    courseEvents_range (Installer.sound_new options.factoryField) options.policy
      o.enums o.classes
  rw [log_run enabled, outline_run enabled]
  show .started _ :: courseEvents ((whole options o).log ++ closing (whole options o)) = _
  rw [courseEvents_append, ending, whole, between]
  rfl

theorem not_completed_mem_installations (fieldName : String) (before after : List ClassDef)
    (classes factories : Nat) :
    .completed classes factories ∉ installations fieldName before after := by
  intro told
  obtain ⟨pair, -, eq⟩ := List.mem_map.mp told
  cases eq

/-- **The accounts of a pass are right.** A pass starts by telling the number of fields with a
fixed value, which is the number of remarks it makes if it is completed. Besides remarks it
then tells of each class that gains a static member, in the order of the classes, and of
nothing else. A completion is the last it tells if and only if it is completed, with the
number of classes and of the identities of those in which a calendar value was set. -/
theorem course_of_run (enabled : options.enabled = true) (o : Outline) :
    let outcome := run options o
    let eligible := (o.classes.flatMap (·.fields)).countP (·.isEligible)
    let factories := (suppliedIds options o).card
    outcome.log.head? = some (.started eligible) ∧
      (outcome.result.isOk = true → (diagnostics outcome.log).length = eligible) ∧
      courseEvents outcome.log =
        .started eligible ::
          (installations options.factoryField o.classes outcome.outline.classes ++
          if outcome.result.isOk then [.completed o.classes.length factories] else []) ∧
      ∀ classes supplied, outcome.log.getLast? = some (.completed classes supplied) ↔
        outcome.result.isOk = true ∧ classes = o.classes.length ∧ supplied = factories := by
  intro outcome eligible factories
  have course := courseEvents_run enabled o
  rw [eligibleCount_eq_countP, closing_whole enabled] at course
  refine ⟨?_, ?_, course, fun classes supplied => ?_⟩
  · rw [show outcome.log = _ from log_run enabled o, eligibleCount_eq_countP]
    rfl
  · intro ok
    rw [length_diagnostics_run enabled ((isOk_result_iff outcome).mp ok),
      eligibleCount_eq_countP]
  · cases ok : outcome.result.isOk with
    | true =>
      -- the completion is told behind everything else
      have log : outcome.log =
          .started (eligibleCount o) :: (whole options o).log ++
            [.completed o.classes.length factories] := by
        rw [show outcome.log = _ from log_run enabled o, closing_whole enabled, if_pos ok]
        rfl
      rw [log, List.getLast?_concat, Option.some.injEq, Event.completed.injEq]
      simp [eq_comm]
    | false =>
      -- an aborted pass tells of no completion anywhere
      refine iff_of_false (fun last => ?_) nofun
      have told : Event.completed classes supplied ∈ courseEvents outcome.log :=
        List.mem_filter.mpr ⟨List.mem_of_getLast? last, rfl⟩
      rw [course, if_neg (Bool.eq_false_iff.mp ok), List.append_nil, List.mem_cons] at told
      cases told with
      | inl same => cases same
      | inr installed => exact not_completed_mem_installations _ _ _ _ _ installed

/-- Of the two classes in `orders`, which share their identity, one gains a factory and both
are supplied. -/
theorem course_of_orders :
    courseEvents (run { Options.standard with policy := .skip } orders).log =
        [.started 5, .installing "Order" ⟨0⟩ "DATATYPE_FACTORY", .completed 2 1] ∧
      (diagnostics
        (run { Options.standard with policy := .skip } orders).log).length = 5 := by
  have enabled : ({ Options.standard with policy := .skip } : Options).enabled = true := rfl
  obtain ⟨-, remarks, course, -⟩ := course_of_run enabled orders
  exact ⟨course.trans (by decide), remarks rfl⟩

end FixedInit.Pass
