/-
A second pass over what a first one left.

The second pass meets the members that the first one added and the initializers that it
attached. It takes other ways through the installer, but every answer is the same as before.

* `Alike.attempt` : installers that recall the same answer alike for a class and for what
  became of it;
* `visit_again`, `range_again` : the fields of a class, and the classes of an outline, a
  second time;
* `run_again` : a second pass gives the same result and the same remarks, installs nothing and
  leaves the outline as the first one left it.

Design notes: the two runs are followed side by side. Their installers agree in what they
recall but not in the order in which they list it, since the second pass finds a member where
the first one had to add it.
-/
import FixedInit.Proofs.Range
import Mathlib.Data.List.TakeWhile

namespace FixedInit

/-! ### Installers side by side -/

/-- Installers of one name that recall the same. -/
structure Installer.Alike (a b : Installer) : Prop where
  fieldName : b.fieldName = a.fieldName
  memory : b.memory = a.memory

namespace Installer

variable {a b : Installer}

theorem Alike.sound (alike : Alike a b) (sound : a.Sound) : b.Sound := by
  intro id ref h
  rw [alike.memory] at h
  rw [alike.fieldName]
  exact sound id ref h

/-- Two installers that are alike answer alike for two classes of the same identity and name
that offer the same, and they stay alike. -/
theorem Alike.attempt (alike : Alike a b) (sound : a.Sound) {owner other : ClassDef}
    (id : other.id = owner.id) (name : other.name = owner.name)
    (offer : ∀ trusted, Factory.available a.fieldName trusted other =
      Factory.available a.fieldName trusted owner) :
    (b.attempt other).grant = (a.attempt owner).grant ∧
      Alike (a.attempt owner).installer (b.attempt other).installer := by
  have trusts : b.trusts other = a.trusts owner := by
    rw [Installer.trusts, alike.memory, id, name]
    rfl
  have grants : Factory.grant b.fieldName (b.trusts other) other =
      Factory.grant a.fieldName (a.trusts owner) owner := by
    rw [trusts, alike.fieldName, Factory.grant, Factory.grant, offer,
      ClassDef.staticRef, name]
    rfl
  have ref : other.staticRef b.fieldName = owner.staticRef a.fieldName := by
    rw [ClassDef.staticRef, name, alike.fieldName]
    rfl
  -- equal grants leave the two mixed cases impossible
  obtain ⟨cause, granted, eq⟩ | ⟨later, granted, named, remembers, eq⟩ :=
    attempt_cases sound owner
  · obtain ⟨cause', granted', eq'⟩ | ⟨later', granted', -, -, -⟩ :=
      attempt_cases (alike.sound sound) other
    · rw [eq, eq']
      rw [grants, granted] at granted'
      exact ⟨granted'.symm, alike⟩
    · rw [grants, granted] at granted'
      cases granted'
  · obtain ⟨cause', granted', -⟩ | ⟨later', -, named', remembers', eq'⟩ :=
      attempt_cases (alike.sound sound) other
    · rw [grants, granted] at granted'
      cases granted'
    · rw [eq, eq', ref]
      refine ⟨rfl, named'.trans (alike.fieldName.trans named.symm), ?_⟩
      show later'.memory = later.memory
      rw [remembers', remembers, alike.memory, id, ref]

theorem Alike.attemptIf (alike : Alike a b) (sound : a.Sound) (needed : Bool)
    {owner other : ClassDef} (id : other.id = owner.id) (name : other.name = owner.name)
    (offer : ∀ trusted, Factory.available a.fieldName trusted other =
      Factory.available a.fieldName trusted owner) :
    Alike (a.attemptIf needed owner).installer (b.attemptIf needed other).installer := by
  cases needed with
  | true => exact (alike.attempt sound id name offer).2
  | false => exact alike

end Installer

namespace Pass

variable {policy : ErrorPolicy} {enums : List EnumDef} {installer : Installer}

/-! ### A class after its stretch -/

section

variable (sound : installer.Sound) (policy : ErrorPolicy) (enums : List EnumDef)
    (c : ClassDef)

theorem field?_treated (installer : Installer) (fieldName : String) :
    ((treated policy enums installer c).field? fieldName).isSome =
      (c.field? fieldName).isSome := by
  have kept :=
    congrArg (List.map Prod.fst) (fields_of_stretch policy enums installer c c.fields)
  rw [List.map_map, List.map_map] at kept
  have names := congrArg (List.any · (· == fieldName)) kept
  rw [List.any_map, List.any_map] at names
  rw [ClassDef.field?, ClassDef.field?, List.isSome_find?, List.isSome_find?]
  exact names

include sound

/-- What a class offers an installer does not change by its stretch: a member that was added
serves as well as the room for it did. -/
theorem available_treated (trusted : Bool) :
    Factory.available installer.fieldName trusted (treated policy enums installer c) =
      Factory.available installer.fieldName trusted c := by
  cases gained : gains installer.fieldName c (policy.reached c.fields) with
  | true =>
    rw [Factory.available_of_free (hasMember_of_gains gained), Factory.available,
      static?_treated_of_gains sound policy enums c gained]
    exact Bool.or_true trusted
  | false =>
    have fields := field?_treated policy enums c installer installer.fieldName
    rw [Factory.available, Factory.available,
      static?_treated_of_not_gains sound policy enums c gained]
    cases c.static? installer.fieldName with
    | some existing => rfl
    | none => simp [← Option.not_isSome, fields]

/-- A class that was treated needs no further member. -/
theorem gains_treated {fields : List FieldDef}
    (same : fields.any FieldDef.isCalendar =
      (policy.reached c.fields).any FieldDef.isCalendar) :
    gains installer.fieldName (treated policy enums installer c) fields = false := by
  cases gained : gains installer.fieldName c (policy.reached c.fields) with
  | true =>
    have held := static?_treated_of_gains sound policy enums c gained
    simp [gains, Factory.free, ClassDef.hasMember, held]
  | false =>
    have member : (treated policy enums installer c).hasMember installer.fieldName =
        c.hasMember installer.fieldName := by
      rw [ClassDef.hasMember, ClassDef.hasMember, field?_treated,
        static?_treated_of_not_gains sound policy enums c gained]
    rw [gains, Factory.free, member, same]
    exact gained

end

/-- A pass gets as far among the fields that a pass left as it got among the fields before. -/
theorem reached_again (policy : ErrorPolicy) (site : Site) (fields : List FieldDef) :
    policy.reached ((policy.reached fields).map site.settle ++ policy.left fields) =
        (policy.reached fields).map site.settle ∧
      policy.left ((policy.reached fields).map site.settle ++ policy.left fields) =
        policy.left fields := by
  have passes : ∀ field ∈ (policy.reached fields).map site.settle,
      policy.passes field = true := by
    intro settled hsettled
    obtain ⟨field, hfield, rfl⟩ := List.mem_map.mp hsettled
    have passed : policy.passes field = true := List.mem_takeWhile_imp hfield
    cases policy with
    | abort => rwa [ErrorPolicy.passes, site.refusal?_settle]
    | skip => rfl
  have reached :
      policy.reached ((policy.reached fields).map site.settle ++ policy.left fields) =
      (policy.reached fields).map site.settle ++
        (policy.left fields).takeWhile policy.passes :=
    List.takeWhile_append_of_pos passes
  have left : policy.left ((policy.reached fields).map site.settle ++ policy.left fields) =
      (policy.left fields).dropWhile policy.passes := List.dropWhile_append_of_pos passes
  rw [reached, left]
  -- the field at which the first pass ended was left as it was, so the second one ends there
  -- too
  cases stop : policy.left fields with
  | nil => exact ⟨List.append_nil _, rfl⟩
  | cons field rest =>
    have stops := Bool.eq_false_iff.mp (ErrorPolicy.stops_of_left stop)
    rw [List.takeWhile_cons_of_neg stops, List.dropWhile_cons_of_neg stops]
    exact ⟨List.append_nil _, rfl⟩

/-! ### The second pass -/

/-- What a second visit makes of a class that was visited before. -/
structure Again (policy : ErrorPolicy) (enums : List EnumDef) (a b : Installer)
    (c : ClassDef) :
    Prop where
  treated_eq : treated policy enums b (treated policy enums a c) = treated policy enums a c
  failure_eq : (visit policy enums b (treated policy enums a c)).failure =
    (visit policy enums a c).failure
  diagnostics_eq : diagnostics (visit policy enums b (treated policy enums a c)).log =
    diagnostics (visit policy enums a c).log
  silent : courseEvents (visit policy enums b (treated policy enums a c)).log = []
  alike : Installer.Alike (visit policy enums a c).installer
    (visit policy enums b (treated policy enums a c)).installer

theorem visit_again {a b : Installer} (sound : a.Sound) (alike : Installer.Alike a b)
    (policy : ErrorPolicy) (enums : List EnumDef) (c : ClassDef) :
    Again policy enums a b c := by
  have sound' := alike.sound sound
  have first := visit_accounts sound policy enums c
  have second := visit_accounts sound' policy enums (treated policy enums a c)
  have closed := treated_eq sound policy enums c
  have id : (treated policy enums a c).id = c.id := by rw [closed]
  have name : (treated policy enums a c).name = c.name := by rw [closed]
  have offer := available_treated sound policy enums c
  have site : Site.of enums b (treated policy enums a c) = Site.of enums a c := by
    rw [Site.of, name, (alike.attempt sound id name offer).1]
    rfl
  have fields : (treated policy enums a c).fields =
      (policy.reached c.fields).map (Site.of enums a c).settle ++ policy.left c.fields := by
    rw [closed]
  obtain ⟨reached, left⟩ := reached_again policy (Site.of enums a c) c.fields
  rw [← fields] at reached left
  have calendars :
      (policy.reached (treated policy enums a c).fields).any FieldDef.isCalendar =
      (policy.reached c.fields).any FieldDef.isCalendar := by
    rw [reached, List.any_map]
    exact congrArg _ (funext (Site.of enums a c).isCalendar_settle)
  have unneeded : gains b.fieldName (treated policy enums a c)
      (policy.reached (treated policy enums a c).fields) = false := by
    rw [alike.fieldName]
    exact gains_treated sound policy enums c calendars
  -- settling the settled fields at the same site leaves them as they are
  have resettled : (policy.reached (treated policy enums a c).fields).map
        (Site.of enums b (treated policy enums a c)).settle ++
      policy.left (treated policy enums a c).fields = (treated policy enums a c).fields := by
    rw [reached, left, site, List.map_map, fields]
    exact congrArg (List.map · _ ++ _) (funext (Site.of enums a c).settle_settle)
  refine ⟨?_, ?_, ?_, ?_, ?_⟩
  · rw [treated_eq sound' policy enums (treated policy enums a c), resettled, unneeded]
    exact congrArg (fun statics => { treated policy enums a c with statics := statics })
      (List.append_nil _)
  · rw [second.failure_eq, first.failure_eq, left]
  · rw [second.diagnostics_eq, first.diagnostics_eq, reached, site, List.filterMap_map]
    exact congrArg (List.filterMap · _) (funext (Site.of enums a c).remark?_settle)
  · rw [second.courseEvents_eq, Installer.events_attemptIf sound']
    exact if_neg (Bool.eq_false_iff.mp unneeded)
  · rw [second.installer_eq, first.installer_eq, calendars]
    exact alike.attemptIf sound _ id name offer

/-- What a second range makes of the classes that a first one left. -/
structure RangeAgain (first second : Range) : Prop where
  classes_eq : second.classes = first.classes
  failure_eq : second.failure = first.failure
  diagnostics_eq : diagnostics second.log = diagnostics first.log
  silent : courseEvents second.log = []

theorem range_again {a b : Installer} (sound : a.Sound) (alike : Installer.Alike a b)
    (policy : ErrorPolicy) (enums : List EnumDef) (classes : List ClassDef) :
    RangeAgain (range policy enums a classes)
      (range policy enums b (range policy enums a classes).classes) := by
  induction classes generalizing a b with
  | nil => exact ⟨rfl, rfl, rfl, rfl⟩
  | cons c classes ih =>
    have again := visit_again sound alike policy enums c
    cases failed : (visit policy enums a c).failure with
    | some cause =>
      -- the second range ends at the same class, before the later ones
      have failed' := again.failure_eq.trans failed
      rw [range_cons_of_failure failed, range_cons_of_failure failed']
      exact ⟨by rw [again.treated_eq], rfl, again.diagnostics_eq, again.silent⟩
    | none =>
      have failed' := again.failure_eq.trans failed
      have rest := ih (sound_visit sound policy enums c).1 again.alike
      rw [range_cons_of_complete failed, range_cons_of_complete failed']
      refine ⟨?_, rest.failure_eq, ?_, ?_⟩
      · rw [again.treated_eq, rest.classes_eq]
      · rw [diagnostics_append, diagnostics_append, again.diagnostics_eq, rest.diagnostics_eq]
      · rw [courseEvents_append, again.silent, rest.silent]
        rfl

/-- **A second pass changes nothing.** Whatever the first pass returned, the second one with
the same options returns the same, makes the same remarks in the same order, installs no
factory and leaves the outline, static members included, as the first one left it. -/
theorem run_again (options : Options) (o : Outline) :
    let first := run options o
    let second := run options first.outline
    second.result = first.result ∧ diagnostics second.log = diagnostics first.log ∧
      second.outline = first.outline ∧
      ∀ className id field, Event.installing className id field ∉ second.log := by
  intro first second
  cases enabled : options.enabled with
  | false =>
    have hfirst : first = ⟨none, o, [.disabled]⟩ := run_disabled enabled o
    have hsecond : second = ⟨none, o, [.disabled]⟩ := by
      rw [show second = run options first.outline from rfl, hfirst]
      exact run_disabled enabled o
    rw [hfirst, hsecond]
    refine ⟨rfl, rfl, rfl, fun className id field member => ?_⟩
    cases List.mem_singleton.mp member
  | true =>
    have sound := Installer.sound_new options.factoryField
    have again : RangeAgain (whole options o) (whole options first.outline) := by
      have left := outline_run enabled o
      rw [whole, show first.outline = _ from left]
      exact range_again sound ⟨rfl, rfl⟩ options.policy o.enums o.classes
    refine ⟨?_, ?_, ?_, fun className id field member => ?_⟩
    · have failure : second.failure = first.failure := by
        rw [failure_run enabled, failure_run enabled, again.failure_eq]
      rw [Outcome.result, Outcome.result, failure]
    · rw [diagnostics_run enabled, diagnostics_run enabled, again.diagnostics_eq]
    · rw [show second.outline = _ from outline_run enabled first.outline, again.classes_eq,
        show first.outline = _ from outline_run enabled o]
    · have told := (installing_mem_run enabled first.outline).mp member
      rw [again.silent] at told
      cases told

end Pass

end FixedInit
