/-
The static members that a pass adds.

* `gains_iff` : which classes need a factory member and are free to get it;
* `statics_of_run` : a pass adds to a class the factory member or nothing, and a complete pass
  adds it exactly to the classes that need it and are free to get it.

Design notes: identities and names may be shared among classes here. A remembered reference is
used for a class only if the class declares a member of the name, and such a class gets none
anyway, so no order of classes adds a member twice or misses one.
-/
import FixedInit.Proofs.Range

namespace FixedInit.Pass

/-- Whether a class needs a factory member of a name and is free to get it. -/
structure NeedsFactory (fieldName : String) (c : ClassDef) : Prop where
  wanted : ∃ field ∈ c.fields, field.isEligible = true ∧ Target.of field.type = .calendar
  identifier : Factory.IsIdentifier fieldName
  no_field : ∀ field ∈ c.fields, field.name ≠ fieldName
  no_static : ∀ existing ∈ c.statics, existing.name ≠ fieldName

theorem not_hasMember_iff {fieldName : String} {c : ClassDef} :
    c.hasMember fieldName = false ↔ (∀ field ∈ c.fields, field.name ≠ fieldName) ∧
      ∀ existing ∈ c.statics, existing.name ≠ fieldName := by
  simp [ClassDef.hasMember_eq_false_iff, ClassDef.field?, ClassDef.static?]

theorem gains_iff {fieldName : String} {c : ClassDef} :
    gains fieldName c c.fields = true ↔ NeedsFactory fieldName c := by
  rw [gains, Bool.and_eq_true, Factory.free_iff, List.any_eq_true, Factory.isIdentifier_iff,
    not_hasMember_iff]
  simp only [isCalendar_iff]
  constructor
  · rintro ⟨wanted, identifier, no_field, no_static⟩
    exact ⟨wanted, identifier, no_field, no_static⟩
  · rintro ⟨wanted, identifier, no_field, no_static⟩
    exact ⟨wanted, identifier, no_field, no_static⟩

/-- **At most one factory for each class, and only where it is needed.** A pass leaves the
static members of each class as they were or appends the factory member; one that is completed
appends it exactly to the classes that have a calendar value to build and no member of the
name, if the name is an identifier. -/
theorem statics_of_run {options : Options} (enabled : options.enabled = true) (o : Outline) :
    let member : StaticDef :=
      { name := options.factoryField
        type := .external "DatatypeFactory"
        modifiers := { isPrivate := true, isStatic := true, isFinal := true }
        init := some
          { value := .staticInvoke "DatatypeFactory" "new_instance" []
            onError := some
              ⟨"DatatypeConfigurationException", "Unable to initialize DatatypeFactory"⟩ } }
    List.Forall₂ (fun before after =>
        after.statics = before.statics ∨ after.statics = before.statics ++ [member])
      o.classes (run options o).outline.classes ∧
    ((run options o).result = .ok true →
      List.Forall₂ (fun before after =>
          after.statics = before.statics ++ [member] ↔
            NeedsFactory options.factoryField before)
        o.classes (run options o).outline.classes) := by
  intro member
  have sound := Installer.sound_new options.factoryField
  rw [outline_run enabled, result_eq_ok_iff, failure_run enabled]
  constructor
  · refine forall₂_range sound (fun c => .inl rfl) (fun later hlater hnamed c => ?_) o.classes
    have named : later.fieldName = options.factoryField := hnamed
    rw [statics_treated hlater named]
    cases gains options.factoryField c (options.policy.reached c.fields) with
    | true => exact .inr rfl
    | false => exact .inl (List.append_nil _)
  · refine forall₂_range_of_complete sound fun later hlater hnamed c all_left => ?_
    have named : later.fieldName = options.factoryField := hnamed
    rw [statics_treated hlater named, ErrorPolicy.reached_of_left all_left, ← gains_iff]
    cases gains options.factoryField c c.fields with
    | true => exact iff_of_true rfl rfl
    | false =>
      -- a class that gains nothing has no member appended to it
      refine iff_of_false (fun same => ?_) Bool.false_ne_true
      have : [] = [member] := List.append_cancel_left same
      cases this

theorem statics_of_orders :
    (run { Options.standard with policy := .skip } orders).result = .ok true ∧
      List.Forall₂ (fun before after =>
          after.statics = before.statics ++ [Factory.member "DATATYPE_FACTORY"] ↔
            NeedsFactory "DATATYPE_FACTORY" before)
        orders.classes
          (run { Options.standard with policy := .skip } orders).outline.classes := by
  have enabled : ({ Options.standard with policy := .skip } : Options).enabled = true := rfl
  have complete : (run { Options.standard with policy := .skip } orders).result = .ok true :=
    rfl
  exact ⟨complete, (statics_of_run enabled orders).2 complete⟩

end FixedInit.Pass
