/-
The closed form of a complete pass.

`initializer` says what a field is initialized with, from the outline before the pass alone:
no class that was treated before, and no member that was added on the way, comes into it.

* `range_apart` : classes that differ in identity or name are treated as each would be alone;
* `fields_of_complete_run` : a complete pass over such classes leaves every field where it
  was, with that initializer and nothing else changed.

Design notes: what an installer remembers could only matter for a class that shares both its
identity and its name with an earlier one; the invariant of the induction is that no class
still to come is trusted.
-/
import FixedInit.Proofs.FirstConstant
import FixedInit.Proofs.Range

namespace FixedInit.Pass

/-- Whether a class has a factory of a name or can be given one: the name is an identifier,
and the first static member of the name is a factory, or no member at all has the name. -/
def hasFactory (fieldName : String) (c : ClassDef) : Bool :=
  Factory.isIdentifier fieldName &&
    match c.static? fieldName with
    | some existing =>
      existing.type = .external "DatatypeFactory" && existing.modifiers.isStatic
    | none => (c.field? fieldName).isNone

/-- The initializer of a field of a class after a complete pass. -/
def initializer (fieldName : String) (enums : List EnumDef) (c : ClassDef)
    (field : FieldDef) : Option Expr :=
  match field.fixedValue? with
  | none => field.init
  | some value =>
    match Target.of field.type with
    | .text => some (.str value)
    | .boolean => some (.bool (value.toList.map Char.toLower = "true".toList))
    | .narrowInt width => (Literal.narrowInt field.name width value).toOption.or field.init
    | .wideInt => (Literal.wideInt field.name value).toOption.or field.init
    | .singleFloat => (Literal.singleFloat field.name value).toOption.or field.init
    | .doubleFloat => (Literal.doubleFloat field.name value).toOption.or field.init
    | .calendar =>
      if hasFactory fieldName c then
        some (.invoke (.static ⟨c.name, fieldName⟩) "new_xml_gregorian_calendar" [.str value])
      else field.init
    | .enumeration name =>
      match (Catalog.constantsOf enums name).find? (·.2.lexicalValue == value) with
      | some (e, constant) => some (.constant e.name constant.name)
      | none => field.init
    | .unsupported _ => field.init

variable {policy : ErrorPolicy} {enums : List EnumDef} {installer : Installer}
  {classes : List ClassDef}

theorem applyTo_ofNumber (reading : Except LiteralError Expr) (field : FieldDef) :
    (Answer.ofNumber reading).applyTo field =
      { field with init := reading.toOption.or field.init } := by
  cases reading with
  | ok expr => rfl
  | error cause => rfl

theorem hasFactory_eq (fieldName : String) (c : ClassDef) :
    hasFactory fieldName c =
      (Factory.isIdentifier fieldName && Factory.available fieldName false c) := by
  unfold hasFactory Factory.available
  cases c.static? fieldName with
  | none => rfl
  | some existing => rfl

theorem applyTo_ofFactory (fieldName value : String) (c : ClassDef) (field : FieldDef) :
    (Answer.ofFactory value (Factory.grant fieldName false c)).applyTo field =
      { field with
        init := if hasFactory fieldName c then
            some (.invoke (.static ⟨c.name, fieldName⟩)
              "new_xml_gregorian_calendar" [.str value])
          else field.init } := by
  rw [hasFactory_eq, Factory.grant]
  cases Factory.isIdentifier fieldName with
  | false => rfl
  | true =>
    cases Factory.available fieldName false c with
    | false => rfl
    | true => rfl

/-- At a site whose class is not trusted, settling a field attaches its initializer in closed
form. -/
theorem settle_eq_initializer (fieldName : String) (enums : List EnumDef) (c : ClassDef)
    (field : FieldDef) :
    (Site.mk enums c.name (Factory.grant fieldName false c)).settle field =
      { field with init := initializer fieldName enums c field } := by
  unfold Site.settle Site.answer? initializer
  cases field.fixedValue? with
  | none => rfl
  | some value =>
    simp only [Option.map_some, Site.answer]
    cases Target.of field.type with
    | text => rfl
    | boolean => rfl
    | narrowInt width => exact applyTo_ofNumber _ field
    | wideInt => exact applyTo_ofNumber _ field
    | singleFloat => exact applyTo_ofNumber _ field
    | doubleFloat => exact applyTo_ofNumber _ field
    | calendar => exact applyTo_ofFactory fieldName value c field
    | enumeration name =>
      simp only [Catalog.constant?_eq_find?]
      cases (Catalog.constantsOf enums name).find? (·.2.lexicalValue == value) with
      | none => rfl
      | some entry => rfl
    | unsupported type => rfl

/-! ### Classes apart -/

/-- A class that is not trusted is a site as it would be with a new installer. -/
theorem Site.of_distrust (sound : installer.Sound) (enums : List EnumDef) {c : ClassDef}
    (distrust : installer.trusts c = false) :
    Site.of enums installer c = Site.of enums (.new installer.fieldName) c := by
  rw [Site.of, Site.of, Installer.grant_attempt sound, distrust,
    Installer.grant_attempt (Installer.sound_new _)]
  rfl

section

variable (sound : installer.Sound) (policy : ErrorPolicy) (enums : List EnumDef)
    {c : ClassDef} (distrust : installer.trusts c = false)

include sound distrust

theorem treated_of_distrust :
    treated policy enums installer c = treated policy enums (.new installer.fieldName) c := by
  rw [treated_eq sound, treated_eq (Installer.sound_new _),
    Site.of_distrust sound enums distrust]
  rfl

theorem diagnostics_visit_of_distrust :
    diagnostics (visit policy enums installer c).log =
      diagnostics (visit policy enums (.new installer.fieldName) c).log := by
  rw [(visit_accounts sound policy enums c).diagnostics_eq,
    (visit_accounts (Installer.sound_new _) policy enums c).diagnostics_eq,
    Site.of_distrust sound enums distrust]

end

/-- Classes that differ in identity or name are treated, and remarked on, as each would be
alone. -/
theorem range_apart (sound : installer.Sound)
    (distinct : classes.Pairwise fun a b => a.id = b.id → a.name ≠ b.name)
    (distrust : ∀ c ∈ classes, installer.trusts c = false)
    (complete : (range policy enums installer classes).failure = none) :
    (range policy enums installer classes).classes =
        classes.map (treated policy enums (.new installer.fieldName)) ∧
      diagnostics (range policy enums installer classes).log =
        classes.flatMap fun c =>
          diagnostics (visit policy enums (.new installer.fieldName) c).log := by
  induction classes generalizing installer with
  | nil => exact ⟨rfl, rfl⟩
  | cons c classes ih =>
    cases failed : (visit policy enums installer c).failure with
    | some cause =>
      rw [range_cons_of_failure failed] at complete
      cases complete
    | none =>
      rw [range_cons_of_complete failed] at complete ⊢
      obtain ⟨differs, distinct⟩ := List.pairwise_cons.mp distinct
      obtain ⟨sound', named⟩ := sound_visit sound policy enums c
      have untrusted := distrust c List.mem_cons_self
      -- what is remembered for `c` makes no later class trusted
      have distrust' : ∀ d ∈ classes,
          (visit policy enums installer c).installer.trusts d = false := by
        intro d hd
        rw [(visit_accounts sound policy enums c).installer_eq]
        exact Installer.trusts_attemptIf sound _ (differs d hd)
          (distrust d (List.mem_cons_of_mem c hd))
      obtain ⟨rest, remarks⟩ := ih sound' distinct distrust' complete
      constructor
      · rw [rest, treated_of_distrust sound policy enums untrusted, named]
        rfl
      · rw [diagnostics_append, remarks,
          diagnostics_visit_of_distrust sound policy enums untrusted, named]
        rfl

/-! ### A complete pass -/

theorem fields_treated (fieldName : String) {c : ClassDef}
    (all_left : policy.left c.fields = []) :
    (treated policy enums (.new fieldName) c).fields =
      c.fields.map fun field =>
        { field with init := initializer fieldName enums c field } := by
  -- the grant is read off the class alone, as nothing is remembered
  have site : Site.of enums (.new fieldName) c =
      ⟨enums, c.name, Factory.grant fieldName false c⟩ := by
    rw [Site.of, Installer.grant_attempt (Installer.sound_new _)]
    rfl
  rw [treated_eq (Installer.sound_new _)]
  show List.map _ _ ++ _ = _
  rw [all_left, List.append_nil, ErrorPolicy.reached_of_left all_left, site]
  exact List.map_congr_left fun field _ => settle_eq_initializer _ _ _ _

theorem left_of_complete (sound : installer.Sound)
    (complete : (range policy enums installer classes).failure = none) :
    ∀ c ∈ classes, policy.left c.fields = [] := by
  have paired : List.Forall₂ (fun c _ => policy.left c.fields = [] ∧ True) classes
      (range policy enums installer classes).classes :=
    forall₂_range_of_complete sound (fun _ _ _ _ all_left => ⟨all_left, trivial⟩) complete
  exact ((List.forall₂_and_left _ _).mp paired).1

theorem fields_range (sound : installer.Sound)
    (distinct : classes.Pairwise fun a b => a.id = b.id → a.name ≠ b.name)
    (distrust : ∀ c ∈ classes, installer.trusts c = false)
    (complete : (range policy enums installer classes).failure = none) :
    (range policy enums installer classes).classes.map (·.fields) =
      classes.map fun c => c.fields.map fun field =>
        { field with init := initializer installer.fieldName enums c field } := by
  rw [(range_apart sound distinct distrust complete).1, List.map_map]
  exact List.map_congr_left fun c hc =>
    fields_treated _ (left_of_complete sound complete c hc)

/-- **The closed form of a complete pass.** If no two classes share both their identity and
their name, a pass that is completed leaves every field of every class in its place, with its
name, type and schema component, and initialized as `initializer` says from the outline before
the pass. -/
theorem fields_of_complete_run {options : Options} {o : Outline}
    (enabled : options.enabled = true)
    (distinct : o.classes.Pairwise fun a b => a.id = b.id → a.name ≠ b.name)
    (complete : (run options o).result = .ok true) :
    (run options o).outline.classes.map (·.fields) =
      o.classes.map fun c => c.fields.map fun field =>
        { field with init := initializer options.factoryField o.enums c field } := by
  rw [result_eq_ok_iff, failure_run enabled] at complete
  rw [outline_run enabled]
  exact fields_range (Installer.sound_new _) distinct (fun _ _ => rfl) complete

theorem inits_of_orders :
    (run { Options.standard with policy := .skip } orders).outline.classes.map
        (fun c => c.fields.map (·.init)) =
      [[some (.invoke (.static ⟨"Order", "DATATYPE_FACTORY"⟩) "new_xml_gregorian_calendar"
          [.str "2024-01-01"]), none, some (.str "none")],
        [some (.invoke (.static ⟨"Item", "DATATYPE_FACTORY"⟩) "new_xml_gregorian_calendar"
          [.str "2024-01-01"]), some (.constant "Unit" "KG")]] := by
  have complete : (run { Options.standard with policy := .skip } orders).result = .ok true :=
    rfl
  have fields := fields_of_complete_run rfl (by decide) complete
  have inits := congrArg (List.map (List.map (·.init))) fields
  rw [List.map_map] at inits
  exact inits

end FixedInit.Pass
