/-
What a pass attaches to a field, apart from the initializer that the field had before.

A pass reads no initializer. So what it attaches at a place is what a pass over the same
outline, bare of initializers, leaves there, and every field after a pass has what was
attached to it or else what it had.

* `range_bare_installer`, `siteOf_bare` : initializers decide nothing on the way;
* `attached?_eq` : what is attached at a place is the answer to its field, if the pass gets
  there;
* `field?_run_attached` : the field at a place after a pass.
-/
import FixedInit.Proofs.Places

namespace FixedInit

/-! ### Outlines bare of initializers -/

/-- A field without its initializer. -/
def FieldDef.bare (field : FieldDef) : FieldDef :=
  { field with init := none }

/-- A class whose fields have no initializers. -/
def ClassDef.bare (c : ClassDef) : ClassDef :=
  { c with fields := c.fields.map FieldDef.bare }

/-- An outline whose fields have no initializers. -/
def Outline.bare (o : Outline) : Outline :=
  { o with classes := o.classes.map ClassDef.bare }

/-- A place of an outline once the initializers are taken away. -/
def Place.bare (p : Place) : Place :=
  ⟨p.before.map ClassDef.bare, p.owner.bare, p.ready.map FieldDef.bare, p.field.bare⟩

theorem bare_mem_places {o : Outline} {p : Place} (hp : p ∈ o.places) :
    p.bare ∈ o.bare.places := by
  obtain ⟨later, rest, split, fields_eq⟩ := mem_places_iff.mp hp
  refine mem_places_iff.mpr ⟨later.map ClassDef.bare, rest.map FieldDef.bare, ?_, ?_⟩
  · rw [Outline.bare, split, List.map_append, List.map_cons]
    rfl
  · rw [Place.bare, ClassDef.bare, fields_eq, List.map_append, List.map_cons]

theorem field?_bare (p : Place) (classes : List ClassDef) :
    p.bare.field? classes = p.field? classes := by
  simp [Place.field?, Place.class?, Place.bare]

/-- An installer does not notice that the initializers are taken away. -/
theorem unnoticed_bare (c : ClassDef) : Installer.Unnoticed ClassDef.bare c where
  id := rfl
  name := rfl
  field? name := by
    rw [ClassDef.field?, ClassDef.bare, List.find?_map, Option.isSome_map]
    rfl
  static? _ := rfl
  addStatic _ := rfl

namespace Pass

variable {policy : ErrorPolicy} {enums : List EnumDef} {installer : Installer}
    {options : Options} {o : Outline} {p : Place}

/-! ### What a pass over a bare outline does -/

theorem site_bare (enums : List EnumDef) (installer : Installer) (c : ClassDef) :
    Site.of enums installer c.bare = Site.of enums installer c := by
  rw [Site.of, Installer.attempt_edit (unnoticed_bare c)]
  rfl

theorem installer_attemptIf_bare (installer : Installer) (needed : Bool) (c : ClassDef) :
    (installer.attemptIf needed c.bare).installer =
      (installer.attemptIf needed c).installer := by
  rw [Installer.attemptIf_edit (unnoticed_bare c)]

theorem reached_bare (policy : ErrorPolicy) (fields : List FieldDef) :
    policy.reached (fields.map FieldDef.bare) = (policy.reached fields).map FieldDef.bare :=
  List.takeWhile_map

theorem left_bare (policy : ErrorPolicy) (fields : List FieldDef) :
    policy.left (fields.map FieldDef.bare) = (policy.left fields).map FieldDef.bare :=
  List.dropWhile_map

theorem visit_bare_installer (sound : installer.Sound) (policy : ErrorPolicy)
    (enums : List EnumDef) (c : ClassDef) :
    (visit policy enums installer c.bare).installer =
      (visit policy enums installer c).installer := by
  rw [(visit_accounts sound policy enums c.bare).installer_eq,
    (visit_accounts sound policy enums c).installer_eq, installer_attemptIf_bare,
    ClassDef.bare, reached_bare, List.any_map]
  rfl

theorem visit_bare_failure (sound : installer.Sound) (policy : ErrorPolicy)
    (enums : List EnumDef) (c : ClassDef) :
    (visit policy enums installer c.bare).failure =
      (visit policy enums installer c).failure := by
  rw [(visit_accounts sound policy enums c.bare).failure_eq,
    (visit_accounts sound policy enums c).failure_eq, ClassDef.bare, left_bare,
    List.head?_map]
  cases (policy.left c.fields).head? with
  | none => rfl
  | some field => rfl

theorem range_bare_installer (sound : installer.Sound) (policy : ErrorPolicy)
    (enums : List EnumDef) (classes : List ClassDef) :
    (range policy enums installer (classes.map ClassDef.bare)).installer =
      (range policy enums installer classes).installer := by
  induction classes generalizing installer with
  | nil => rfl
  | cons c classes ih =>
    have same_failure := visit_bare_failure sound policy enums c
    have same_installer := visit_bare_installer sound policy enums c
    cases failed : (visit policy enums installer c).failure with
    | some cause =>
      rw [failed] at same_failure
      rw [List.map_cons, range_cons_of_failure failed, range_cons_of_failure same_failure]
      exact same_installer
    | none =>
      rw [failed] at same_failure
      rw [List.map_cons, range_cons_of_complete failed, range_cons_of_complete same_failure,
        same_installer]
      exact ih (sound_visit sound policy enums c).1

theorem siteOf_bare (options : Options) (o : Outline) (p : Place) :
    siteOf options o.bare p.bare = siteOf options o p := by
  rw [siteOf, siteFrom, Place.bare, site_bare, range_bare_installer (Installer.sound_new _)]
  rfl

theorem isReached_bare (policy : ErrorPolicy) (p : Place) :
    isReached policy p.bare = isReached policy p := by
  have same : p.bare.preceding = p.preceding.map FieldDef.bare := by
    simp only [Place.preceding, Place.bare, List.map_append, List.flatMap_map,
      List.map_flatMap]
    rfl
  rw [isReached, same, List.all_map]
  rfl

/-! ### What is attached -/

/-- The initializer that an answer attaches. -/
def Answer.expr? : Answer → Option Expr
  | attach expr => some expr
  | decline _ _ => none

/-- What a pass attaches to the field at a place: what a pass over the same outline without
initializers leaves there. -/
def attached? (options : Options) (o : Outline) (p : Place) : Option Expr :=
  (p.field? (run options o.bare).outline.classes).bind (·.init)

theorem settle_eq_answer (site : Site) (field : FieldDef) :
    site.settle field =
      { field with init := ((site.answer? field).bind Answer.expr?).or field.init } := by
  unfold Site.settle
  cases site.answer? field with
  | none => rfl
  | some answer =>
    cases answer with
    | attach expr => rfl
    | decline severity message => rfl

theorem attached?_of_disabled (disabled : options.enabled = false) (hp : p ∈ o.places) :
    attached? options o p = none := by
  obtain ⟨later, rest, split, fields_eq⟩ := mem_places_iff.mp (bare_mem_places hp)
  rw [attached?, run_disabled disabled, ← field?_bare, Place.field?, Place.class?]
  simp only [split]
  rw [List.getElem?_append_right (Nat.le_refl _), Nat.sub_self, List.getElem?_cons_zero,
    Option.bind_some, fields_eq, List.getElem?_append_right (Nat.le_refl _), Nat.sub_self]
  rfl

/-- What is attached at a place is the answer to its field at the site of the place, if the
pass gets there. -/
theorem attached?_eq (enabled : options.enabled = true) (hp : p ∈ o.places) :
    attached? options o p =
      if isReached options.policy p then
        ((siteOf options o p).answer? p.field).bind Answer.expr?
      else none := by
  rw [attached?, ← field?_bare, field?_run enabled (bare_mem_places hp), isReached_bare,
    siteOf_bare, Option.bind_some]
  cases isReached options.policy p with
  | false => rfl
  | true =>
    rw [if_pos rfl, settle_eq_answer]
    exact Option.or_none

/-- The field at a place after a pass has what was attached to it, and else what it had. -/
theorem field?_run_attached (enabled : options.enabled = true) (hp : p ∈ o.places) :
    p.field? (run options o).outline.classes =
      some { p.field with init := (attached? options o p).or p.field.init } := by
  rw [field?_run enabled hp, attached?_eq enabled hp]
  cases isReached options.policy p with
  | false => rfl
  | true => rw [if_pos rfl, if_pos rfl, settle_eq_answer]

/-- What is attached was answered to a field with a fixed value that the pass got to. -/
theorem answer_of_attached {expr : Expr} (hp : p ∈ o.places)
    (h : attached? options o p = some expr) :
    options.enabled = true ∧ isReached options.policy p = true ∧
      ∃ value, p.field.fixedValue? = some value ∧
        (siteOf options o p).answer p.field value = .attach expr := by
  cases enabled : options.enabled with
  | false =>
    rw [attached?_of_disabled enabled hp] at h
    cases h
  | true =>
    rw [attached?_eq enabled hp] at h
    cases reached : isReached options.policy p with
    | false =>
      rw [reached] at h
      cases h
    | true =>
      rw [reached, if_pos rfl, Site.answer?, Option.bind_map, Option.bind_eq_some_iff] at h
      obtain ⟨value, fixed, answered⟩ := h
      refine ⟨rfl, rfl, value, fixed, ?_⟩
      cases answer : (siteOf options o p).answer p.field value with
      | attach other =>
        rw [Function.comp, answer] at answered
        rw [Option.some.inj answered]
      | decline severity message =>
        rw [Function.comp, answer] at answered
        cases answered

end Pass

end FixedInit
