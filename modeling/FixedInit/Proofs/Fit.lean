/-
Every initializer that a pass attaches fits its field, and what it refers to is declared.

* `fits_of_answer` : an answer that attaches an expression attaches one that fits the declared
  type;
* `static?_after_grant` : a class that was granted its factory declares it after its visit;
* `trusts_range` : what is remembered for some classes makes no class of another identity or
  name trusted;
* `attached_fits` : whatever is attached fits its field, after any pass.

Design notes: a remembered reference names its owner, and a class takes it over only under
that name. So no sharing of identities leads to a reference into another class; that the
member is a factory needs more, since a class of the same identity and name may be trusted
although its own member is none.
-/
import FixedInit.Proofs.Attachment
import FixedInit.Proofs.FirstConstant

namespace FixedInit

/-! ### Fitting expressions -/

/-- What fits a field of a builtin type of a class, which may have gained members since. Types
without literals have no fitting expression. -/
def FitsBuiltin (owner after : ClassDef) (expr : Expr) : Builtin → Prop
  | .string => ∃ text, expr = .str text
  | .boolean => ∃ value, expr = .bool value
  | .byte => ∃ n, expr = .int n ∧ -128 ≤ n.val ∧ n.val ≤ 127
  | .short => ∃ n, expr = .int n ∧ -32768 ≤ n.val ∧ n.val ≤ 32767
  | .int => ∃ n, expr = .int n ∧ -2147483648 ≤ n.val ∧ n.val ≤ 2147483647
  | .long => ∃ n, expr = .long n
  | .float => ∃ x, expr = .float x
  | .double => ∃ x, expr = .double x
  | .calendar => ∃ ref method args, expr = .invoke (.static ref) method args ∧
      ref.owner = owner.name ∧ ∃ member ∈ after.statics, member.name = ref.name
  | _ => False

/-- What fits a field of a class. A constant is one of an enumeration of the field's type in
the catalog, for the fixed value of the field. -/
def Fits (enums : List EnumDef) (owner after : ClassDef) (field : FieldDef)
    (expr : Expr) : Prop :=
  match field.type with
  | .primitive builtin => FitsBuiltin owner after expr builtin
  | .boxed builtin => FitsBuiltin owner after expr builtin
  | .enumeration name => ∃ constantName, expr = .constant name constantName ∧
      ∃ e ∈ enums, e.name = name ∧ ∃ constant ∈ e.constants,
        constant.name = constantName ∧ field.fixedValue? = some constant.lexicalValue
  | _ => False

theorem Literal.narrowInt_ok {field value : String} {width : IntWidth} {expr : Expr}
    (h : Literal.narrowInt field width value = .ok expr) :
    ∃ n, expr = .int n ∧ -(twoPow (width.bits - 1) : Int) ≤ n.val ∧
      n.val < twoPow (width.bits - 1) := by
  unfold Literal.narrowInt at h
  split at h
  · rename_i n _
    cases h
    exact ⟨n.widen width.bits_le, rfl, n.lower, n.upper⟩
  · cases h

theorem Literal.wideInt_ok {field value : String} {expr : Expr}
    (h : Literal.wideInt field value = .ok expr) : ∃ n, expr = .long n := by
  unfold Literal.wideInt at h
  split at h
  · cases h
    exact ⟨_, rfl⟩
  · cases h

theorem Literal.singleFloat_ok {field value : String} {expr : Expr}
    (h : Literal.singleFloat field value = .ok expr) : ∃ x, expr = .float x := by
  unfold Literal.singleFloat at h
  split at h
  · cases h
    exact ⟨_, rfl⟩
  · cases h

theorem Literal.doubleFloat_ok {field value : String} {expr : Expr}
    (h : Literal.doubleFloat field value = .ok expr) : ∃ x, expr = .double x := by
  unfold Literal.doubleFloat at h
  split at h
  · cases h
    exact ⟨_, rfl⟩
  · cases h

namespace Pass

variable {policy : ErrorPolicy} {enums : List EnumDef} {installer : Installer}
    {options : Options} {o : Outline} {p : Place} {classes : List ClassDef}
    {owner after : ClassDef} {field : FieldDef} {value : String} {expr : Expr}

/-! ### Answers -/

theorem ofNumber_eq_attach {reading : Except LiteralError Expr}
    (h : Answer.ofNumber reading = .attach expr) : reading = .ok expr := by
  cases reading with
  | ok other =>
    cases h
    rfl
  | error cause => cases h

theorem ofFactory_eq_attach {grant : Except InstallError StaticRef}
    (h : Answer.ofFactory value grant = .attach expr) :
    ∃ ref, grant = .ok ref ∧
      expr = .invoke (.static ref) Factory.calendarMethod [.str value] := by
  cases grant with
  | ok ref =>
    cases h
    exact ⟨ref, rfl, rfl⟩
  | error cause => cases h

theorem fitsBuiltin_of_answer {site : Site} {builtin : Builtin}
    (target : Target.of field.type = Target.ofBuiltin builtin)
    (granted : builtin = .calendar → ∀ ref, site.grant = .ok ref →
      ref.owner = owner.name ∧ ∃ member ∈ after.statics, member.name = ref.name)
    (h : site.answer field value = .attach expr) : FitsBuiltin owner after expr builtin := by
  rw [Site.answer, target] at h
  cases builtin with
  | string =>
    cases h
    exact ⟨value, rfl⟩
  | boolean =>
    cases h
    exact ⟨_, rfl⟩
  | byte =>
    obtain ⟨n, rfl, lower, upper⟩ := Literal.narrowInt_ok (ofNumber_eq_attach h)
    exact ⟨n, rfl, lower, Int.le_of_lt_add_one upper⟩
  | short =>
    obtain ⟨n, rfl, lower, upper⟩ := Literal.narrowInt_ok (ofNumber_eq_attach h)
    exact ⟨n, rfl, lower, Int.le_of_lt_add_one upper⟩
  | int =>
    obtain ⟨n, rfl, lower, upper⟩ := Literal.narrowInt_ok (ofNumber_eq_attach h)
    exact ⟨n, rfl, lower, Int.le_of_lt_add_one upper⟩
  | long => exact Literal.wideInt_ok (ofNumber_eq_attach h)
  | float => exact Literal.singleFloat_ok (ofNumber_eq_attach h)
  | double => exact Literal.doubleFloat_ok (ofNumber_eq_attach h)
  | calendar =>
    obtain ⟨ref, grant, rfl⟩ := ofFactory_eq_attach h
    exact ⟨ref, _, _, rfl, granted rfl ref grant⟩
  | _ => cases h

theorem fits_of_answer (site : Site) (fixed : field.fixedValue? = some value)
    (granted : Target.of field.type = .calendar → ∀ ref, site.grant = .ok ref →
      ref.owner = owner.name ∧ ∃ member ∈ after.statics, member.name = ref.name)
    (h : site.answer field value = .attach expr) :
    Fits site.enums owner after field expr := by
  unfold Fits
  cases type : field.type with
  | primitive builtin =>
    have target : Target.of field.type = Target.ofBuiltin builtin := by rw [type]; rfl
    exact fitsBuiltin_of_answer target (fun named => granted (by rw [target, named]; rfl)) h
  | boxed builtin =>
    have target : Target.of field.type = Target.ofBuiltin builtin := by rw [type]; rfl
    exact fitsBuiltin_of_answer target (fun named => granted (by rw [target, named]; rfl)) h
  | enumeration name =>
    rw [Site.answer, type] at h
    simp only [Target.of] at h
    split at h
    · rename_i found
      cases h
      obtain ⟨e, he, named, constant, hconstant, lexical, rfl⟩ := Catalog.constant?_some found
      exact ⟨constant.name, rfl, e, he, named, constant, hconstant,
        rfl, by rw [fixed, lexical]⟩
    · cases h
  | generated name =>
    rw [Site.answer, type] at h
    cases h
  | external name =>
    rw [Site.answer, type] at h
    cases h

theorem calendar_of_answer {site : Site} {ref : StaticRef} {method : String}
    {args : List Expr}
    (h : site.answer field value = .attach (.invoke (.static ref) method args)) :
    Target.of field.type = .calendar ∧ site.grant = .ok ref := by
  unfold Site.answer at h
  cases target : Target.of field.type with
  | calendar =>
    rw [target] at h
    obtain ⟨granted, grant, eq⟩ := ofFactory_eq_attach h
    cases eq
    exact ⟨rfl, grant⟩
  | narrowInt width =>
    rw [target] at h
    obtain ⟨n, eq, -⟩ := Literal.narrowInt_ok (ofNumber_eq_attach h)
    cases eq
  | wideInt =>
    rw [target] at h
    obtain ⟨n, eq⟩ := Literal.wideInt_ok (ofNumber_eq_attach h)
    cases eq
  | singleFloat =>
    rw [target] at h
    obtain ⟨x, eq⟩ := Literal.singleFloat_ok (ofNumber_eq_attach h)
    cases eq
  | doubleFloat =>
    rw [target] at h
    obtain ⟨x, eq⟩ := Literal.doubleFloat_ok (ofNumber_eq_attach h)
    cases eq
  | enumeration name =>
    rw [target] at h
    simp only at h
    split at h
    · rename_i found
      cases h
      obtain ⟨e, -, -, constant, -, -, eq⟩ := Catalog.constant?_some found
      cases eq
    · cases h
  | _ =>
    rw [target] at h
    cases h

/-! ### Granted factories -/

/-- A class that was granted its factory, and whose visit gets to a calendar value, declares
the factory afterwards: the first member of the name that it had, or the one that it
gained. -/
theorem static?_after_grant (sound : installer.Sound) {ref : StaticRef} {trusted : Bool}
    (granted : Factory.grant installer.fieldName trusted owner = .ok ref)
    (calendar : (policy.reached owner.fields).any FieldDef.isCalendar = true) :
    (treated policy enums installer owner).static? installer.fieldName =
      some ((owner.static? installer.fieldName).getD
        (Factory.member installer.fieldName)) := by
  obtain ⟨identifier, available, -⟩ := Factory.grant_eq_ok.mp granted
  cases declared : owner.static? installer.fieldName with
  | some existing =>
    have held : gains installer.fieldName owner (policy.reached owner.fields) = false := by
      simp [gains, Factory.free, ClassDef.hasMember, declared]
    rw [static?_treated_of_not_gains sound policy enums owner held, declared]
    rfl
  | none =>
    have room : (owner.field? installer.fieldName).isNone = true := by
      simpa [Factory.available, declared] using available
    have gained : gains installer.fieldName owner (policy.reached owner.fields) = true := by
      rw [Option.isNone_iff_eq_none] at room
      simp [gains, calendar, Factory.free, identifier, ClassDef.hasMember, declared, room]
    rw [static?_treated_of_gains sound policy enums owner gained]
    rfl

theorem trusts_range {other : ClassDef} (sound : installer.Sound)
    (differs : ∀ c ∈ classes, c.id = other.id → c.name ≠ other.name)
    (distrust : installer.trusts other = false) :
    (range policy enums installer classes).installer.trusts other = false := by
  refine (range_keeps (P := fun later => later.trusts other = false) sound ?_ distrust).2
  intro later hlater distrust c hc
  rw [(visit_accounts hlater policy enums c).installer_eq]
  exact Installer.trusts_attemptIf hlater _ (differs c hc) distrust

/-- A calendar value that the pass gets to is one of the fields that the visit of its class
gets to. -/
theorem any_isCalendar_of_reached (hp : p ∈ o.places) (reached : isReached policy p = true)
    (calendar : p.field.isCalendar = true) :
    (policy.reached p.owner.fields).any FieldDef.isCalendar = true := by
  obtain ⟨later, rest, -, fields_eq⟩ := mem_places_iff.mp hp
  obtain ⟨-, ready, passed⟩ := isReached_iff.mp reached
  have split : policy.reached (p.ready ++ p.field :: rest) =
      p.ready ++ policy.reached (p.field :: rest) :=
    List.takeWhile_append_of_pos (List.all_eq_true.mp ready)
  rw [fields_eq, split, ErrorPolicy.reached, List.takeWhile_cons_of_pos passed]
  simp [calendar]

/-- **Every attached initializer fits its field, and what it refers to is declared.** Whatever
a pass attaches at a place, the field there has it afterwards and it fits the type of the
field; a calendar value calls a static member of its own class, which the class then declares.
If no two classes share both their identity and their name, the first member of that name is a
factory. -/
theorem attached_fits (hp : p ∈ o.places) (h : attached? options o p = some expr) :
    ∃ after, p.class? (run options o).outline.classes = some after ∧
      p.field? (run options o).outline.classes = some { p.field with init := some expr } ∧
      Fits o.enums p.owner after p.field expr ∧
      ((o.classes.Pairwise fun a b => a.id = b.id → a.name ≠ b.name) →
        ∀ ref method args, expr = .invoke (.static ref) method args →
          ∃ first, after.static? ref.name = some first ∧
            first.type = .external "DatatypeFactory" ∧
            first.modifiers.isStatic = true) := by
  obtain ⟨enabled, reached, value, fixed, answered⟩ := answer_of_attached hp h
  obtain ⟨sound, named⟩ := sound_arrivalAt options o p
  obtain ⟨before, -, -⟩ := isReached_iff.mp reached
  have grant : (siteOf options o p).grant =
      Factory.grant (arrival options o p).fieldName
        ((arrival options o p).trusts p.owner) p.owner :=
    Installer.grant_attempt sound p.owner
  -- a grant refers to the member that the class declares after its visit
  have declared : Target.of p.field.type = .calendar →
      ∀ ref, (siteOf options o p).grant = .ok ref →
      ref = p.owner.staticRef (arrival options o p).fieldName ∧
      (treated options.policy o.enums (arrival options o p) p.owner).static? ref.name =
        some ((p.owner.static? ref.name).getD (Factory.member ref.name)) := by
    intro target ref granted
    rw [grant] at granted
    obtain ⟨-, -, rfl⟩ := Factory.grant_eq_ok.mp granted
    have calendar : p.field.isCalendar = true :=
      isCalendar_iff.mpr ⟨by simp [FieldDef.isEligible, fixed], target⟩
    exact ⟨rfl,
      static?_after_grant sound granted (any_isCalendar_of_reached hp reached calendar)⟩
  refine ⟨treated options.policy o.enums (arrival options o p) p.owner, ?_, ?_, ?_, ?_⟩
  · rw [class?_run enabled hp, if_pos before]
  · rw [field?_run_attached enabled hp, h]
    rfl
  · refine fits_of_answer (siteOf options o p) fixed (fun target ref granted => ?_) answered
    obtain ⟨rfl, found⟩ := declared target ref granted
    exact ⟨rfl, _, List.mem_of_find?_eq_some found, by simpa using List.find?_some found⟩
  · rintro distinct ref method args rfl
    obtain ⟨target, granted⟩ := calendar_of_answer answered
    obtain ⟨rfl, found⟩ := declared target ref granted
    refine ⟨_, found, ?_⟩
    -- no class in front has both the identity and the name, so the member was looked at
    obtain ⟨later, rest, split, -⟩ := mem_places_iff.mp hp
    rw [split, List.pairwise_append] at distinct
    have distrust : (arrival options o p).trusts p.owner = false :=
      trusts_range (Installer.sound_new _)
        (fun c hc => distinct.2.2 c hc p.owner List.mem_cons_self) rfl
    rw [grant, distrust] at granted
    exact Factory.serves_of_grant granted

/-- The calendar value of the second class in `orders`. -/
def made : Place :=
  ⟨orders.classes.dropLast, orders.classes.getLast (List.cons_ne_nil _ _), [],
    fixedField "made" (.boxed .calendar) "2024-01-01"⟩

theorem made_fits :
    ∃ after, made.class?
      (run { Options.standard with policy := .skip } orders).outline.classes = some after ∧
      ∃ first, after.static? "DATATYPE_FACTORY" = some first ∧
        first.type = .external "DatatypeFactory" ∧ first.modifiers.isStatic = true := by
  have here : made ∈ orders.places := mem_places_iff.mpr ⟨[], _, rfl, rfl⟩
  have called : attached? { Options.standard with policy := .skip } orders made =
      some (Factory.calendar ⟨"Item", "DATATYPE_FACTORY"⟩ "2024-01-01") := rfl
  obtain ⟨after, found, -, -, served⟩ := attached_fits here called
  exact ⟨after, found, served (by decide) _ _ _ rfl⟩

end Pass

end FixedInit
