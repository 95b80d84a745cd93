/-
The two flavours of builtin types are treated alike.

A type is primitive or boxed, and a pass never asks which. So exchanging the flavours of any
declared types of an outline and running the pass can be done in either order, and what is
told of it is the same.

* `unnoticed_exchange` : an installer does not notice an exchange;
* `stretch_exchange`, `range_exchange` : the fields of a class and the classes of an outline,
  exchanged;
* `run_exchange` : the outcome of a pass over an exchanged outline.

Design notes: which types are exchanged is said by position, so any selection of them can be.
A member that the pass adds takes a position behind all others, and its type has no other
flavour.
-/
import FixedInit.Proofs.Range

namespace FixedInit

/-! ### Exchanged flavours -/

/-- The type with the other flavour; a type that is not builtin has none. -/
def TypeRef.otherFlavour : TypeRef → TypeRef
  | primitive builtin => boxed builtin
  | boxed builtin => primitive builtin
  | type => type

/-- The type with the other flavour, if it is to be exchanged. -/
def TypeRef.exchange (exchanged : Bool) (type : TypeRef) : TypeRef :=
  if exchanged then type.otherFlavour else type

/-- Which declared types of a class are exchanged: those of the fields and of the static
members at some positions. -/
structure Exchange where
  fields : Nat → Bool
  statics : Nat → Bool

/-- A field whose type is exchanged or not. -/
def FieldDef.exchange (exchanged : Bool) (field : FieldDef) : FieldDef :=
  { field with type := field.type.exchange exchanged }

/-- A static member whose type is exchanged or not. -/
def StaticDef.exchange (exchanged : Bool) (member : StaticDef) : StaticDef :=
  { member with type := member.type.exchange exchanged }

/-- Fields whose types are exchanged at some positions. -/
def exchangeFields (exchanged : Nat → Bool) (fields : List FieldDef) : List FieldDef :=
  fields.mapIdx fun i field => field.exchange (exchanged i)

/-- A class whose types are exchanged at some positions. -/
def ClassDef.exchange (e : Exchange) (c : ClassDef) : ClassDef :=
  { c with
    fields := exchangeFields e.fields c.fields
    statics := c.statics.mapIdx fun i member => member.exchange (e.statics i) }

/-- Classes whose types are exchanged, each class by an exchange of its own. -/
def exchangeClasses (e : Nat → Exchange) (classes : List ClassDef) : List ClassDef :=
  classes.mapIdx fun i c => c.exchange (e i)

/-- An outline whose types are exchanged, each class by an exchange of its own. -/
def Outline.exchange (e : Nat → Exchange) (o : Outline) : Outline :=
  { o with classes := exchangeClasses e o.classes }

theorem Target.of_exchange (exchanged : Bool) (type : TypeRef) :
    Target.of (type.exchange exchanged) = Target.of type := by
  cases exchanged with
  | false => rfl
  | true => cases type <;> rfl

theorem Factory.serves_exchange (exchanged : Bool) (member : StaticDef) :
    serves (member.exchange exchanged) = serves member := by
  -- no builtin type is the type of a factory, in either flavour
  have type_eq : ((member.type.exchange exchanged) == Factory.type) =
      (member.type == Factory.type) := by
    cases exchanged with
    | false => rfl
    | true => cases member.type <;> rfl
  rw [serves, StaticDef.exchange, type_eq]
  rfl

/-! ### What an installer notices -/

/-- A search for entries finds the same after a change by position that keeps what is searched
for and what is seen of an entry. -/
theorem find?_mapIdx {α β : Type} (p : α → Bool) (view : α → β) (change : Nat → α → α)
    (searched : ∀ i a, p (change i a) = p a) (seen : ∀ i a, view (change i a) = view a)
    (as : List α) :
    ((as.mapIdx change).find? p).map view = (as.find? p).map view := by
  induction as generalizing change with
  | nil => rfl
  | cons a as ih =>
    rw [List.mapIdx_cons, List.find?_cons, List.find?_cons, searched]
    cases p a with
    | true => exact congrArg some (seen 0 a)
    | false => exact ih _ (fun i => searched (i + 1)) fun i => seen (i + 1)

/-- What is seen of the entries of a list is the same after a change by position that keeps
it. -/
theorem map_mapIdx {α β : Type} (view : α → β) (change : Nat → α → α)
    (seen : ∀ i a, view (change i a) = view a) (as : List α) :
    (as.mapIdx change).map view = as.map view := by
  induction as generalizing change with
  | nil => rfl
  | cons a as ih =>
    rw [List.mapIdx_cons, List.map_cons, List.map_cons, seen, ih _ fun i => seen (i + 1)]

theorem unnoticed_exchange (e : Exchange) (c : ClassDef) :
    Installer.Unnoticed (ClassDef.exchange e) c where
  id := rfl
  name := rfl
  field? name := by
    have same := find?_mapIdx (fun field : FieldDef => field.name == name) (fun _ => ())
      (fun i field => field.exchange (e.fields i)) (fun _ _ => rfl) (fun _ _ => rfl) c.fields
    have found := congrArg Option.isSome same
    rwa [Option.isSome_map, Option.isSome_map] at found
  static? name :=
    find?_mapIdx (fun member : StaticDef => member.name == name) Factory.serves
      (fun i member => member.exchange (e.statics i)) (fun _ _ => rfl)
      (fun i => Factory.serves_exchange (e.statics i)) c.statics
  addStatic name := by
    have unchanged (exchanged : Bool) :
        (Factory.member name).exchange exchanged = Factory.member name := by
      cases exchanged <;> rfl
    simp [ClassDef.exchange, ClassDef.addStatic, unchanged]

namespace Pass

variable {policy : ErrorPolicy} {enums : List EnumDef} {installer : Installer}

/-! ### One field -/

section

variable (exchanged : Bool) (field : FieldDef)

theorem refusal?_exchange : (field.exchange exchanged).refusal? = field.refusal? := by
  have number : (field.exchange exchanged).number? = field.number? := by
    unfold FieldDef.number? FieldDef.exchange
    rw [Target.of_exchange]
    rfl
  rw [FieldDef.refusal?, number]
  rfl

theorem isCalendar_exchange : (field.exchange exchanged).isCalendar = field.isCalendar := by
  unfold FieldDef.isCalendar FieldDef.exchange
  rw [Target.of_exchange]
  rfl

theorem passes_exchange (policy : ErrorPolicy) :
    policy.passes (field.exchange exchanged) = policy.passes field := by
  unfold ErrorPolicy.passes
  rw [refusal?_exchange]

theorem answer?_exchange (site : Site) :
    site.answer? (field.exchange exchanged) = site.answer? field := by
  unfold Site.answer? Site.answer FieldDef.exchange
  rw [Target.of_exchange]
  rfl

/-- An exchanged field is settled like the field itself. -/
theorem settle_exchange (site : Site) :
    site.settle (field.exchange exchanged) = (site.settle field).exchange exchanged := by
  unfold Site.settle
  rw [answer?_exchange]
  cases site.answer? field with
  | none => rfl
  | some answer => cases answer <;> rfl

/-- The remark on a field words its target and not its type. -/
theorem remark?_exchange (site : Site) :
    site.remark? (field.exchange exchanged) = site.remark? field := by
  unfold Site.remark?
  rw [answer?_exchange]
  cases site.answer? field with
  | none => rfl
  | some answer =>
    unfold Answer.diagnostic FieldDef.exchange
    rw [Target.of_exchange]

end

theorem site_exchange (enums : List EnumDef) (installer : Installer) (e : Exchange)
    (c : ClassDef) :
    Site.of enums installer (c.exchange e) = Site.of enums installer c := by
  rw [Site.of, Installer.attempt_edit (unnoticed_exchange e c)]
  rfl

/-! ### Stretches, ranges and passes -/

/-- The stretch of exchanged fields is the stretch of the fields, exchanged. -/
theorem stretch_exchange (policy : ErrorPolicy) (enums : List EnumDef) (installer : Installer)
    (e : Exchange) (owner : ClassDef) (exchanged : Nat → Bool) (fields : List FieldDef) :
    stretch policy enums installer (owner.exchange e) (exchangeFields exchanged fields) =
      { stretch policy enums installer owner fields with
        fields :=
          exchangeFields exchanged (stretch policy enums installer owner fields).fields
        owner := (stretch policy enums installer owner fields).owner.exchange e } := by
  induction fields generalizing installer owner exchanged with
  | nil => rfl
  | cons field fields ih =>
    have split : exchangeFields exchanged (field :: fields) =
        field.exchange (exchanged 0) :: exchangeFields (fun i => exchanged (i + 1)) fields :=
      List.mapIdx_cons
    rw [split]
    have passes := passes_exchange (exchanged 0) field policy
    cases h : policy.passes field with
    | false =>
      rw [h] at passes
      rw [stretch_cons_of_stops passes, stretch_cons_of_stops h, refusal?_exchange, split]
    | true =>
      rw [h] at passes
      rw [stretch_cons_of_passes passes, stretch_cons_of_passes h, isCalendar_exchange,
        settle_exchange, remark?_exchange, site_exchange,
        Installer.attemptIf_edit (unnoticed_exchange e owner), ih]
      simp only [Stretch.after, exchangeFields, List.mapIdx_cons]

theorem visit_exchange (policy : ErrorPolicy) (enums : List EnumDef) (installer : Installer)
    (e : Exchange) (c : ClassDef) :
    visit policy enums installer (c.exchange e) =
      { visit policy enums installer c with
        fields := exchangeFields e.fields (visit policy enums installer c).fields
        owner := (visit policy enums installer c).owner.exchange e } :=
  stretch_exchange policy enums installer e c e.fields c.fields

theorem treated_exchange (policy : ErrorPolicy) (enums : List EnumDef) (installer : Installer)
    (e : Exchange) (c : ClassDef) :
    treated policy enums installer (c.exchange e) =
      (treated policy enums installer c).exchange e := by
  rw [treated, visit_exchange]
  rfl

/-- The range of exchanged classes is the range of the classes, exchanged. -/
theorem range_exchange (policy : ErrorPolicy) (enums : List EnumDef) (installer : Installer)
    (e : Nat → Exchange) (classes : List ClassDef) :
    range policy enums installer (exchangeClasses e classes) =
      { range policy enums installer classes with
        classes := exchangeClasses e (range policy enums installer classes).classes } := by
  induction classes generalizing installer e with
  | nil => rfl
  | cons c classes ih =>
    have split (c : ClassDef) (classes : List ClassDef) : exchangeClasses e (c :: classes) =
        c.exchange (e 0) :: exchangeClasses (fun i => e (i + 1)) classes := List.mapIdx_cons
    have visited := visit_exchange policy enums installer (e 0) c
    rw [split]
    cases failed : (visit policy enums installer c).failure with
    | some cause =>
      have failed' : (visit policy enums installer (c.exchange (e 0))).failure =
          some cause := by
        rw [visited, failed]
      rw [range_cons_of_failure failed', range_cons_of_failure failed, treated_exchange,
        visited, split]
    | none =>
      have failed' : (visit policy enums installer (c.exchange (e 0))).failure = none := by
        rw [visited, failed]
      rw [range_cons_of_complete failed', range_cons_of_complete failed, treated_exchange,
        visited, ih, split]

theorem eligibleCount_eq (o : Outline) :
    eligibleCount o =
      ((o.classes.map fun c => c.fields.map FieldDef.isEligible).flatten).count true := by
  have eligible : o.fields.map (·.2.isEligible) =
      (o.classes.map fun c => c.fields.map FieldDef.isEligible).flatten := by
    simp only [Outline.fields, List.flatMap_def, List.map_flatten, List.map_map,
      Function.comp_def]
  rw [← eligible, List.count, List.countP_map, eligibleCount, ← List.countP_eq_length_filter]
  congr 1
  funext entry
  simp

theorem eligibleCount_exchange (e : Nat → Exchange) (o : Outline) :
    eligibleCount (o.exchange e) = eligibleCount o := by
  have fields (i : Nat) (c : ClassDef) :
      (c.exchange (e i)).fields.map FieldDef.isEligible = c.fields.map FieldDef.isEligible :=
    map_mapIdx _ (fun j field => field.exchange ((e i).fields j)) (fun _ _ => rfl) c.fields
  rw [eligibleCount_eq, eligibleCount_eq]
  congr 2
  exact map_mapIdx (fun c : ClassDef => c.fields.map FieldDef.isEligible)
    (fun i c => c.exchange (e i)) fields o.classes

/-- **The flavours of builtin types do not matter.** A pass over an outline in which any
declared types of fields and static members are exchanged for their other flavours has the
same result and tells the same, word for word and in the same order; the outline after it is
the outline after the pass, with the same types exchanged. -/
theorem run_exchange (options : Options) (e : Nat → Exchange) (o : Outline) :
    run options (o.exchange e) =
      { run options o with outline := (run options o).outline.exchange e } := by
  have classes : (o.exchange e).classes = exchangeClasses e o.classes := rfl
  have enums : (o.exchange e).enums = o.enums := rfl
  unfold run
  rw [classes, enums, range_exchange, eligibleCount_exchange]
  cases options.enabled with
  | false => rfl
  | true =>
    simp only [exchangeClasses, List.length_mapIdx]
    rfl

end Pass

end FixedInit
