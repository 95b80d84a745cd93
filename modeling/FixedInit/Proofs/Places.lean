/-
The fields of an outline in the order in which a pass gets to them.

A field is known by its place, since names of classes and of fields may repeat. What becomes
of it depends on whether a field in front of it ended the pass, and on the site of its class:
the installer with which the pass arrives there is what the classes in front have left.

* `mem_places_iff` : the places of an outline are the ways to split its classes at a field;
* `preceding_of_split` : a place stands behind exactly the places in front of it in the list;
* `field?_run` : the field at a place after a pass;
* `diagnostics_run_places` : the remarks of a pass, place by place;
* `getElem?_diagnostics` : the remark on the field at a place.
-/
import FixedInit.Proofs.Range
import Mathlib.Data.List.TakeWhile

namespace FixedInit

/-- A field of some classes, with the classes in front of its own and the fields in front of
it there. -/
structure Place where
  before : List ClassDef
  owner : ClassDef
  ready : List FieldDef
  field : FieldDef

namespace Place

/-- The class at the same place among other classes. -/
def class? (p : Place) (classes : List ClassDef) : Option ClassDef :=
  classes[p.before.length]?

/-- The field at the same place among other classes. -/
def field? (p : Place) (classes : List ClassDef) : Option FieldDef :=
  (p.class? classes).bind fun c => c.fields[p.ready.length]?

/-- All fields in front of a place, those of the classes in front first. -/
def preceding (p : Place) : List FieldDef :=
  p.before.flatMap (·.fields) ++ p.ready

end Place

/-- The places of fields of a class that follow some others. -/
def placesIn (before : List ClassDef) (owner : ClassDef) (ready : List FieldDef) :
    List FieldDef → List Place
  | [] => []
  | field :: fields =>
    ⟨before, owner, ready, field⟩ :: placesIn before owner (ready ++ [field]) fields

/-- The places of the fields of classes that follow some others. -/
def placesFrom (before : List ClassDef) : List ClassDef → List Place
  | [] => []
  | c :: classes => placesIn before c [] c.fields ++ placesFrom (before ++ [c]) classes

/-- The places of all fields of an outline, in order. -/
def Outline.places (o : Outline) : List Place :=
  placesFrom [] o.classes

variable {before classes : List ClassDef} {owner : ClassDef} {ready fields : List FieldDef}
    {p : Place} {front back : List Place}

theorem mem_placesIn_iff : p ∈ placesIn before owner ready fields ↔
    p.before = before ∧ p.owner = owner ∧
      ∃ more rest, p.ready = ready ++ more ∧ fields = more ++ p.field :: rest := by
  induction fields generalizing ready with
  | nil =>
    constructor
    · intro h
      cases h
    · rintro ⟨-, -, more, rest, -, split⟩
      simp at split
  | cons field fields ih =>
    rw [placesIn, List.mem_cons, ih]
    constructor
    · rintro (rfl | ⟨rfl, rfl, more, rest, ready_eq, rfl⟩)
      · exact ⟨rfl, rfl, [], fields, (List.append_nil _).symm, rfl⟩
      · exact ⟨rfl, rfl, field :: more, rest, by simp [ready_eq], rfl⟩
    · rintro ⟨rfl, rfl, more, rest, ready_eq, split⟩
      cases more with
      | nil =>
        obtain ⟨rfl, rfl⟩ := List.cons.inj split
        rw [List.append_nil] at ready_eq
        exact .inl (by rw [← ready_eq])
      | cons other more =>
        obtain ⟨rfl, rfl⟩ := List.cons.inj split
        exact .inr ⟨rfl, rfl, more, rest, by simp [ready_eq], rfl⟩

theorem mem_placesFrom_iff : p ∈ placesFrom before classes ↔
    ∃ more later rest, p.before = before ++ more ∧ classes = more ++ p.owner :: later ∧
      p.owner.fields = p.ready ++ p.field :: rest := by
  induction classes generalizing before with
  | nil =>
    constructor
    · intro h
      cases h
    · rintro ⟨more, later, rest, -, split, -⟩
      simp at split
  | cons c classes ih =>
    rw [placesFrom, List.mem_append, mem_placesIn_iff, ih]
    constructor
    · rintro (⟨rfl, rfl, more, rest, ready_eq, split⟩
          | ⟨more, later, rest, before_eq, rfl, split⟩)
      · rw [List.nil_append] at ready_eq
        exact ⟨[], classes, rest, (List.append_nil _).symm, rfl, by rw [ready_eq, split]⟩
      · exact ⟨c :: more, later, rest, by simp [before_eq], rfl, split⟩
    · rintro ⟨more, later, rest, before_eq, split, fields_eq⟩
      cases more with
      | nil =>
        obtain ⟨rfl, rfl⟩ := List.cons.inj split
        rw [List.append_nil] at before_eq
        exact .inl ⟨before_eq, rfl, p.ready, rest, rfl, fields_eq⟩
      | cons other more =>
        obtain ⟨rfl, rfl⟩ := List.cons.inj split
        exact .inr ⟨more, later, rest, by simp [before_eq], rfl, fields_eq⟩

theorem mem_places_iff {o : Outline} : p ∈ o.places ↔
    ∃ later rest, o.classes = p.before ++ p.owner :: later ∧
      p.owner.fields = p.ready ++ p.field :: rest := by
  rw [Outline.places, mem_placesFrom_iff]
  constructor
  · rintro ⟨more, later, rest, before_eq, split, fields_eq⟩
    rw [List.nil_append] at before_eq
    exact ⟨later, rest, before_eq ▸ split, fields_eq⟩
  · rintro ⟨later, rest, split, fields_eq⟩
    exact ⟨p.before, later, rest, rfl, split, fields_eq⟩

theorem ready_of_split (h : placesIn before owner ready fields = front ++ p :: back) :
    p.before = before ∧ p.ready = ready ++ front.map (·.field) := by
  induction fields generalizing ready front with
  | nil => simp [placesIn] at h
  | cons field fields ih =>
    rw [placesIn] at h
    cases front with
    | nil =>
      obtain ⟨rfl, -⟩ := List.cons.inj h
      exact ⟨rfl, (List.append_nil _).symm⟩
    | cons first front =>
      obtain ⟨rfl, tail⟩ := List.cons.inj h
      obtain ⟨before_eq, ready_eq⟩ := ih tail
      exact ⟨before_eq, by simp [ready_eq]⟩

theorem fields_placesIn (before : List ClassDef) (owner : ClassDef)
    (ready fields : List FieldDef) :
    (placesIn before owner ready fields).map (·.field) = fields := by
  induction fields generalizing ready with
  | nil => rfl
  | cons field fields ih => rw [placesIn, List.map_cons, ih]

theorem fields_placesFrom (before classes : List ClassDef) :
    (placesFrom before classes).map (·.field) = classes.flatMap (·.fields) := by
  induction classes generalizing before with
  | nil => rfl
  | cons c classes ih =>
    rw [placesFrom, List.map_append, fields_placesIn, ih, List.flatMap_cons]

theorem preceding_of_split_from (h : placesFrom before classes = front ++ p :: back) :
    p.preceding = before.flatMap (·.fields) ++ front.map (·.field) := by
  induction classes generalizing before front with
  | nil => simp [placesFrom] at h
  | cons c classes ih =>
    -- the place is one of the first class or of a later one
    have first := fields_placesIn before c [] c.fields
    rw [placesFrom, List.append_eq_append_iff] at h
    obtain ⟨more, rfl, later⟩ | ⟨more, here, later⟩ := h
    · rw [ih later, List.map_append, first]
      simp
    · cases more with
      | nil =>
        rw [List.append_nil] at here
        rw [← List.nil_append (p :: back)] at later
        rw [ih later.symm, ← here, first]
        simp
      | cons q more =>
        obtain ⟨rfl, -⟩ := List.cons.inj later
        obtain ⟨before_eq, ready_eq⟩ := ready_of_split here
        rw [Place.preceding, before_eq, ready_eq, List.nil_append]

theorem preceding_of_split {o : Outline} (h : o.places = front ++ p :: back) :
    p.preceding = front.map (·.field) :=
  preceding_of_split_from h

namespace Pass

variable {policy : ErrorPolicy} {enums : List EnumDef} {installer : Installer}
    {options : Options} {o : Outline}

/-! ### How far a pass gets -/

/-- Whether a pass gets to a place and past it. -/
def isReached (policy : ErrorPolicy) (p : Place) : Bool :=
  p.preceding.all policy.passes && policy.passes p.field

theorem isReached_iff : isReached policy p = true ↔
    (p.before.flatMap (·.fields)).all policy.passes = true ∧
    p.ready.all policy.passes = true ∧
      policy.passes p.field = true := by
  rw [isReached, Place.preceding, List.all_append, Bool.and_eq_true,
    Bool.and_eq_true, and_assoc]

/-- The places that a pass gets to. -/
def reachedPlaces (policy : ErrorPolicy) (places : List Place) : List Place :=
  places.takeWhile fun p => policy.passes p.field

/-- The places from the one at which a pass ends. -/
def leftPlaces (policy : ErrorPolicy) (places : List Place) : List Place :=
  places.dropWhile fun p => policy.passes p.field

theorem reachedPlaces_append_leftPlaces (policy : ErrorPolicy) (places : List Place) :
    reachedPlaces policy places ++ leftPlaces policy places = places :=
  List.takeWhile_append_dropWhile

theorem stops_of_leftPlaces {places : List Place} (h : leftPlaces policy places = p :: back) :
    policy.passes p.field = false := by
  have head := List.head?_dropWhile_not (fun p : Place => policy.passes p.field) places
  rw [show places.dropWhile (fun p : Place => policy.passes p.field) = p :: back from h]
    at head
  exact head

theorem isReached_of_mem_reachedPlaces (h : p ∈ reachedPlaces policy o.places) :
    isReached policy p = true := by
  obtain ⟨front, back, split⟩ := List.append_of_mem h
  have whole := reachedPlaces_append_leftPlaces policy o.places
  rw [split, List.append_assoc, List.cons_append] at whole
  have passed : ∀ q ∈ reachedPlaces policy o.places, policy.passes q.field = true :=
    List.all_eq_true.mp List.all_takeWhile
  rw [isReached, preceding_of_split whole.symm, Bool.and_eq_true, List.all_eq_true]
  refine ⟨fun field hfield => ?_, passed p h⟩
  obtain ⟨q, hq, rfl⟩ := List.mem_map.mp hfield
  exact passed q (split ▸ List.mem_append_left _ hq)

theorem isReached_of_mem_leftPlaces (h : p ∈ leftPlaces policy o.places) :
    isReached policy p = false := by
  obtain ⟨front, back, split⟩ := List.append_of_mem h
  have whole := reachedPlaces_append_leftPlaces policy o.places
  rw [split, ← List.append_assoc] at whole
  rw [isReached, preceding_of_split whole.symm, Bool.and_eq_false_iff]
  -- the pass ends at the first of the places that are left
  cases front with
  | nil => exact .inr (stops_of_leftPlaces split)
  | cons stop front =>
    refine .inl (List.all_eq_false.mpr ⟨stop.field, ?_, ?_⟩)
    · simp
    · exact Bool.eq_false_iff.mp (stops_of_leftPlaces split)

theorem mem_reachedPlaces {policy : ErrorPolicy} (hp : p ∈ o.places)
    (reached : isReached policy p = true) :
    p ∈ reachedPlaces policy o.places := by
  rw [← reachedPlaces_append_leftPlaces policy o.places] at hp
  refine (List.mem_append.mp hp).resolve_right fun left => ?_
  rw [isReached_of_mem_leftPlaces left] at reached
  cases reached

/-- A range of classes ends at the first of their fields that the pass does not get past. -/
theorem failure_range (sound : installer.Sound) :
    (range policy enums installer classes).failure =
      (policy.left (classes.flatMap (·.fields))).head?.bind FieldDef.refusal? := by
  induction classes generalizing installer with
  | nil => rfl
  | cons c classes ih =>
    have visited := (visit_accounts sound policy enums c).failure_eq
    have ended := failure_eq_none_iff sound policy enums c
    rw [List.flatMap_cons, ErrorPolicy.left, List.dropWhile_append]
    cases failed : (visit policy enums installer c).failure with
    | some cause =>
      rw [failed] at visited ended
      have some_left : c.fields.dropWhile policy.passes ≠ [] := ended.not.mp nofun
      rw [range_cons_of_failure failed, if_neg (by simpa using some_left),
        List.head?_append_of_ne_nil _ some_left]
      exact visited
    | none =>
      have none_left : c.fields.dropWhile policy.passes = [] := ended.mp failed
      rw [range_cons_of_complete failed, if_pos (List.isEmpty_iff.mpr none_left)]
      exact ih (sound_visit sound policy enums c).1

/-- A range of classes is complete exactly if the pass gets past all of their fields. -/
theorem failure_range_eq_none_iff (sound : installer.Sound) :
    (range policy enums installer classes).failure = none ↔
      (classes.flatMap (·.fields)).all policy.passes = true := by
  rw [failure_range sound, ErrorPolicy.refusal?_left_eq_none_iff, ErrorPolicy.left,
    List.dropWhile_eq_nil_iff, List.all_eq_true]

/-! ### The field at a place -/

/-- A range of classes that ends early leaves the classes after it. -/
theorem range_append_of_failure {cause : LiteralError}
    (h : (range policy enums installer before).failure = some cause) (rest : List ClassDef) :
    (range policy enums installer (before ++ rest)).classes =
      (range policy enums installer before).classes ++ rest := by
  induction before generalizing installer with
  | nil => cases h
  | cons c before ih =>
    cases failed : (visit policy enums installer c).failure with
    | some cause =>
      rw [List.cons_append, range_cons_of_failure failed, range_cons_of_failure failed]
      rfl
    | none =>
      rw [range_cons_of_complete failed] at h
      rw [List.cons_append, range_cons_of_complete failed,
        range_cons_of_complete failed, ih h]
      rfl

/-- The class behind some others is visited, if those are treated completely. -/
theorem class?_range (sound : installer.Sound) (policy : ErrorPolicy) (enums : List EnumDef)
    (before : List ClassDef) (owner : ClassDef) (later : List ClassDef) :
    (range policy enums installer (before ++ owner :: later)).classes[before.length]? =
      some (if (range policy enums installer before).failure = none then
          treated policy enums (range policy enums installer before).installer owner
        else owner) := by
  have length := length_range sound policy enums before
  cases failed : (range policy enums installer before).failure with
  | some cause =>
    rw [range_append_of_failure failed,
      List.getElem?_append_right (Nat.le_of_eq length), length]
    simp
  | none =>
    rw [range_append failed, Range.followedBy,
      List.getElem?_append_right (Nat.le_of_eq length), length, Nat.sub_self, if_pos rfl]
    cases visited :
      (visit policy enums (range policy enums installer before).installer owner).failure
    with
    | some cause =>
      rw [range_cons_of_failure visited]
      rfl
    | none =>
      rw [range_cons_of_complete visited]
      rfl

/-- The field behind some others of its class, once those that are reached are settled. -/
theorem field?_settled (policy : ErrorPolicy) (site : Site) (ready : List FieldDef)
    (field : FieldDef) (rest : List FieldDef) :
    ((policy.reached (ready ++ field :: rest)).map site.settle ++
        policy.left (ready ++ field :: rest))[ready.length]? =
      some (if ready.all policy.passes && policy.passes field then site.settle field
        else field) := by
  induction ready with
  | nil =>
    cases passed : policy.passes field with
    | true => simp [ErrorPolicy.reached, passed]
    | false => simp [ErrorPolicy.reached, ErrorPolicy.left, passed]
  | cons first ready ih =>
    cases passed : policy.passes first with
    | true => simpa [ErrorPolicy.reached, ErrorPolicy.left, passed] using ih
    | false => simp [ErrorPolicy.reached, ErrorPolicy.left, passed]

/-- The site of a place, for a range that starts with the given installer. -/
def siteFrom (policy : ErrorPolicy) (enums : List EnumDef) (installer : Installer)
    (p : Place) : Site :=
  .of enums (range policy enums installer p.before).installer p.owner

/-- The installer with which a pass arrives at the class of a place. -/
def arrival (options : Options) (o : Outline) (p : Place) : Installer :=
  (range options.policy o.enums (.new options.factoryField) p.before).installer

/-- The site of a place in a pass. -/
def siteOf (options : Options) (o : Outline) (p : Place) : Site :=
  siteFrom options.policy o.enums (.new options.factoryField) p

theorem sound_arrivalAt (options : Options) (o : Outline) (p : Place) :
    (arrival options o p).Sound ∧ (arrival options o p).fieldName = options.factoryField :=
  sound_range (Installer.sound_new _) _ _ _

/-- The class of a place after a pass. -/
theorem class?_run (enabled : options.enabled = true) (hp : p ∈ o.places) :
    p.class? (run options o).outline.classes =
      some (if (p.before.flatMap (·.fields)).all options.policy.passes then
        treated options.policy o.enums (arrival options o p) p.owner else p.owner) := by
  have sound := Installer.sound_new options.factoryField
  obtain ⟨later, rest, split, -⟩ := mem_places_iff.mp hp
  rw [outline_run enabled, whole, Place.class?]
  simp only [split]
  rw [class?_range sound]
  simp only [failure_range_eq_none_iff sound]
  rfl

/-- The field at a place after a pass: settled at the site of its class if the pass gets to
it, and as it was if not. -/
theorem field?_run (enabled : options.enabled = true) (hp : p ∈ o.places) :
    p.field? (run options o).outline.classes =
      some (if isReached options.policy p then (siteOf options o p).settle p.field
        else p.field) := by
  obtain ⟨later, rest, -, fields_eq⟩ := mem_places_iff.mp hp
  rw [Place.field?, class?_run enabled hp, Option.bind_some, isReached, Place.preceding,
    List.all_append, Bool.and_assoc]
  cases passed : (p.before.flatMap (·.fields)).all options.policy.passes with
  | true =>
    have settled := field?_settled options.policy (siteOf options o p) p.ready p.field rest
    rw [if_pos rfl, treated_eq (sound_arrivalAt options o p).1, fields_eq, Bool.true_and]
    exact settled
  | false => simp [fields_eq]

/-- Every field of an outline after a pass is the field at a place of it. -/
theorem exists_place_of_mem_run (enabled : options.enabled = true) {after : ClassDef}
    {field : FieldDef} (hafter : after ∈ (run options o).outline.classes)
    (hfield : field ∈ after.fields) :
    ∃ p ∈ o.places, p.field? (run options o).outline.classes = some field := by
  rw [outline_run enabled] at hafter ⊢
  have paired : List.Forall₂ (fun c after => c.fields.length = after.fields.length) o.classes
      (whole options o).classes := by
    refine forall₂_range (Installer.sound_new _) (fun _ => ?_) (fun later sound _ c => ?_) _
    · rfl
    · rw [treated_eq sound, List.length_append, List.length_map, ← List.length_append,
        ErrorPolicy.reached_append_left]
  obtain ⟨i, hi, rfl⟩ := List.getElem_of_mem hafter
  obtain ⟨j, hj, rfl⟩ := List.getElem_of_mem hfield
  have hi' : i < o.classes.length := paired.length_eq ▸ hi
  have hj' : j < o.classes[i].fields.length := (paired.get hi' hi).symm ▸ hj
  refine ⟨⟨o.classes.take i, o.classes[i], o.classes[i].fields.take j,
      o.classes[i].fields[j]⟩,
    mem_places_iff.mpr ⟨o.classes.drop (i + 1), o.classes[i].fields.drop (j + 1), ?_, ?_⟩, ?_⟩
  · rw [List.getElem_cons_drop, List.take_append_drop]
  · rw [List.getElem_cons_drop, List.take_append_drop]
  · rw [Place.field?, Place.class?, List.length_take_of_le (Nat.le_of_lt hi'),
      List.getElem?_eq_getElem hi, Option.bind_some,
      List.length_take_of_le (Nat.le_of_lt hj'), List.getElem?_eq_getElem hj]

/-! ### The remarks, place by place -/

/-- The places of one class in front of others: the pass gets to the others if it leaves no
field here. -/
theorem filterMap_reachedPlaces (remark? : FieldDef → Option Diagnostic)
    (placed : Place → Option Diagnostic)
    (same : ∀ ready field, placed ⟨before, owner, ready, field⟩ = remark? field)
    (policy : ErrorPolicy) (ready fields : List FieldDef) (others : List Place) :
    (reachedPlaces policy (placesIn before owner ready fields ++ others)).filterMap placed =
      (policy.reached fields).filterMap remark? ++ if policy.left fields = [] then
        (reachedPlaces policy others).filterMap placed else [] := by
  induction fields generalizing ready with
  | nil => rfl
  | cons field fields ih =>
    have tail := ih (ready ++ [field])
    rw [reachedPlaces, ErrorPolicy.reached, ErrorPolicy.left] at tail ⊢
    cases passed : policy.passes field with
    | true => cases h : remark? field <;> simp [placesIn, passed, same, tail, h]
    | false => simp [placesIn, passed]

theorem diagnostics_range_places (sound : installer.Sound) (policy : ErrorPolicy)
    (enums : List EnumDef) (before classes : List ClassDef)
    (complete : (range policy enums installer before).failure = none) :
    diagnostics (range policy enums (range policy enums installer before).installer
      classes).log =
      (reachedPlaces policy (placesFrom before classes)).filterMap fun p =>
        (siteFrom policy enums installer p).remark? p.field := by
  induction classes generalizing before with
  | nil => rfl
  | cons c classes ih =>
    have sound' := (sound_range sound policy enums before).1
    have visited := failure_eq_none_iff sound' policy enums c
    have here := filterMap_reachedPlaces
      (Site.of enums (range policy enums installer before).installer c).remark?
      (fun p => (siteFrom policy enums installer p).remark? p.field) (fun _ _ => rfl)
      policy [] c.fields (placesFrom (before ++ [c]) classes)
    rw [placesFrom, here]
    cases failed :
      (visit policy enums (range policy enums installer before).installer c).failure with
    | some cause =>
      rw [failed] at visited
      rw [range_cons_of_failure failed, (visit_accounts sound' policy enums c).diagnostics_eq,
        if_neg fun none_left => by simp [none_left] at visited, List.append_nil]
    | none =>
      -- the next class is arrived at with what this one leaves
      obtain ⟨complete', next⟩ := range_snoc complete failed
      rw [range_cons_of_complete failed, diagnostics_append,
        (visit_accounts sound' policy enums c).diagnostics_eq, if_pos (visited.mp failed),
        ← ih (before ++ [c]) complete', next]

theorem diagnostics_run_places (enabled : options.enabled = true) (o : Outline) :
    diagnostics (run options o).log =
      (reachedPlaces options.policy o.places).filterMap fun p =>
        (siteOf options o p).remark? p.field := by
  rw [diagnostics_run enabled]
  exact diagnostics_range_places (Installer.sound_new _) options.policy o.enums
    [] o.classes rfl

/-- The remark on a field that a pass gets to stands behind one for each field with a fixed
value in front of it. -/
theorem getElem?_diagnostics (enabled : options.enabled = true) (hp : p ∈ o.places)
    (reached : isReached options.policy p = true) {remark : Diagnostic}
    (h : (siteOf options o p).remark? p.field = some remark) :
    (diagnostics (run options o).log)[(p.preceding.filter (·.isEligible)).length]? =
      some remark := by
  obtain ⟨front, back, split⟩ := List.append_of_mem (mem_reachedPlaces hp reached)
  have whole := reachedPlaces_append_leftPlaces options.policy o.places
  rw [split, List.append_assoc, List.cons_append] at whole
  have before : (front.filterMap fun q => (siteOf options o q).remark? q.field).length =
      (p.preceding.filter (·.isEligible)).length := by
    simp only [List.length_filterMap_eq_countP, Site.remark?_isSome,
      preceding_of_split whole.symm, List.filter_map, List.length_map,
      List.countP_eq_length_filter, Function.comp_def]
  rw [diagnostics_run_places enabled, split, List.filterMap_append,
    List.filterMap_cons_some (f := fun q => (siteOf options o q).remark? q.field) h, ← before,
    List.getElem?_append_right (Nat.le_refl _), Nat.sub_self, List.getElem?_cons_zero]

end Pass

end FixedInit
