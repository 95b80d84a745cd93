/-
How the records of the snapshot format are read.

A reader of records finds the fields of a value first, in the order of their names, and then
makes up the record from them if every one of them can be read.

* `mapM_eq_some_iff` : a list is read exactly if its entries are;
* `ReadBy` : a record is read from exactly those values whose fields read as its own.

Design notes: with a `Reading` of each field, what a reader makes of a value is said field by
field, so that whatever is shown of the reading of every field is shown of the record. Some
contents of choices are records without a type of their own, such as the parts of a call. They
are read as tuples first, by `callOfJson?` and the like, and are then records as all others.
-/
import FixedInit.Model.Snapshot
import Mathlib.Data.List.Forall2

namespace FixedInit

open Json (fields? list? required nullable string? boolean? word?)

namespace Json

/-- Reading all entries of a list, entry by entry. -/
theorem mapM_eq_some_iff {α β : Type} {read : α → Option β} {entries : List α}
    {results : List β} :
    entries.mapM read = some results ↔
      List.Forall₂ (fun entry result => read entry = some result) entries results := by
  induction entries generalizing results with
  | nil =>
    rw [List.forall₂_nil_left_iff]
    exact ⟨fun h => (Option.some.inj h).symm, fun h => congrArg some h.symm⟩
  | cons entry entries ih =>
    rw [List.mapM_cons, List.forall₂_cons_left_iff]
    simp only [Option.bind_eq_bind, Option.bind_eq_some_iff, Option.pure_def,
      Option.some.injEq, ih]
    constructor
    · rintro ⟨first, read, rest, reads, rfl⟩
      exact ⟨first, rest, read, reads, rfl⟩
    · rintro ⟨first, rest, read, reads, rfl⟩
      exact ⟨first, read, rest, reads, rfl⟩

theorem fields?_some {levels : Nat} {names : List String} {value : Json}
    {fields : List (Option Json)} (h : fields? levels names value = some fields) :
    0 < levels ∧ fields.length = names.length := by
  unfold fields? at h
  split at h
  · split at h
    · cases h
    · rename_i some_level
      exact ⟨Nat.pos_of_ne_zero some_level, (mapM_eq_some_iff.mp h).length_eq.symm⟩
  · split at h
    · cases h
    · rename_i fits
      obtain ⟨some_level, length⟩ := not_or.mp fits
      cases h
      exact ⟨Nat.pos_of_ne_zero some_level, by simpa using length⟩
  · cases h

theorem fields?_zero (names : List String) (value : Json) : fields? 0 names value = none := by
  cases h : fields? 0 names value with
  | none => rfl
  | some fields => exact absurd (fields?_some h).1 (Nat.lt_irrefl 0)

end Json

/-! ### Fields -/

section

variable {α β : Type}

/-- The reading of a field of the records of a kind: the name of the field, and when a value
reads as the field of a record. A value that is missing may read as a field too. -/
structure Reading (α : Type) where
  name : String
  Reads : Option Json → α → Prop

/-- A field that must be there. -/
def Reading.required (name : String) (read : Json → Option β) (get : α → β) : Reading α :=
  ⟨name, fun field a => Json.required read field = some (get a)⟩

/-- A field that may be missing or null. -/
def Reading.nullable (name : String) (read : Json → Option β)
    (get : α → Option β) : Reading α :=
  ⟨name, fun field a => Json.nullable read field = some (get a)⟩

/-- A reader that reads records by their fields. -/
structure ReadBy (levels : Nat) (readings : List (Reading α))
    (read : Json → Option α) : Prop where
  distinct : (readings.map (·.name)).Nodup
  eq_some_iff : ∀ value a, read value = some a ↔
    ∃ fields, fields? levels (readings.map (·.name)) value = some fields ∧
      List.Forall₂ (fun reading field => reading.Reads field a) readings fields

theorem ReadBy.of_build {levels : Nat} {names : List String} {readings : List (Reading α)}
    {read : Json → Option α} {build : List (Option Json) → Option α}
    (read_eq : ∀ value, read value = (fields? levels names value).bind build)
    (distinct : names.Nodup) (names_eq : names = readings.map (·.name))
    (built : ∀ fields a, fields.length = names.length → (build fields = some a ↔
      List.Forall₂ (fun reading field => reading.Reads field a) readings fields)) :
    ReadBy levels readings read where
  distinct := names_eq ▸ distinct
  eq_some_iff value a := by
    rw [read_eq, Option.bind_eq_some_iff, ← names_eq]
    exact exists_congr fun fields => and_congr_right fun opened =>
      built fields a (Json.fields?_some opened).2

end

variable (levels : Nat)

/-! ### Expressions -/

/-- Reads the two names of a constant. -/
def Expr.constantOfJson? (levels : Nat) (value : Json) : Option (String × String) := do
  match ← fields? levels ["enum_name", "constant"] value with
  | [enumeration, name] => return (← required string? enumeration, ← required string? name)
  | _ => none

/-- Reads the parts of a method call, apart from the call that they make up. -/
def Expr.callOfJson? (levels : Nat) (value : Json) : Option (Expr × String × List Expr) := do
  match ← fields? levels ["target", "method", "args"] value with
  | [target, method, args] =>
    return (← required (Expr.ofJson? (levels - 1)) target, ← required string? method,
      ← required (list? Expr.ofJson? (levels - 1)) args)
  | _ => none

/-- Reads the parts of a call of a function of a type, apart from the call that they make
up. -/
def Expr.staticCallOfJson? (levels : Nat) (value : Json) :
    Option (String × String × List Expr) := do
  match ← fields? levels ["owner", "method", "args"] value with
  | [owner, method, args] =>
    return (← required string? owner, ← required string? method,
      ← required (list? Expr.ofJson? (levels - 1)) args)
  | _ => none

namespace Expr

theorem map_constantOfJson? (levels : Nat) (value : Json) :
    ((constantOfJson? levels value).map fun names => constant names.1 names.2) = (do
      match ← fields? levels ["enum_name", "constant"] value with
      | [enumeration, name] =>
        return constant (← required string? enumeration) (← required string? name)
      | _ => none) := by
  unfold constantOfJson?
  cases fields? levels ["enum_name", "constant"] value with
  | none => rfl
  | some fields =>
    match fields with
    | [enumeration, name] =>
      show ((required string? enumeration).bind _).map _ =
        (required string? enumeration).bind _
      cases required string? enumeration <;> cases required string? name <;> rfl
    | [] | [_] | _ :: _ :: _ :: _ => rfl

theorem argsOfJson?_eq (levels : Nat) : argsOfJson? levels = list? ofJson? levels := by
  funext value
  cases levels with
  | zero => rfl
  | succ levels => cases value <;> rfl

theorem map_callOfJson? (levels : Nat) (value : Json) :
    ((callOfJson? levels value).map fun call => invoke call.1 call.2.1 call.2.2) =
      invokeOfJson? levels value := by
  cases levels with
  | zero => rw [callOfJson?, Json.fields?_zero]; rfl
  | succ levels =>
    rw [callOfJson?, invokeOfJson?, argsOfJson?_eq, Nat.add_sub_cancel]
    cases fields? (levels + 1) ["target", "method", "args"] value with
    | none => rfl
    | some fields =>
      match fields with
      | [target, method, args] =>
        show ((required (ofJson? levels) target).bind _).map _ =
          (required (ofJson? levels) target).bind _
        cases required (ofJson? levels) target <;> cases required string? method <;>
          cases required (list? ofJson? levels) args <;> rfl
      | [] | [_] | [_, _] | _ :: _ :: _ :: _ :: _ => rfl

theorem map_staticCallOfJson? (levels : Nat) (value : Json) :
    ((staticCallOfJson? levels value).map fun call => staticInvoke call.1 call.2.1 call.2.2) =
      staticInvokeOfJson? levels value := by
  cases levels with
  | zero => rw [staticCallOfJson?, Json.fields?_zero]; rfl
  | succ levels =>
    rw [staticCallOfJson?, staticInvokeOfJson?, argsOfJson?_eq, Nat.add_sub_cancel]
    cases fields? (levels + 1) ["owner", "method", "args"] value with
    | none => rfl
    | some fields =>
      match fields with
      | [owner, method, args] =>
        show ((required string? owner).bind _).map _ = (required string? owner).bind _
        cases required string? owner <;> cases required string? method <;>
          cases required (list? ofJson? levels) args <;> rfl
      | [] | [_] | [_, _] | _ :: _ :: _ :: _ :: _ => rfl

end Expr

/-- The fields of a reference. -/
def StaticRef.readings : List (Reading StaticRef) :=
  [.required "owner" string? (·.owner), .required "name" string? (·.name)]

theorem StaticRef.readBy : ReadBy levels StaticRef.readings (StaticRef.ofJson? levels) := by
  refine .of_build (fun _ => rfl) (by decide) rfl ?_
  rintro fields ⟨owner, name⟩ length
  obtain ⟨a, b, rfl⟩ := List.length_eq_two.mp length
  simp [StaticRef.readings, Reading.required, Option.bind_eq_some_iff]

/-- The fields of a constant. -/
def Expr.constantReadings : List (Reading (String × String)) :=
  [.required "enum_name" string? (·.1), .required "constant" string? (·.2)]

theorem Expr.constant_readBy :
    ReadBy levels Expr.constantReadings (Expr.constantOfJson? levels) := by
  refine .of_build (fun _ => rfl) (by decide) rfl ?_
  rintro fields ⟨enumeration, name⟩ length
  obtain ⟨a, b, rfl⟩ := List.length_eq_two.mp length
  simp [Expr.constantReadings, Reading.required, Option.bind_eq_some_iff]

/-- The fields of a method call. -/
def Expr.callReadings (levels : Nat) : List (Reading (Expr × String × List Expr)) :=
  [.required "target" (Expr.ofJson? (levels - 1)) (·.1), .required "method" string? (·.2.1),
    .required "args" (list? Expr.ofJson? (levels - 1)) (·.2.2)]

theorem Expr.call_readBy :
    ReadBy levels (Expr.callReadings levels) (Expr.callOfJson? levels) := by
  refine .of_build (fun _ => rfl) (by decide) rfl ?_
  rintro fields ⟨target, method, args⟩ length
  obtain ⟨a, b, c, rfl⟩ := List.length_eq_three.mp length
  simp [Expr.callReadings, Reading.required, Option.bind_eq_some_iff]

/-- The fields of a call of a function of a type. -/
def Expr.staticCallReadings (levels : Nat) : List (Reading (String × String × List Expr)) :=
  [.required "owner" string? (·.1), .required "method" string? (·.2.1),
    .required "args" (list? Expr.ofJson? (levels - 1)) (·.2.2)]

theorem Expr.staticCall_readBy :
    ReadBy levels (Expr.staticCallReadings levels) (Expr.staticCallOfJson? levels) := by
  refine .of_build (fun _ => rfl) (by decide) rfl ?_
  rintro fields ⟨owner, method, args⟩ length
  obtain ⟨a, b, c, rfl⟩ := List.length_eq_three.mp length
  simp [Expr.staticCallReadings, Reading.required, Option.bind_eq_some_iff]

/-! ### Schema components -/

/-- The fields of an element declaration. -/
def Element.readings : List (Reading Element) :=
  [.required "name" string? (·.name), .nullable "type_name" string? (·.typeName),
   .nullable "fixed_value" string? (·.fixedValue),
   .nullable "default_value" string? (·.defaultValue)]

theorem Element.readBy : ReadBy levels Element.readings (Element.ofJson? levels) := by
  refine .of_build (fun _ => rfl) (by decide) rfl ?_
  rintro fields ⟨name, typeName, fixedValue, defaultValue⟩ length
  obtain ⟨a, b, c, d, rfl⟩ := List.length_eq_four.mp length
  simp [Element.readings, Reading.required, Reading.nullable, Option.bind_eq_some_iff]

/-- Reads the constraint of a wildcard. -/
def Term.wildcardOfJson? (levels : Nat) (value : Json) : Option String := do
  match ← fields? levels ["namespace"] value with
  | [scope] => required string? scope
  | _ => none

theorem Term.map_wildcardOfJson? (levels : Nat) (value : Json) :
    (Term.wildcardOfJson? levels value).map wildcard = (do
      match ← fields? levels ["namespace"] value with
      | [scope] => return wildcard (← required string? scope)
      | _ => none) := by
  unfold wildcardOfJson?
  cases fields? levels ["namespace"] value with
  | none => rfl
  | some fields =>
    match fields with
    | [scope] => exact Option.map_eq_bind
    | [] => rfl
    | _ :: _ :: _ => rfl

/-- The fields of a wildcard. -/
def Term.wildcardReadings : List (Reading String) :=
  [.required "namespace" string? id]

theorem Term.wildcard_readBy :
    ReadBy levels Term.wildcardReadings (Term.wildcardOfJson? levels) := by
  refine .of_build (fun _ => rfl) (by decide) rfl ?_
  rintro fields scope length
  obtain ⟨field, rfl⟩ := List.length_eq_one_iff.mp length
  simp [Term.wildcardReadings, Reading.required]

/-- The fields of a particle. -/
def Particle.readings (levels : Nat) : List (Reading Particle) :=
  [.required "min_occurs" word? (·.minOccurs),
    .required "max_occurs" (MaxOccurs.ofJson? (levels - 1)) (·.maxOccurs),
    .required "term" (Term.ofJson? (levels - 1)) (·.term)]

theorem Particle.readBy :
    ReadBy levels (Particle.readings levels) (Particle.ofJson? levels) := by
  refine .of_build (fun _ => rfl) (by decide) rfl ?_
  rintro fields ⟨least, most, term⟩ length
  obtain ⟨a, b, c, rfl⟩ := List.length_eq_three.mp length
  simp [Particle.readings, Reading.required, Option.bind_eq_some_iff]

/-- The fields of a use of an attribute. -/
def AttributeUse.readings : List (Reading AttributeUse) :=
  [.required "name" string? (·.name), .required "required" boolean? (·.isRequired),
    .nullable "fixed_value" string? (·.fixedValue)]

theorem AttributeUse.readBy :
    ReadBy levels AttributeUse.readings (AttributeUse.ofJson? levels) := by
  refine .of_build (fun _ => rfl) (by decide) rfl ?_
  rintro fields ⟨name, isRequired, fixedValue⟩ length
  obtain ⟨a, b, c, rfl⟩ := List.length_eq_three.mp length
  simp [AttributeUse.readings, Reading.required, Reading.nullable, Option.bind_eq_some_iff,
    -Bool.exists_bool]

/-! ### Members, classes and outlines -/

/-- The fields of modifiers. -/
def Modifiers.readings : List (Reading Modifiers) :=
  [.required "private" boolean? (·.isPrivate), .required "is_static" boolean? (·.isStatic),
    .required "is_final" boolean? (·.isFinal)]

theorem Modifiers.readBy : ReadBy levels Modifiers.readings (Modifiers.ofJson? levels) := by
  refine .of_build (fun _ => rfl) (by decide) rfl ?_
  rintro fields ⟨isPrivate, isStatic, isFinal⟩ length
  obtain ⟨a, b, c, rfl⟩ := List.length_eq_three.mp length
  simp [Modifiers.readings, Reading.required, Option.bind_eq_some_iff, -Bool.exists_bool]

/-- The fields of a fatal error. -/
def FatalError.readings : List (Reading FatalError) :=
  [.required "cause_type" string? (·.causeType), .required "message" string? (·.message)]

theorem FatalError.readBy :
    ReadBy levels FatalError.readings (FatalError.ofJson? levels) := by
  refine .of_build (fun _ => rfl) (by decide) rfl ?_
  rintro fields ⟨causeType, message⟩ length
  obtain ⟨a, b, rfl⟩ := List.length_eq_two.mp length
  simp [FatalError.readings, Reading.required, Option.bind_eq_some_iff]

/-- The fields of a static initializer. -/
def StaticInit.readings (levels : Nat) : List (Reading StaticInit) :=
  [.required "value" (Expr.ofJson? (levels - 1)) (·.value),
    .nullable "on_error" (FatalError.ofJson? (levels - 1)) (·.onError)]

theorem StaticInit.readBy :
    ReadBy levels (StaticInit.readings levels) (StaticInit.ofJson? levels) := by
  refine .of_build (fun _ => rfl) (by decide) rfl ?_
  rintro fields ⟨value, onError⟩ length
  obtain ⟨a, b, rfl⟩ := List.length_eq_two.mp length
  simp [StaticInit.readings, Reading.required, Reading.nullable, Option.bind_eq_some_iff]

/-- The fields of a static member. -/
def StaticDef.readings (levels : Nat) : List (Reading StaticDef) :=
  [.required "name" string? (·.name), .required "ty" (TypeRef.ofJson? (levels - 1)) (·.type),
    .required "modifiers" (Modifiers.ofJson? (levels - 1)) (·.modifiers),
    .nullable "init" (StaticInit.ofJson? (levels - 1)) (·.init)]

theorem StaticDef.readBy :
    ReadBy levels (StaticDef.readings levels) (StaticDef.ofJson? levels) := by
  refine .of_build (fun _ => rfl) (by decide) rfl ?_
  rintro fields ⟨name, type, modifiers, init⟩ length
  obtain ⟨a, b, c, d, rfl⟩ := List.length_eq_four.mp length
  simp [StaticDef.readings, Reading.required, Reading.nullable, Option.bind_eq_some_iff]

/-- The fields of an instance field. -/
def FieldDef.readings (levels : Nat) : List (Reading FieldDef) :=
  [.required "name" string? (·.name), .required "ty" (TypeRef.ofJson? (levels - 1)) (·.type),
    .nullable "init" (Expr.ofJson? (levels - 1)) (·.init),
    .nullable "schema_component" (Component.ofJson? (levels - 1)) (·.component)]

theorem FieldDef.readBy :
    ReadBy levels (FieldDef.readings levels) (FieldDef.ofJson? levels) := by
  refine .of_build (fun _ => rfl) (by decide) rfl ?_
  rintro fields ⟨name, type, init, component⟩ length
  obtain ⟨a, b, c, d, rfl⟩ := List.length_eq_four.mp length
  simp [FieldDef.readings, Reading.required, Reading.nullable, Option.bind_eq_some_iff]

/-- The fields of a class. -/
def ClassDef.readings (levels : Nat) : List (Reading ClassDef) :=
  [.required "id" word? (·.id.value), .required "name" string? (·.name),
    .required "fields" (list? FieldDef.ofJson? (levels - 1)) (·.fields),
    .required "statics" (list? StaticDef.ofJson? (levels - 1)) (·.statics)]

theorem ClassDef.readBy :
    ReadBy levels (ClassDef.readings levels) (ClassDef.ofJson? levels) := by
  refine .of_build (fun _ => rfl) (by decide) rfl ?_
  rintro fields ⟨⟨id⟩, name, own, statics⟩ length
  obtain ⟨a, b, c, d, rfl⟩ := List.length_eq_four.mp length
  simp [ClassDef.readings, Reading.required, Option.bind_eq_some_iff]

/-- The fields of a constant of an enumeration. -/
def EnumConstant.readings : List (Reading EnumConstant) :=
  [.required "name" string? (·.name), .required "lexical_value" string? (·.lexicalValue)]

theorem EnumConstant.readBy :
    ReadBy levels EnumConstant.readings (EnumConstant.ofJson? levels) := by
  refine .of_build (fun _ => rfl) (by decide) rfl ?_
  rintro fields ⟨name, lexicalValue⟩ length
  obtain ⟨a, b, rfl⟩ := List.length_eq_two.mp length
  simp [EnumConstant.readings, Reading.required, Option.bind_eq_some_iff]

/-- The fields of an enumeration. -/
def EnumDef.readings (levels : Nat) : List (Reading EnumDef) :=
  [.required "name" string? (·.name),
    .required "constants" (list? EnumConstant.ofJson? (levels - 1)) (·.constants)]

theorem EnumDef.readBy :
    ReadBy levels (EnumDef.readings levels) (EnumDef.ofJson? levels) := by
  refine .of_build (fun _ => rfl) (by decide) rfl ?_
  rintro fields ⟨name, constants⟩ length
  obtain ⟨a, b, rfl⟩ := List.length_eq_two.mp length
  simp [EnumDef.readings, Reading.required, Option.bind_eq_some_iff]

/-- The fields of an outline. -/
def Outline.readings (levels : Nat) : List (Reading Outline) :=
  [.required "classes" (list? ClassDef.ofJson? (levels - 1)) (·.classes),
    .required "enums" (list? EnumDef.ofJson? (levels - 1)) (·.enums)]

theorem Outline.readBy :
    ReadBy levels (Outline.readings levels) (Outline.ofJson? levels) := by
  refine .of_build (fun _ => rfl) (by decide) rfl ?_
  rintro fields ⟨classes, enums⟩ length
  obtain ⟨a, b, rfl⟩ := List.length_eq_two.mp length
  simp [Outline.readings, Reading.required, Option.bind_eq_some_iff]

end FixedInit
