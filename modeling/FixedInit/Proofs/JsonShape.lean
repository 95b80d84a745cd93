/-
JSON values that differ in layout only.

A reader of snapshots knows what to expect of a value, its `Shape`. Where it expects a record,
much of how the value is laid out does not matter to it: the order of keys, keys that it does
not know, nulls for fields that may be missing, and whether the record is an object or an
array.

* `Alike` : two values that differ in layout only, where records and cases without content are
  expected;
* `Repeats` : a value in which a record has a known key twice;
* `Alike.of_known`, `Alike.of_null`, `Alike.of_array` : what may differ in one record.

Design notes: shapes are data, so that one relation serves all kinds of parts at every depth.
Expressions contain expressions, so their shape has a name of its own, which stands for
`Expr.shape` wherever they are nested. An object with half of a surrogate pair among its keys
has no members to speak of, and is alike to itself only.
-/
import FixedInit.Json.Value
import FixedInit.Model.TypeRef
import Mathlib.Data.List.Nodup

namespace FixedInit

open Json (object array string null)

/-! ### Shapes -/

/-- A field of a record: its key, whether it may be null, and the shape of its values. -/
structure Slot (shapes : Type) where
  name : String
  mayBeNull : Bool
  shape : shapes

/-- What a reader expects of a value. -/
inductive Shape
  /-- A value that is not taken apart. -/
  | plain
  /-- A record of these fields. -/
  | record (slots : List (Slot Shape))
  /-- A choice of a case, by its tag, and the content of the case if it has one. -/
  | choice (cases : List (String × Option Shape))
  | list (item : Shape)
  | expression

namespace Slot

variable {shapes : Type}

/-- A field that must be there. -/
def required (name : String) (shape : shapes) : Slot shapes :=
  ⟨name, false, shape⟩

/-- A field that may be missing or null. -/
def nullable (name : String) (shape : shapes) : Slot shapes :=
  ⟨name, true, shape⟩

/-- What a field comes to. Null counts as nothing in a field that may be null. -/
def held (slot : Slot shapes) : Option Json → Option Json
  | some null => if slot.mayBeNull then none else some null
  | field => field

end Slot

/-- The shape of a builtin type: its tag. -/
def Builtin.shape : Shape :=
  .choice (Builtin.all.map fun builtin => (builtin.tag, none))

/-- The shape of a declared type. -/
def TypeRef.shape : Shape :=
  .choice [("Primitive", some Builtin.shape), ("Boxed", some Builtin.shape),
    ("Enum", some .plain), ("Class", some .plain), ("External", some .plain)]

/-- The shape of a reference to a static member. -/
def StaticRef.shape : Shape :=
  .record [.required "owner" .plain, .required "name" .plain]

/-- The shape of an expression. -/
def Expr.shape : Shape :=
  .choice [("Str", some .plain), ("Bool", some .plain), ("Int", some .plain),
    ("Long", some .plain), ("Float", some .plain), ("Double", some .plain), ("EnumConstant",
      some (.record [.required "enum_name" .plain, .required "constant" .plain])),
    ("StaticField", some StaticRef.shape),
    ("Invoke", some (.record [.required "target" .expression, .required "method" .plain,
      .required "args" (.list .expression)])),
    ("StaticInvoke", some (.record [.required "owner" .plain, .required "method" .plain,
      .required "args" (.list .expression)]))]

/-- The shape of a bound on occurrences. -/
def MaxOccurs.shape : Shape :=
  .choice [("Bounded", some .plain), ("Unbounded", none)]

/-- The shape of a compositor. -/
def ModelGroup.shape : Shape :=
  .choice [("Sequence", none), ("Choice", none), ("All", none)]

/-- The shape of an element declaration. -/
def Element.shape : Shape :=
  .record [.required "name" .plain, .nullable "type_name" .plain,
    .nullable "fixed_value" .plain, .nullable "default_value" .plain]

/-- The shape of a term. -/
def Term.shape : Shape :=
  .choice [("Element", some Element.shape),
    ("Wildcard", some (.record [.required "namespace" .plain])),
    ("ModelGroup", some ModelGroup.shape)]

/-- The shape of a particle. -/
def Particle.shape : Shape :=
  .record [.required "min_occurs" .plain, .required "max_occurs" MaxOccurs.shape,
    .required "term" Term.shape]

/-- The shape of a use of an attribute. -/
def AttributeUse.shape : Shape :=
  .record [.required "name" .plain, .required "required" .plain,
    .nullable "fixed_value" .plain]

/-- The shape of a schema component. -/
def Component.shape : Shape :=
  .choice [("Particle", some Particle.shape), ("Attribute", some AttributeUse.shape),
    ("ModelGroupRef", some .plain)]

/-- The shape of modifiers. -/
def Modifiers.shape : Shape :=
  .record [.required "private" .plain, .required "is_static" .plain,
    .required "is_final" .plain]

/-- The shape of a fatal error. -/
def FatalError.shape : Shape :=
  .record [.required "cause_type" .plain, .required "message" .plain]

/-- The shape of a static initializer. -/
def StaticInit.shape : Shape :=
  .record [.required "value" .expression, .nullable "on_error" FatalError.shape]

/-- The shape of a static member. -/
def StaticDef.shape : Shape :=
  .record [.required "name" .plain, .required "ty" TypeRef.shape,
    .required "modifiers" Modifiers.shape, .nullable "init" StaticInit.shape]

/-- The shape of an instance field. -/
def FieldDef.shape : Shape :=
  .record [.required "name" .plain, .required "ty" TypeRef.shape,
    .nullable "init" .expression, .nullable "schema_component" Component.shape]

/-- The shape of a class. -/
def ClassDef.shape : Shape :=
  .record [.required "id" .plain, .required "name" .plain,
    .required "fields" (.list FieldDef.shape), .required "statics" (.list StaticDef.shape)]

/-- The shape of a constant of an enumeration. -/
def EnumConstant.shape : Shape :=
  .record [.required "name" .plain, .required "lexical_value" .plain]

/-- The shape of an enumeration. -/
def EnumDef.shape : Shape :=
  .record [.required "name" .plain, .required "constants" (.list EnumConstant.shape)]

/-- The shape of an outline. -/
def Outline.shape : Shape :=
  .record [.required "classes" (.list ClassDef.shape),
    .required "enums" (.list EnumDef.shape)]

/-! ### Layouts -/

/-- The values of the members of an object with a key, in order. -/
def valuesOf (members : List (String × Json)) (key : String) : List Json :=
  (members.filter (·.1 == key)).map (·.2)

/-- Whether a value is a layout of a record with these fields: an object that has the keys of
those which are there once and the others not at all, or an array of all of them in order. -/
def Fills (slots : List (Slot Shape)) (fields : Slot Shape → Option Json) : Json → Prop
  | object members => ∀ slot ∈ slots, valuesOf members slot.name = (fields slot).toList
  | array items => items.map some = slots.map fields
  | _ => False

/-- Whether a value is no layout of any record with these slots: an object with a known key
twice or without a key that must be there, or an array of another length. -/
def Misfits (slots : List (Slot Shape)) : Json → Prop
  | object members => ∃ slot ∈ slots, 2 ≤ (valuesOf members slot.name).length ∨
      slot.mayBeNull = false ∧ valuesOf members slot.name = []
  | array items => items.length ≠ slots.length
  | _ => False

/-- Values that differ in layout only, where values of a shape are expected. -/
inductive Alike : Shape → Json → Json → Prop
  | same {shape : Shape} {v : Json} : Alike shape v v
  /-- Layouts of records whose fields are alike, null being as good as nothing where it may
  be. -/
  | record {slots : List (Slot Shape)} {v w : Json} {f g : Slot Shape → Option Json} :
    Fills slots f v → Fills slots g w →
    (∀ slot ∈ slots, (slot.held (f slot)).isSome = (slot.held (g slot)).isSome) →
    (∀ slot ∈ slots, ∀ x y, slot.held (f slot) = some x → slot.held (g slot) = some y →
      Alike slot.shape x y) →
    Alike (.record slots) v w
  /-- Objects and arrays that are no layouts of records. -/
  | misfit {slots : List (Slot Shape)} {v w : Json} :
    Misfits slots v → Misfits slots w → Alike (.record slots) v w
  | content {cases : List (String × Option Shape)} {tag : String} {shape : Shape}
      {x y : Json} :
    (tag, some shape) ∈ cases → Alike shape x y →
    Alike (.choice cases) (object [(tag, x)]) (object [(tag, y)])
  /-- A case without content, by its tag alone and as an object. -/
  | bare {cases : List (String × Option Shape)} {tag : String} :
    (tag, none) ∈ cases → Alike (.choice cases) (string tag) (object [(tag, null)])
  | tagged {cases : List (String × Option Shape)} {tag : String} :
    (tag, none) ∈ cases → Alike (.choice cases) (object [(tag, null)]) (string tag)
  /-- Objects that choose no case or several. -/
  | crowded {cases : List (String × Option Shape)} {members others : List (String × Json)} :
    members.length ≠ 1 → others.length ≠ 1 →
    Alike (.choice cases) (object members) (object others)
  | items {item : Shape} {as bs : List Json} :
    as.length = bs.length → (∀ x y, (x, y) ∈ as.zip bs → Alike item x y) →
    Alike (.list item) (array as) (array bs)
  | expression {v w : Json} : Alike Expr.shape v w → Alike .expression v w

/-- A value in which a record, laid out as an object at any depth, has a known key twice. -/
inductive Repeats : Shape → Json → Prop
  | here {slots : List (Slot Shape)} {slot : Slot Shape} {members : List (String × Json)} :
    slot ∈ slots → 2 ≤ (valuesOf members slot.name).length →
    Repeats (.record slots) (object members)
  | member {slots : List (Slot Shape)} {slot : Slot Shape}
      {members : List (String × Json)} {x : Json} :
    slot ∈ slots → x ∈ valuesOf members slot.name → Repeats slot.shape x →
    Repeats (.record slots) (object members)
  | position {slots : List (Slot Shape)} {slot : Slot Shape} {items : List Json}
      {x : Json} {i : Nat} :
    slots[i]? = some slot → items[i]? = some x → Repeats slot.shape x →
    Repeats (.record slots) (array items)
  | content {cases : List (String × Option Shape)} {tag : String} {shape : Shape} {x : Json} :
    (tag, some shape) ∈ cases → Repeats shape x → Repeats (.choice cases) (object [(tag, x)])
  | item {item : Shape} {items : List Json} {x : Json} :
    x ∈ items → Repeats item x → Repeats (.list item) (array items)
  | expression {v : Json} : Repeats Expr.shape v → Repeats .expression v

/-! ### One record -/

section

variable {slots : List (Slot Shape)} {members others : List (String × Json)}

theorem Slot.held_null {slot : Slot Shape} (mayBeNull : slot.mayBeNull = true) :
    slot.held (some null) = none := by
  rw [held, mayBeNull, if_pos rfl]

theorem Misfits.of_repeated {slot : Slot Shape} (known : slot ∈ slots)
    (twice : 2 ≤ (valuesOf members slot.name).length) : Misfits slots (object members) :=
  ⟨slot, known, .inl twice⟩

/-- Layouts of records that hold the same are alike. -/
theorem Alike.of_held {v w : Json} {f g : Slot Shape → Option Json} (first : Fills slots f v)
    (second : Fills slots g w)
    (held : ∀ slot ∈ slots, slot.held (f slot) = slot.held (g slot)) :
    Alike (.record slots) v w := by
  refine .record first second (fun slot known => congrArg _ (held slot known)) ?_
  intro slot known x y hx hy
  rw [held slot known] at hx
  rw [Option.some.inj (hx.symm.trans hy)]
  exact .same

theorem valuesOf_cons_self {key : String} {x : Json} :
    valuesOf ((key, x) :: members) key = x :: valuesOf members key := by
  simp [valuesOf]

theorem valuesOf_cons_of_ne {key other : String} {x : Json} (h : other ≠ key) :
    valuesOf ((other, x) :: members) key = valuesOf members key := by
  simp [valuesOf, h]

/-- Whether a record has a field of a key. -/
def isKnown (slots : List (Slot Shape)) (key : String) : Bool :=
  slots.any (·.name == key)

theorem valuesOf_known (members : List (String × Json)) {slot : Slot Shape}
    (known : slot ∈ slots) :
    valuesOf (members.filter fun member => isKnown slots member.1) slot.name =
      valuesOf members slot.name := by
  rw [valuesOf, List.filter_filter]
  refine congrArg _ (List.filter_congr fun member _ => ?_)
  by_cases named : member.1 = slot.name
  · simpa [named, isKnown] using ⟨slot, known, rfl⟩
  · simp [named]

/-- The values of an object for the fields of a record, if each has one at most. -/
def firstOf (members : List (String × Json)) (slot : Slot Shape) : Option Json :=
  (valuesOf members slot.name).head?

theorem toList_head? {as : List Json} (single : as.length < 2) : as.head?.toList = as := by
  match as, single with
  | [], _ => rfl
  | [_], _ => rfl

theorem fills_object (single : ∀ slot ∈ slots, (valuesOf members slot.name).length < 2) :
    Fills slots (firstOf members) (object members) :=
  fun slot known => (toList_head? (single slot known)).symm

/-- An object repeats a known key, or it is a layout of a record. -/
theorem repeats_or_single (slots : List (Slot Shape)) (members : List (String × Json)) :
    (∃ slot ∈ slots, 2 ≤ (valuesOf members slot.name).length) ∨
      ∀ slot ∈ slots, (valuesOf members slot.name).length < 2 := by
  by_cases repeated : ∃ slot ∈ slots, 2 ≤ (valuesOf members slot.name).length
  · exact .inl repeated
  · exact .inr fun slot known => Nat.lt_of_not_le fun twice => repeated ⟨slot, known, twice⟩

theorem eq_of_perm_of_single {as bs : List Json} (h : as.Perm bs)
    (single : as.length < 2) : as = bs := by
  match as, single with
  | [], _ => exact (List.nil_perm.mp h).symm
  | [_], _ => exact List.singleton_perm.mp h

/-- Neither the order of keys nor unknown keys matter: objects with the same members of known
keys are alike. -/
theorem Alike.of_known
    (h : (members.filter fun member => isKnown slots member.1).Perm
      (others.filter fun member => isKnown slots member.1)) :
    Alike (.record slots) (object members) (object others) := by
  have same : ∀ slot ∈ slots,
      (valuesOf members slot.name).Perm (valuesOf others slot.name) := by
    intro slot known
    rw [← valuesOf_known members known, ← valuesOf_known others known]
    exact (h.filter _).map _
  obtain ⟨slot, known, twice⟩ | single := repeats_or_single slots members
  · exact .misfit (.of_repeated known twice)
      (.of_repeated known ((same slot known).length_eq ▸ twice))
  · have values : ∀ slot ∈ slots, valuesOf members slot.name = valuesOf others slot.name :=
      fun slot known => eq_of_perm_of_single (same slot known) (single slot known)
    have single' : ∀ slot ∈ slots, (valuesOf others slot.name).length < 2 :=
      fun slot known => values slot known ▸ single slot known
    refine .of_held (fills_object single) (fills_object single') fun slot known => ?_
    rw [firstOf, firstOf, values slot known]

/-- A field that may be missing or null may be either. -/
theorem Alike.of_null (distinct : (slots.map (·.name)).Nodup) {slot : Slot Shape}
    (known : slot ∈ slots) (mayBeNull : slot.mayBeNull = true)
    (missing : valuesOf members slot.name = []) :
    Alike (.record slots) (object members) (object ((slot.name, null) :: members)) := by
  have own : valuesOf ((slot.name, null) :: members) slot.name = [null] := by
    rw [valuesOf_cons_self, missing]
  have elsewhere : ∀ other ∈ slots, other ≠ slot →
      valuesOf ((slot.name, null) :: members) other.name = valuesOf members other.name := by
    intro other hother differs
    refine valuesOf_cons_of_ne fun named => differs ?_
    exact List.inj_on_of_nodup_map distinct hother known named.symm
  obtain ⟨other, hother, twice⟩ | single := repeats_or_single slots members
  · have differs : other ≠ slot := by
      rintro rfl
      rw [missing] at twice
      cases twice
    exact .misfit (.of_repeated hother twice)
      (.of_repeated hother (elsewhere other hother differs ▸ twice))
  · refine .of_held (fills_object single) (fills_object fun other hother => ?_)
      fun other hother => ?_
    · by_cases same : other = slot
      · rw [same, own]
        exact Nat.lt_succ_self 1
      · rw [elsewhere other hother same]
        exact single other hother
    · by_cases same : other = slot
      · rw [same, firstOf, firstOf, missing, own, List.head?_cons, slot.held_null mayBeNull]
        rfl
      · rw [firstOf, firstOf, elsewhere other hother same]

/-- An object may be replaced by the array of its fields in order, with null for those that
are missing. -/
theorem Alike.of_array (value : Slot Shape → Json)
    (h : ∀ slot ∈ slots, valuesOf members slot.name = [value slot] ∨
      slot.mayBeNull = true ∧ valuesOf members slot.name = [] ∧ value slot = null) :
    Alike (.record slots) (object members) (array (slots.map value)) := by
  have single : ∀ slot ∈ slots, (valuesOf members slot.name).length < 2 := by
    intro slot known
    obtain given | ⟨-, missing, -⟩ := h slot known
    · simp [given]
    · simp [missing]
  refine .of_held (g := fun slot => some (value slot)) (fills_object single) List.map_map
    fun slot known => ?_
  obtain given | ⟨mayBeNull, missing, nothing⟩ := h slot known
  · rw [firstOf, given, List.head?_cons]
  · rw [firstOf, missing, nothing, slot.held_null mayBeNull]
    rfl

end

end FixedInit
