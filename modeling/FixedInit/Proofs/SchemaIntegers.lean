/-
The fields of the integer types of a schema get all the values of these types.

* `ofSchemaType_qualified_name` : a schema type is known by its name, behind any qualifier or
  none;
* `number?_of_schema` : a text of a number in the value space is read as the literal of that
  number;
* `treated_of_number` : what a pass makes of a field whose number is read;
* `integers_of_schema` : a field of the type never ends a pass, and gets the literal from one
  that gets to it.

Design notes: an unsigned type is generated as the next larger signed one, so no number of its
value space is out of range. A remark is found by its position, since names of classes and of
fields may repeat.
-/
import FixedInit.Proofs.IntegerText
import FixedInit.Proofs.Remarks

namespace FixedInit

/-! ### The integer types of a schema -/

/-- An integer type of a schema whose values have literals. -/
inductive SchemaInteger
  | byte
  | short
  | int
  | long
  | unsignedByte
  | unsignedShort
  | unsignedInt
  deriving DecidableEq

namespace SchemaInteger

/-- The name of the type in the namespace of schemas. -/
def name : SchemaInteger → String
  | byte => "byte"
  | short => "short"
  | int => "int"
  | long => "long"
  | unsignedByte => "unsignedByte"
  | unsignedShort => "unsignedShort"
  | unsignedInt => "unsignedInt"

/-- The least value of the type. -/
def least : SchemaInteger → Int
  | byte => -128
  | short => -32768
  | int => -2147483648
  | long => -9223372036854775808
  | _ => 0

/-- The greatest value of the type. -/
def greatest : SchemaInteger → Int
  | byte => 127
  | short => 32767
  | int => 2147483647
  | long => 9223372036854775807
  | unsignedByte => 255
  | unsignedShort => 65535
  | unsignedInt => 4294967295

/-- The literals of a number of the type: long ones for the two largest types. -/
def IsLiteral (type : SchemaInteger) (n : Int) (expr : Expr) : Prop :=
  if type = long ∨ type = unsignedInt then ∃ w : Signed 64, expr = .long w ∧ w.val = n
  else ∃ w : Signed 32, expr = .int w ∧ w.val = n

/-- The target of the fields of the type. -/
def target : SchemaInteger → Target
  | byte => .narrowInt .byte
  | short => .narrowInt .short
  | unsignedByte => .narrowInt .short
  | int => .narrowInt .int
  | unsignedShort => .narrowInt .int
  | long => .wideInt
  | unsignedInt => .wideInt

theorem ofBuiltin_name (type : SchemaInteger) :
    Target.ofBuiltin (Builtin.ofLocalName type.name) = type.target := by
  cases type <;> decide

theorem colon_not_mem_name (type : SchemaInteger) : ':' ∉ type.name.toList := by
  cases type <;> decide

end SchemaInteger

/-- A qualifier of a name: nothing, or any text that ends in a colon. -/
def IsQualifier (qualifier : String) : Prop :=
  qualifier = "" ∨ ∃ start, qualifier = start ++ ":"

theorem ofSchemaType_qualified_name {qualifier name : String}
    (qualified : IsQualifier qualifier) (plain : ':' ∉ name.toList) :
    Builtin.ofSchemaType (qualifier ++ name) = Builtin.ofLocalName name := by
  rcases qualified with rfl | ⟨start, rfl⟩
  · have whole : Builtin.afterColon name.toList = name.toList := by
      rw [Builtin.afterColon, List.takeWhile_eq_self_iff.mpr, List.reverse_reverse]
      intro c hc
      rw [bne_iff_ne]
      rintro rfl
      exact plain (List.mem_reverse.mp hc)
    rw [String.empty_append, Builtin.ofSchemaType, whole, String.ofList_toList]
  · exact Builtin.ofSchemaType_qualified start name plain

/-- The type of a field is one that is generated for a schema type, in either flavour. -/
def IsGeneratedFor (type : TypeRef) (schemaName : String) : Prop :=
  type = .primitive (Builtin.ofSchemaType schemaName) ∨
  type = .boxed (Builtin.ofSchemaType schemaName)

theorem target_of_generated {type : TypeRef} {schema : SchemaInteger} {qualifier : String}
    (qualified : IsQualifier qualifier)
    (generated : IsGeneratedFor type (qualifier ++ schema.name)) :
    Target.of type = schema.target := by
  rw [← schema.ofBuiltin_name,
    ← ofSchemaType_qualified_name qualified schema.colon_not_mem_name]
  rcases generated with rfl | rfl
  · rfl
  · rfl

/-! ### Reading the values -/

section

open IntegerLiteral

variable {n : Int} {value : String}

theorem narrowInt_of_writes {width : IntWidth} (field : String)
    (writes : Writes value.toList n) (range : InRange width.bits n) :
    ∃ w : Signed 32, Literal.narrowInt field width value = .ok (.int w) ∧ w.val = n := by
  obtain ⟨lower, upper⟩ := inRange_iff.mp range
  let w : Signed 32 := Signed.widen width.bits_le ⟨n, lower, upper⟩
  exact ⟨w, Literal.narrowInt_eq_ok_iff.mpr ⟨w, rfl, writes, range⟩, rfl⟩

theorem wideInt_of_writes (field : String) (writes : Writes value.toList n)
    (range : InRange 64 n) :
    ∃ w : Signed 64, Literal.wideInt field value = .ok (.long w) ∧ w.val = n := by
  obtain ⟨lower, upper⟩ := inRange_iff.mp range
  refine ⟨⟨n, lower, upper⟩, ?_, rfl⟩
  rw [Literal.wideInt_eq, Literal.ofWidth_eq_ok_iff]
  exact ⟨_, rfl, writes⟩

end

/-- A text of a number in the value space of a field's type is read as the literal of that
number. -/
theorem number?_of_schema {field : FieldDef} {schema : SchemaInteger} {n : Int}
    {value : String} (target : Target.of field.type = schema.target)
    (fixed : field.fixedValue? = some value) (writes : IntegerLiteral.Writes value.toList n)
    (space : schema.least ≤ n ∧ n ≤ schema.greatest) :
    ∃ expr, field.number? = some (.ok expr) ∧ schema.IsLiteral n expr := by
  have in_range (bits : Nat)
      (h : -(2 : Int) ^ (bits - 1) ≤ schema.least ∧ schema.greatest < 2 ^ (bits - 1)) :
      IntegerLiteral.InRange bits n :=
    ⟨Int.le_trans h.1 space.1, Int.lt_of_le_of_lt space.2 h.2⟩
  unfold FieldDef.number? SchemaInteger.IsLiteral
  rw [fixed, Option.bind_some, target]
  -- the width of the literal holds both ends of the value space
  have narrow (width : IntWidth) (h : -(2 : Int) ^ (width.bits - 1) ≤ schema.least ∧
      schema.greatest < 2 ^ (width.bits - 1)) : ∃ expr,
      some (Literal.narrowInt field.name width value) = some (.ok expr) ∧
        ∃ w : Signed 32, expr = .int w ∧ w.val = n := by
    obtain ⟨w, read, same⟩ := narrowInt_of_writes field.name writes (in_range width.bits h)
    exact ⟨_, congrArg some read, w, rfl, same⟩
  have wide (h : -(2 : Int) ^ (64 - 1) ≤ schema.least ∧ schema.greatest < 2 ^ (64 - 1)) :
      ∃ expr,
      some (Literal.wideInt field.name value) = some (.ok expr) ∧
        ∃ w : Signed 64, expr = .long w ∧ w.val = n := by
    obtain ⟨w, read, same⟩ := wideInt_of_writes field.name writes (in_range 64 h)
    exact ⟨_, congrArg some read, w, rfl, same⟩
  cases schema with
  | byte => exact narrow .byte (by decide)
  | short => exact narrow .short (by decide)
  | int => exact narrow .int (by decide)
  | long => exact wide (by decide)
  | unsignedByte => exact narrow .short (by decide)
  | unsignedShort => exact narrow .int (by decide)
  | unsignedInt => exact wide (by decide)

/-! ### The fields in a pass -/

namespace Pass

variable {options : Options} {o : Outline} {p : Place}

/-- A pass gets to a field with an accepted number if it passes over refused ones, or if no
number in front of the field is refused. -/
theorem isReached_of_accepted {policy : ErrorPolicy} (accepted : p.field.refusal? = none)
    (reaches : policy = .skip ∨ ∀ field ∈ p.preceding, field.refusal? = none) :
    isReached policy p = true := by
  rw [isReached, policy.passes_of_accepted accepted, Bool.and_true, List.all_eq_true]
  intro field hfield
  obtain rfl | ready := reaches
  · rfl
  · exact policy.passes_of_accepted (ready field hfield)

/-- What a pass makes of a field whose number is read. -/
theorem treated_of_number {expr : Expr} (enabled : options.enabled = true) (hp : p ∈ o.places)
    (reached : isReached options.policy p = true) (read : p.field.number? = some (.ok expr)) :
    p.field? (run options o).outline.classes = some { p.field with init := some expr } ∧
      (diagnostics (run options o).log)[(p.preceding.filter (·.isEligible)).length]? =
        some ⟨.info, p.owner.name, p.field.name,
          attachedMessage (Target.of p.field.type) p.owner.name p.field.name expr⟩ := by
  have answer := answer?_of_number read (siteOf options o p)
  constructor
  · rw [field?_run_attached enabled hp, attached?_eq enabled hp, if_pos reached, answer]
    rfl
  · refine getElem?_diagnostics enabled hp reached ?_
    rw [Site.remark?, answer]
    rfl

/-- **Every value of an integer type of a schema is accepted.** A field that is generated for
the type, with a text of a number of its value space, does not end a pass; and a pass that
gets to the field gives it the literal of the number, with an information about it. -/
theorem integers_of_schema {schema : SchemaInteger} {qualifier text : String} {n : Int}
    (enabled : options.enabled = true) (hp : p ∈ o.places) (qualified : IsQualifier qualifier)
    (generated : IsGeneratedFor p.field.type (qualifier ++ schema.name))
    (fixed : ∃ least most decl,
      p.field.component = some (.particle ⟨least, most, .element decl⟩) ∧
      decl.fixedValue = some text)
    (writes : IntegerLiteral.Writes text.toList n)
    (space : schema.least ≤ n ∧ n ≤ schema.greatest) :
    p.field.refusal? = none ∧
      (∀ cause, (run options o).failure = some cause →
        ∃ stop ∈ o.places, stop ≠ p ∧ stop.field.refusal? = some cause) ∧
      ((options.policy = .skip ∨ ∀ field ∈ p.preceding, field.refusal? = none) →
        ∃ expr, schema.IsLiteral n expr ∧
          p.field? (run options o).outline.classes = some { p.field with init := some expr } ∧
          (diagnostics (run options o).log)[(p.preceding.filter (·.isEligible)).length]? =
            some ⟨.info, p.owner.name, p.field.name,
              attachedMessage schema.target p.owner.name p.field.name expr⟩) := by
  have target := target_of_generated qualified generated
  have value : p.field.fixedValue? = some text := by
    obtain ⟨least, most, decl, component, value⟩ := fixed
    rw [FieldDef.fixedValue?, component]
    exact Component.fixedValue?_eq_some.mpr ⟨least, most, decl, rfl, value⟩
  obtain ⟨expr, read, literal⟩ := number?_of_schema target value writes space
  have accepted : p.field.refusal? = none := by rw [FieldDef.refusal?, read]
  refine ⟨accepted, fun cause failed => ?_, fun reaches => ⟨expr, literal, ?_⟩⟩
  · rw [failure_run_places enabled, Option.bind_eq_some_iff] at failed
    obtain ⟨stop, first, refused⟩ := failed
    refine ⟨stop, List.dropWhile_subset _ (List.mem_of_head? first), ?_, refused⟩
    rintro rfl
    rw [accepted] at refused
    cases refused
  · rw [← target]
    exact treated_of_number enabled hp (isReached_of_accepted accepted reaches) read

/-- A class with the numbers `200` and `4294967295`, the latter with a sign and leading
zeros. -/
def numbered : ClassDef where
  id := ⟨0⟩
  name := "Order"
  fields := [fixedField "quantity" (.primitive (.ofSchemaType "xs:unsignedByte")) "200",
    fixedField "serial" (.boxed (.ofSchemaType "unsignedInt")) "+004294967295"]
  statics := []

/-- The place of the second number. -/
def serial : Place where
  before := []
  owner := numbered
  ready := [fixedField "quantity" (.primitive (.ofSchemaType "xs:unsignedByte")) "200"]
  field := fixedField "serial" (.boxed (.ofSchemaType "unsignedInt")) "+004294967295"

/-- The greatest value of an unsigned type is a long literal. -/
theorem serial_of_order :
    serial.field.refusal? = none ∧
      ∃ expr, SchemaInteger.unsignedInt.IsLiteral 4294967295 expr ∧
        serial.field? (run .standard ⟨[numbered], []⟩).outline.classes =
          some { serial.field with init := some expr } ∧
        (diagnostics (run .standard ⟨[numbered], []⟩).log)[1]? =
          some
            ⟨.info, "Order", "serial", attachedMessage .wideInt "Order" "serial" expr⟩ := by
  have first : serial ∈ (Outline.mk [numbered] []).places :=
    mem_places_iff.mpr ⟨[], [], rfl, rfl⟩
  have digits : IntegerLiteral.Writes "+004294967295".toList 4294967295 :=
    ⟨false, [0, 0, 4, 2, 9, 4, 9, 6, 7, 2, 9, 5], .plus _, nofun, by decide⟩
  obtain ⟨accepted, -, treated⟩ :=
    @integers_of_schema .standard _ serial .unsignedInt "" _ _ rfl first (.inl rfl) (.inr rfl)
      ⟨_, _, _, rfl, rfl⟩ digits (by decide)
  refine ⟨accepted, treated (.inr fun field hfield => ?_)⟩
  cases List.mem_singleton.mp hfield
  decide

end Pass

end FixedInit
