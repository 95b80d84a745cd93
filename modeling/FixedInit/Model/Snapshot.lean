/-
Snapshots: the JSON form of an outline and of each of its parts.

Writing gives every record as an object with all its fields, and every case without content as
a string. Reading takes the other forms of `Json.Record` as well. In both directions a part is
read or written by a pair of functions, `toJson` and `ofJson?`; the latter is told how many
levels may still open.

* `Builtin.ofJson?_toJson`, `TypeRef.ofJson?_toJson` : types are read back.
-/
import FixedInit.Json.Record
import FixedInit.Json.Text
import FixedInit.Model.Outline

namespace FixedInit

open Json (fields? case? isBare list? required nullable string? boolean? word? ofText?)

/-! ### Types -/

/-- The JSON form of a builtin type: its tag. -/
def Builtin.toJson (builtin : Builtin) : Json :=
  .string builtin.tag

/-- Reads a builtin type. -/
def Builtin.ofJson? (levels : Nat) (value : Json) : Option Builtin := do
  let (tag, content) ← case? levels value
  if isBare content then Builtin.ofTag? tag else none

/-- The JSON form of a declared type. -/
def TypeRef.toJson : TypeRef → Json
  | primitive builtin => .object [("Primitive", builtin.toJson)]
  | boxed builtin => .object [("Boxed", builtin.toJson)]
  | enumeration name => .object [("Enum", .string name)]
  | generated name => .object [("Class", .string name)]
  | external name => .object [("External", .string name)]

/-- Reads a declared type. -/
def TypeRef.ofJson? (levels : Nat) (value : Json) : Option TypeRef := do
  let (tag, content) ← case? levels value
  let content ← content
  match tag with
  | "Primitive" => (Builtin.ofJson? (levels - 1) content).map primitive
  | "Boxed" => (Builtin.ofJson? (levels - 1) content).map boxed
  | "Enum" => (string? content).map enumeration
  | "Class" => (string? content).map generated
  | "External" => (string? content).map external
  | _ => none

theorem Builtin.ofJson?_toJson (builtin : Builtin) (levels : Nat) :
    Builtin.ofJson? levels builtin.toJson = some builtin := by
  simp [Builtin.ofJson?, Builtin.toJson, case?, isBare, Builtin.ofTag?_tag]

theorem TypeRef.ofJson?_toJson (type : TypeRef) (levels : Nat) :
    TypeRef.ofJson? (levels + 1) type.toJson = some type := by
  cases type <;>
    simp [TypeRef.ofJson?, TypeRef.toJson, case?, string?, Builtin.ofJson?_toJson]

/-! ### Expressions -/

/-- The JSON form of a number, with the digits of its rendering; null if it is not finite. -/
def Binary.toJson {f : Format} : Binary f → Json
  | finite negative rank => .number (Expr.layout.finite negative rank)
  | _ => .null

/-- The JSON form of a reference to a static member. -/
def StaticRef.toJson (ref : StaticRef) : Json :=
  .object [("owner", .string ref.owner), ("name", .string ref.name)]

/-- Reads a reference to a static member. -/
def StaticRef.ofJson? (levels : Nat) (value : Json) : Option StaticRef := do
  match ← fields? levels ["owner", "name"] value with
  | [owner, name] => return ⟨← required string? owner, ← required string? name⟩
  | _ => none

/-- Reads an integer of a width. -/
def Signed.ofJson? (bits : Nat) (value : Json) : Option (Signed bits) :=
  (Json.int? value).bind (Signed.ofInt? bits)

mutual

/-- The JSON form of an expression. -/
def Expr.toJson : Expr → Json
  | .str value => .object [("Str", .string value)]
  | .bool value => .object [("Bool", .boolean value)]
  | .int value => .object [("Int", .ofInt value.val)]
  | .long value => .object [("Long", .ofInt value.val)]
  | .float value => .object [("Float", value.toJson)]
  | .double value => .object [("Double", value.toJson)]
  | .constant enumeration name =>
    .object [("EnumConstant",
      .object [("enum_name", .string enumeration), ("constant", .string name)])]
  | .static ref => .object [("StaticField", ref.toJson)]
  | .invoke target method args =>
    .object [("Invoke", .object [("target", Expr.toJson target), ("method", .string method),
      ("args", .array (Expr.argsToJson args))])]
  | .staticInvoke owner method args =>
    .object [("StaticInvoke", .object [("owner", .string owner), ("method", .string method),
      ("args", .array (Expr.argsToJson args))])]

/-- The JSON forms of arguments. -/
def Expr.argsToJson : List Expr → List Json
  | [] => []
  | arg :: args => Expr.toJson arg :: Expr.argsToJson args

end

mutual

/-- Reads an expression. Every kind opens one level; a call opens a second one for its parts
and a third one for its arguments. -/
def Expr.ofJson? : Nat → Json → Option Expr
  | 0, _ => none
  | levels + 1, value => do
    let (tag, content) ← case? (levels + 1) value
    let content ← content
    match tag with
    | "Str" => (string? content).map .str
    | "Bool" => (boolean? content).map .bool
    | "Int" => (Signed.ofJson? 32 content).map .int
    | "Long" => (Signed.ofJson? 64 content).map .long
    | "Float" => (Json.binary? .single content).map .float
    | "Double" => (Json.binary? .double content).map .double
    | "EnumConstant" =>
      match ← fields? levels ["enum_name", "constant"] content with
      | [enumeration, name] =>
        return .constant (← required string? enumeration) (← required string? name)
      | _ => none
    | "StaticField" => (StaticRef.ofJson? levels content).map .static
    | "Invoke" => Expr.invokeOfJson? levels content
    | "StaticInvoke" => Expr.staticInvokeOfJson? levels content
    | _ => none

/-- Reads the parts of a method call. -/
def Expr.invokeOfJson? : Nat → Json → Option Expr
  | 0, _ => none
  | levels + 1, value => do
    match ← fields? (levels + 1) ["target", "method", "args"] value with
    | [target, method, args] =>
      return .invoke (← required (Expr.ofJson? levels) target) (← required string? method)
        (← required (Expr.argsOfJson? levels) args)
    | _ => none

/-- Reads the parts of a call of a function of a type. -/
def Expr.staticInvokeOfJson? : Nat → Json → Option Expr
  | 0, _ => none
  | levels + 1, value => do
    match ← fields? (levels + 1) ["owner", "method", "args"] value with
    | [owner, method, args] =>
      return .staticInvoke (← required string? owner) (← required string? method)
        (← required (Expr.argsOfJson? levels) args)
    | _ => none

/-- Reads the arguments of a call. -/
def Expr.argsOfJson? : Nat → Json → Option (List Expr)
  | 0, _ => none
  | levels + 1, value =>
    match value with
    | .array items => items.mapM (Expr.ofJson? levels)
    | _ => none

end

/-! ### Schema components -/

/-- The JSON form of a bound on occurrences. -/
def MaxOccurs.toJson : MaxOccurs → Json
  | bounded count => .object [("Bounded", .ofInt count.toNat)]
  | unbounded => .string "Unbounded"

/-- Reads a bound on occurrences. -/
def MaxOccurs.ofJson? (levels : Nat) (value : Json) : Option MaxOccurs := do
  let (tag, content) ← case? levels value
  match tag with
  | "Bounded" => (required word? content).map bounded
  | "Unbounded" => if isBare content then some unbounded else none
  | _ => none

/-- The JSON form of a compositor. -/
def ModelGroup.toJson : ModelGroup → Json
  | sequence => .string "Sequence"
  | choice => .string "Choice"
  | all => .string "All"

/-- Reads a compositor. -/
def ModelGroup.ofJson? (levels : Nat) (value : Json) : Option ModelGroup := do
  let (tag, content) ← case? levels value
  if !isBare content then none
  else match tag with
    | "Sequence" => some sequence
    | "Choice" => some choice
    | "All" => some all
    | _ => none

/-- The JSON form of an element declaration. -/
def Element.toJson (decl : Element) : Json :=
  .object [("name", .string decl.name), ("type_name", ofText? decl.typeName),
    ("fixed_value", ofText? decl.fixedValue), ("default_value", ofText? decl.defaultValue)]

/-- Reads an element declaration. -/
def Element.ofJson? (levels : Nat) (value : Json) : Option Element := do
  match ← fields? levels ["name", "type_name", "fixed_value", "default_value"] value with
  | [name, typeName, fixedValue, defaultValue] =>
    return ⟨← required string? name, ← nullable string? typeName,
      ← nullable string? fixedValue, ← nullable string? defaultValue⟩
  | _ => none

/-- The JSON form of a term. -/
def Term.toJson : Term → Json
  | element decl => .object [("Element", decl.toJson)]
  | wildcard scope => .object [("Wildcard", .object [("namespace", .string scope)])]
  | group kind => .object [("ModelGroup", kind.toJson)]

/-- Reads a term. -/
def Term.ofJson? (levels : Nat) (value : Json) : Option Term := do
  let (tag, content) ← case? levels value
  let content ← content
  match tag with
  | "Element" => (Element.ofJson? (levels - 1) content).map element
  | "Wildcard" =>
    match ← fields? (levels - 1) ["namespace"] content with
    | [scope] => return wildcard (← required string? scope)
    | _ => none
  | "ModelGroup" => (ModelGroup.ofJson? (levels - 1) content).map group
  | _ => none

/-- The JSON form of a particle. -/
def Particle.toJson (particle : Particle) : Json :=
  .object [("min_occurs", .ofInt particle.minOccurs.toNat),
    ("max_occurs", particle.maxOccurs.toJson), ("term", particle.term.toJson)]

/-- Reads a particle. -/
def Particle.ofJson? (levels : Nat) (value : Json) : Option Particle := do
  match ← fields? levels ["min_occurs", "max_occurs", "term"] value with
  | [least, most, term] =>
    return ⟨← required word? least, ← required (MaxOccurs.ofJson? (levels - 1)) most,
      ← required (Term.ofJson? (levels - 1)) term⟩
  | _ => none

/-- The JSON form of a use of an attribute. -/
def AttributeUse.toJson (use : AttributeUse) : Json :=
  .object [("name", .string use.name), ("required", .boolean use.isRequired),
    ("fixed_value", ofText? use.fixedValue)]

/-- Reads a use of an attribute. -/
def AttributeUse.ofJson? (levels : Nat) (value : Json) : Option AttributeUse := do
  match ← fields? levels ["name", "required", "fixed_value"] value with
  | [name, isRequired, fixedValue] =>
    return ⟨← required string? name, ← required boolean? isRequired,
      ← nullable string? fixedValue⟩
  | _ => none

/-- The JSON form of a schema component. -/
def Component.toJson : Component → Json
  | particle occurrence => .object [("Particle", occurrence.toJson)]
  | attributeUse use => .object [("Attribute", use.toJson)]
  | groupRef name => .object [("ModelGroupRef", .string name)]

/-- Reads a schema component. -/
def Component.ofJson? (levels : Nat) (value : Json) : Option Component := do
  let (tag, content) ← case? levels value
  let content ← content
  match tag with
  | "Particle" => (Particle.ofJson? (levels - 1) content).map particle
  | "Attribute" => (AttributeUse.ofJson? (levels - 1) content).map attributeUse
  | "ModelGroupRef" => (string? content).map groupRef
  | _ => none

/-! ### Members, classes and outlines -/

/-- The JSON form of an optional part: null if there is none. -/
def optionToJson {α : Type} (toJson : α → Json) : Option α → Json
  | none => .null
  | some a => toJson a

/-- The JSON form of modifiers. -/
def Modifiers.toJson (modifiers : Modifiers) : Json :=
  .object [("private", .boolean modifiers.isPrivate),
    ("is_static", .boolean modifiers.isStatic), ("is_final", .boolean modifiers.isFinal)]

/-- Reads modifiers. -/
def Modifiers.ofJson? (levels : Nat) (value : Json) : Option Modifiers := do
  match ← fields? levels ["private", "is_static", "is_final"] value with
  | [isPrivate, isStatic, isFinal] =>
    return ⟨← required boolean? isPrivate, ← required boolean? isStatic,
      ← required boolean? isFinal⟩
  | _ => none

/-- The JSON form of a fatal error. -/
def FatalError.toJson (error : FatalError) : Json :=
  .object [("cause_type", .string error.causeType), ("message", .string error.message)]

/-- Reads a fatal error. -/
def FatalError.ofJson? (levels : Nat) (value : Json) : Option FatalError := do
  match ← fields? levels ["cause_type", "message"] value with
  | [causeType, message] => return ⟨← required string? causeType, ← required string? message⟩
  | _ => none

/-- The JSON form of a static initializer. -/
def StaticInit.toJson (init : StaticInit) : Json :=
  .object [("value", init.value.toJson),
    ("on_error", optionToJson FatalError.toJson init.onError)]

/-- Reads a static initializer. -/
def StaticInit.ofJson? (levels : Nat) (value : Json) : Option StaticInit := do
  match ← fields? levels ["value", "on_error"] value with
  | [expr, onError] =>
    return ⟨← required (Expr.ofJson? (levels - 1)) expr,
      ← nullable (FatalError.ofJson? (levels - 1)) onError⟩
  | _ => none

/-- The JSON form of a static member. -/
def StaticDef.toJson (member : StaticDef) : Json :=
  .object [("name", .string member.name), ("ty", member.type.toJson),
    ("modifiers", member.modifiers.toJson),
    ("init", optionToJson StaticInit.toJson member.init)]

/-- Reads a static member. -/
def StaticDef.ofJson? (levels : Nat) (value : Json) : Option StaticDef := do
  match ← fields? levels ["name", "ty", "modifiers", "init"] value with
  | [name, type, modifiers, init] =>
    return ⟨← required string? name, ← required (TypeRef.ofJson? (levels - 1)) type,
      ← required (Modifiers.ofJson? (levels - 1)) modifiers,
      ← nullable (StaticInit.ofJson? (levels - 1)) init⟩
  | _ => none

/-- The JSON form of an instance field. -/
def FieldDef.toJson (field : FieldDef) : Json :=
  .object [("name", .string field.name), ("ty", field.type.toJson),
    ("init", optionToJson Expr.toJson field.init),
    ("schema_component", optionToJson Component.toJson field.component)]

/-- Reads an instance field. -/
def FieldDef.ofJson? (levels : Nat) (value : Json) : Option FieldDef := do
  match ← fields? levels ["name", "ty", "init", "schema_component"] value with
  | [name, type, init, component] =>
    return ⟨← required string? name, ← required (TypeRef.ofJson? (levels - 1)) type,
      ← nullable (Expr.ofJson? (levels - 1)) init,
      ← nullable (Component.ofJson? (levels - 1)) component⟩
  | _ => none

/-- The JSON form of a class. -/
def ClassDef.toJson (c : ClassDef) : Json :=
  .object [("id", .ofInt c.id.value.toNat), ("name", .string c.name),
    ("fields", .array (c.fields.map FieldDef.toJson)),
    ("statics", .array (c.statics.map StaticDef.toJson))]

/-- Reads a class. -/
def ClassDef.ofJson? (levels : Nat) (value : Json) : Option ClassDef := do
  match ← fields? levels ["id", "name", "fields", "statics"] value with
  | [id, name, fields, statics] =>
    return ⟨⟨← required word? id⟩, ← required string? name,
      ← required (list? FieldDef.ofJson? (levels - 1)) fields,
      ← required (list? StaticDef.ofJson? (levels - 1)) statics⟩
  | _ => none

/-- The JSON form of a constant of an enumeration. -/
def EnumConstant.toJson (constant : EnumConstant) : Json :=
  .object [("name", .string constant.name), ("lexical_value", .string constant.lexicalValue)]

/-- Reads a constant of an enumeration. -/
def EnumConstant.ofJson? (levels : Nat) (value : Json) : Option EnumConstant := do
  match ← fields? levels ["name", "lexical_value"] value with
  | [name, lexicalValue] => return ⟨← required string? name, ← required string? lexicalValue⟩
  | _ => none

/-- The JSON form of an enumeration. -/
def EnumDef.toJson (e : EnumDef) : Json :=
  .object [("name", .string e.name),
    ("constants", .array (e.constants.map EnumConstant.toJson))]

/-- Reads an enumeration. -/
def EnumDef.ofJson? (levels : Nat) (value : Json) : Option EnumDef := do
  match ← fields? levels ["name", "constants"] value with
  | [name, constants] =>
    return ⟨← required string? name,
      ← required (list? EnumConstant.ofJson? (levels - 1)) constants⟩
  | _ => none

/-- The JSON form of an outline. -/
def Outline.toJson (o : Outline) : Json :=
  .object [("classes", .array (o.classes.map ClassDef.toJson)),
    ("enums", .array (o.enums.map EnumDef.toJson))]

/-- Reads an outline. -/
def Outline.ofJson? (levels : Nat) (value : Json) : Option Outline := do
  match ← fields? levels ["classes", "enums"] value with
  | [classes, enums] =>
    return ⟨← required (list? ClassDef.ofJson? (levels - 1)) classes,
      ← required (list? EnumDef.ofJson? (levels - 1)) enums⟩
  | _ => none

/-! ### Texts -/

/-- The part that a whole JSON text writes, read with the given reader. -/
def readText? {α : Type} (ofJson? : Nat → Json → Option α) (text : String) : Option α :=
  (Json.read? text).bind (ofJson? Json.depthLimit)

/-- The snapshot of an outline. -/
def Outline.snapshot (o : Outline) : String :=
  o.toJson.write

/-- The outline of a snapshot. -/
def Outline.restore? (text : String) : Option Outline :=
  readText? Outline.ofJson? text

end FixedInit
