/-
What a fixed value is turned into, by the declared type of the field.

* `of_flavour` : the two flavours of a builtin type have the same target.
-/
import FixedInit.Model.TypeRef

namespace FixedInit

/-- The integer types that share the 32-bit literal. -/
inductive IntWidth
  | byte
  | short
  | int
  deriving DecidableEq

namespace IntWidth

/-- The number of bits of a width. -/
def bits : IntWidth → Nat
  | byte => 8
  | short => 16
  | int => 32

/-- The name of the type of a width. -/
def typeName : IntWidth → String
  | byte => "Byte"
  | short => "Short"
  | int => "Integer"

theorem bits_le (width : IntWidth) : width.bits ≤ 32 := by
  cases width <;> decide

end IntWidth

/-- What a fixed value is turned into. -/
inductive Target
  | text
  | boolean
  | narrowInt (width : IntWidth)
  | wideInt
  | singleFloat
  | doubleFloat
  | calendar
  | enumeration (name : String)
  /-- A type without literals, by name. -/
  | unsupported (name : String)
  deriving DecidableEq

namespace Target

/-- The target of a builtin type. -/
def ofBuiltin : Builtin → Target
  | .string => text
  | .boolean => boolean
  | .byte => narrowInt .byte
  | .short => narrowInt .short
  | .int => narrowInt .int
  | .long => wideInt
  | .float => singleFloat
  | .double => doubleFloat
  | .calendar => calendar
  | builtin => unsupported builtin.boxedName

/-- The target of a declared type. -/
def of : TypeRef → Target
  | .primitive builtin => ofBuiltin builtin
  | .boxed builtin => ofBuiltin builtin
  | .enumeration name => enumeration name
  | .generated name => unsupported name
  | .external name => unsupported name

/-- The word for a target in reports. -/
def label : Target → String
  | text => "String"
  | boolean => "Boolean"
  | narrowInt _ => "Integer"
  | wideInt => "Long"
  | singleFloat => "Float"
  | doubleFloat => "Double"
  | calendar => "XMLGregorianCalendar"
  | enumeration _ => "enum"
  | unsupported name => name

theorem of_flavour (builtin : Builtin) : of (.primitive builtin) = of (.boxed builtin) := rfl

end Target

end FixedInit
