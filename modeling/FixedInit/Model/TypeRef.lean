/-
Declared types of generated fields.

* `ofTag?_tag` : a builtin type is known by its tag;
* `ofSchemaType_qualified` : a qualifier before the last colon of a schema type does not
  matter.
-/
namespace FixedInit

/-- A builtin value type. -/
inductive Builtin
  | string
  | boolean
  | byte
  | short
  | int
  | long
  | float
  | double
  | calendar
  | decimal
  | bigInteger
  | duration
  | qname
  | bytes
  deriving DecidableEq

namespace Builtin

/-- Every builtin type. -/
def all : List Builtin :=
  [string, boolean, byte, short, int, long, float, double, calendar, decimal, bigInteger,
   duration, qname, bytes]

/-- The name by which a snapshot refers to a builtin type. -/
def tag : Builtin → String
  | string => "String"
  | boolean => "Boolean"
  | byte => "Byte"
  | short => "Short"
  | int => "Int"
  | long => "Long"
  | float => "Float"
  | double => "Double"
  | calendar => "XmlCalendar"
  | decimal => "Decimal"
  | bigInteger => "BigInteger"
  | duration => "Duration"
  | qname => "QName"
  | bytes => "Bytes"

/-- The builtin type with a tag. -/
def ofTag? (tag : String) : Option Builtin :=
  all.find? (·.tag == tag)

/-- The name of the nullable flavour. -/
def boxedName : Builtin → String
  | int => "Integer"
  | calendar => "XMLGregorianCalendar"
  | decimal => "BigDecimal"
  | builtin => builtin.tag

/-- The name of the flavour without null, for the types that have one. -/
def primitiveName? : Builtin → Option String
  | boolean => some "boolean"
  | byte => some "byte"
  | short => some "short"
  | int => some "int"
  | long => some "long"
  | float => some "float"
  | double => some "double"
  | _ => none

/-- The builtin type of a schema type without qualifier. An unsigned type of at most 32 bits
takes the next larger signed one; a name without an entry is text. -/
def ofLocalName (name : String) : Builtin :=
  if name = "boolean" then boolean
  else if name = "byte" then byte
  else if name = "short" ∨ name = "unsignedByte" then short
  else if name = "int" ∨ name = "unsignedShort" then int
  else if name = "long" ∨ name = "unsignedInt" then long
  else if name = "float" then float
  else if name = "double" then double
  else if name ∈ ["dateTime", "date", "time", "gYear", "gYearMonth", "gMonth",
    "gMonthDay", "gDay"]
  then calendar
  else if name = "decimal" then decimal
  else if name ∈ ["integer", "nonNegativeInteger", "nonPositiveInteger", "positiveInteger",
    "negativeInteger", "unsignedLong"] then bigInteger
  else if name = "duration" then duration
  else if name = "QName" then qname
  else if name = "base64Binary" ∨ name = "hexBinary" then bytes
  else string

/-- The text after the last colon, or all of it if there is no colon. -/
def afterColon (cs : List Char) : List Char :=
  (cs.reverse.takeWhile (· != ':')).reverse

/-- The builtin type of a schema type, whatever its qualifier. -/
def ofSchemaType (name : String) : Builtin :=
  ofLocalName (String.ofList (afterColon name.toList))

theorem ofTag?_tag (builtin : Builtin) : ofTag? builtin.tag = some builtin := by
  cases builtin <;> decide

theorem ofSchemaType_qualified (qualifier name : String) (h : ':' ∉ name.toList) :
    ofSchemaType (qualifier ++ ":" ++ name) = ofLocalName name := by
  have tail : afterColon (qualifier ++ ":" ++ name).toList = name.toList := by
    simp only [afterColon, String.toList_append, List.reverse_append]
    rw [List.takeWhile_append_of_pos]
    · simp
    · intro c hc
      have : c ∈ name.toList := List.mem_reverse.1 hc
      simp only [bne_iff_ne, ne_eq]
      rintro rfl
      exact h this
  rw [ofSchemaType, tail, String.ofList_toList]

end Builtin

/-- The declared type of a field. -/
inductive TypeRef
  /-- A builtin type without null. -/
  | primitive (builtin : Builtin)
  /-- A builtin type that may be null. -/
  | boxed (builtin : Builtin)
  /-- A generated enumeration, by name. -/
  | enumeration (name : String)
  /-- A generated class, by name. -/
  | generated (name : String)
  /-- Any other type, by its full name. -/
  | external (name : String)
  deriving DecidableEq

namespace TypeRef

/-- The builtin type behind a declared type, in either flavour. -/
def builtin? : TypeRef → Option Builtin
  | primitive builtin => some builtin
  | boxed builtin => some builtin
  | _ => none

/-- The name of a type. A builtin without a name for its primitive flavour uses that of the
other. -/
def name : TypeRef → String
  | primitive builtin => builtin.primitiveName?.getD builtin.boxedName
  | boxed builtin => builtin.boxedName
  | enumeration name => name
  | generated name => name
  | external name => name

end TypeRef

end FixedInit
