/-
Records, variants and lists in JSON.

A record is an object, in any order and with unknown names among the known ones, or an array
of all its fields in order. A variant is an object with one member, whose name tells the case;
a case without content may also be a string. A reader is told how many levels of arrays and
objects may still open.

* `fields?_array` : the array form of a record;
* `fields?_eq_none_of_repeated` : a known name that occurs twice is refused.
-/
import FixedInit.Json.Value

namespace FixedInit.Json

/-- The depth up to which values are read. -/
def depthLimit : Nat := 127

/-- The value of the only member with a name; `some none` if there is no such member, and
`none` if there are several. -/
def only? (members : List (String × Json)) (name : String) : Option (Option Json) :=
  match members.filter (·.1 == name) with
  | [] => some none
  | [(_, value)] => some (some value)
  | _ => none

/-- The fields of a record, in the order of their names; an object may leave out any of
them. -/
def fields? (levels : Nat) (names : List String) : Json → Option (List (Option Json))
  | object members => if levels = 0 then none else names.mapM (only? members)
  | array items =>
    if levels = 0 ∨ items.length ≠ names.length then none else some (items.map some)
  | _ => none

/-- The case and the content of a variant; a string has no content. -/
def case? (levels : Nat) : Json → Option (String × Option Json)
  | string name => some (name, none)
  | object [(name, content)] => if levels = 0 then none else some (name, some content)
  | _ => none

/-- Whether a case has no content: it is written as a string, or its content is null. -/
def isBare : Option Json → Bool
  | none => true
  | some null => true
  | some _ => false

/-- The items of an array, each read one level deeper. -/
def list? {α : Type} (read : Nat → Json → Option α) : Nat → Json → Option (List α)
  | levels + 1, array items => items.mapM (read levels)
  | _, _ => none

/-- A field that must be there. -/
def required {α : Type} (read : Json → Option α) (field : Option Json) : Option α :=
  field.bind read

/-- A field that may be missing or null. -/
def nullable {α : Type} (read : Json → Option α) : Option Json → Option (Option α)
  | none => some none
  | some null => some none
  | some value => (read value).map some

/-- A string. -/
def string? : Json → Option String
  | string value => some value
  | _ => none

/-- A boolean. -/
def boolean? : Json → Option Bool
  | boolean value => some value
  | _ => none

/-- An integer. -/
def int? : Json → Option Int
  | number value => value.integer?
  | _ => none

/-- An unsigned integer of 32 bits. -/
def word? (value : Json) : Option UInt32 :=
  match int? value with
  | some n => if 0 ≤ n ∧ n < UInt32.size then some (UInt32.ofNat n.toNat) else none
  | none => none

/-- A number of a binary format. -/
def binary? (f : Format) : Json → Option (Binary f)
  | number value => value.binary? f
  | _ => none

theorem fields?_array {levels : Nat} {names : List String} {items : List Json}
    (h : items.length = names.length) :
    fields? (levels + 1) names (array items) = some (items.map some) := by
  simp [fields?, h]

theorem fields?_eq_none_of_repeated {levels : Nat} {names : List String}
    {members : List (String × Json)} {name : String} (known : name ∈ names)
    (repeated : 2 ≤ (members.filter (·.1 == name)).length) :
    fields? levels names (object members) = none := by
  have failed : only? members name = none := by
    unfold only?
    split
    · rename_i h; simp [h] at repeated
    · rename_i h; simp [h] at repeated
    · rfl
  have : names.mapM (only? members) = none := by
    induction names with
    | nil => simp at known
    | cons first names ih =>
      rw [List.mapM_cons]
      rcases List.mem_cons.mp known with rfl | known
      · rw [failed]; rfl
      · rw [ih known]
        cases only? members first <;> rfl
  simp [fields?, this]

end FixedInit.Json
