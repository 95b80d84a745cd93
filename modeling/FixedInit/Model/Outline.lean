/-
Outlines: the classes and enumerations that are generated together.

* `find?_updateFirst` : an update of the first entry with a property is what a search then
  finds;
* `class?_addClass_of_found` : a new class hides no class that was found before;
* `constant?_append_of_found` : enumerations appended to a catalog change no answer that was
  found.
-/
import FixedInit.Model.Component
import FixedInit.Model.Expr
import FixedInit.Model.TypeRef

namespace FixedInit

/-- The identity of a class in an outline. -/
structure ClassId where
  value : UInt32
  deriving DecidableEq

/-- The text of an identity. -/
def ClassId.render (id : ClassId) : String :=
  "#" ++ String.ofList (decimalText id.value.toNat)

/-- The identity one past another; nothing comes after the largest one but itself. -/
def ClassId.after (id : ClassId) : ClassId :=
  ⟨UInt32.ofNat (min (id.value.toNat + 1) (UInt32.size - 1))⟩

/-- The modifiers of a static member. -/
structure Modifiers where
  isPrivate : Bool
  isStatic : Bool
  isFinal : Bool
  deriving DecidableEq

/-- The fatal error into which the failure of a static initializer is turned. -/
structure FatalError where
  causeType : String
  message : String
  deriving DecidableEq

/-- The initializer of a static member. -/
structure StaticInit where
  value : Expr
  onError : Option FatalError

/-- A static member of a class. -/
structure StaticDef where
  name : String
  type : TypeRef
  modifiers : Modifiers
  init : Option StaticInit

/-- An instance field of a class. -/
structure FieldDef where
  name : String
  type : TypeRef
  init : Option Expr
  component : Option Component

/-- A generated class. -/
structure ClassDef where
  id : ClassId
  name : String
  fields : List FieldDef
  statics : List StaticDef

/-- A constant of an enumeration, and the lexical value that it stands for. -/
structure EnumConstant where
  name : String
  lexicalValue : String
  deriving DecidableEq

/-- A generated enumeration. -/
structure EnumDef where
  name : String
  constants : List EnumConstant
  deriving DecidableEq

/-- The classes and enumerations of one pass. -/
structure Outline where
  classes : List ClassDef
  enums : List EnumDef

/-- The list with its first entry of a property changed. -/
def updateFirst {α : Type} (p : α → Bool) (f : α → α) : List α → List α
  | [] => []
  | a :: as => if p a then f a :: as else a :: updateFirst p f as

theorem find?_updateFirst {α : Type} {p : α → Bool} {f : α → α} (keeps : ∀ a, p a → p (f a))
    (as : List α) : (updateFirst p f as).find? p = (as.find? p).map f := by
  induction as with
  | nil => rfl
  | cons a as ih =>
    by_cases h : p a
    · simp [updateFirst, h, keeps a h]
    · simp [updateFirst, h, ih]

namespace FieldDef

/-- The fixed value of a field, if its schema component carries one. -/
def fixedValue? (field : FieldDef) : Option String :=
  field.component.bind (·.fixedValue?)

/-- Whether a field has a fixed value. An empty one counts. -/
def isEligible (field : FieldDef) : Bool :=
  field.fixedValue?.isSome

/-- A new field of a name and a type. -/
def ofType (name : String) (type : TypeRef) : FieldDef :=
  ⟨name, type, none, none⟩

end FieldDef

namespace ClassDef

/-- A class without members. -/
def empty (id : ClassId) (name : String) : ClassDef :=
  ⟨id, name, [], []⟩

/-- Appends an instance field. -/
def addField (c : ClassDef) (field : FieldDef) : ClassDef :=
  { c with fields := c.fields ++ [field] }

/-- The first instance field with a name. -/
def field? (c : ClassDef) (name : String) : Option FieldDef :=
  c.fields.find? (·.name == name)

/-- The first static member with a name. -/
def static? (c : ClassDef) (name : String) : Option StaticDef :=
  c.statics.find? (·.name == name)

/-- Whether any member has a name. -/
def hasMember (c : ClassDef) (name : String) : Bool :=
  (c.field? name).isSome || (c.static? name).isSome

/-- Appends a static member. -/
def addStatic (c : ClassDef) (member : StaticDef) : ClassDef :=
  { c with statics := c.statics ++ [member] }

/-- The reference to a static member of a class, by name. -/
def staticRef (c : ClassDef) (name : String) : StaticRef :=
  ⟨c.name, name⟩

/-- Removes every static member with a name. -/
def removeStatic (c : ClassDef) (name : String) : ClassDef :=
  { c with statics := c.statics.filter (·.name != name) }

/-- Sets the initializer of the first field with a name. -/
def initField (c : ClassDef) (name : String) (expr : Expr) : ClassDef :=
  { c with
    fields :=
      updateFirst (·.name == name) (fun field => { field with init := expr }) c.fields }

end ClassDef

/-- The expression that names a constant of an enumeration. -/
def EnumDef.constantRef (e : EnumDef) (constant : EnumConstant) : Expr :=
  .constant e.name constant.name

namespace Outline

/-- The outline without classes and enumerations. -/
def empty : Outline := ⟨[], []⟩

/-- The first class with an identity. -/
def class? (o : Outline) (id : ClassId) : Option ClassDef :=
  o.classes.find? (·.id == id)

/-- The first class with a name. -/
def classByName? (o : Outline) (name : String) : Option ClassDef :=
  o.classes.find? (·.name == name)

/-- Changes the first class with an identity. -/
def updateClass (o : Outline) (id : ClassId) (f : ClassDef → ClassDef) : Outline :=
  { o with classes := updateFirst (·.id == id) f o.classes }

/-- The identity after every identity in use; the first one is zero. -/
def nextId (o : Outline) : ClassId :=
  ⟨(o.classes.map (·.id.after.value)).foldl max 0⟩

/-- Appends a class without members. -/
def addClass (o : Outline) (name : String) : Outline :=
  { o with classes := o.classes ++ [.empty o.nextId name] }

/-- Appends a class as it is. -/
def pushClass (o : Outline) (c : ClassDef) : Outline :=
  { o with classes := o.classes ++ [c] }

/-- Removes every class with a name. -/
def removeClass (o : Outline) (name : String) : Outline :=
  { o with classes := o.classes.filter (·.name != name) }

/-- Appends an enumeration. -/
def addEnum (o : Outline) (e : EnumDef) : Outline :=
  { o with enums := o.enums ++ [e] }

/-- Every instance field with its class, in order. -/
def fields (o : Outline) : List (ClassDef × FieldDef) :=
  o.classes.flatMap fun c => c.fields.map fun field => (c, field)

theorem class?_addClass_of_found {o : Outline} {id : ClassId} {c : ClassDef}
    (h : o.class? id = some c) (name : String) : (o.addClass name).class? id = some c := by
  simp only [class?, addClass] at h ⊢
  rw [List.find?_append, h]
  rfl

end Outline

/-! ### Comparison

Outlines are compared like their expressions: an initializer with NaN makes its owner differ
from itself. -/

/-- The comparison of optional values. -/
def sameOption {α : Type} (same : α → α → Bool) : Option α → Option α → Bool
  | none, none => true
  | some a, some b => same a b
  | _, _ => false

/-- The comparison of lists, entry by entry. -/
def sameList {α : Type} (same : α → α → Bool) : List α → List α → Bool
  | [], [] => true
  | a :: as, b :: bs => same a b && sameList same as bs
  | _, _ => false

/-- The comparison of static initializers. -/
def StaticInit.same (a b : StaticInit) : Bool :=
  a.value.same b.value && a.onError == b.onError

/-- The comparison of static members. -/
def StaticDef.same (a b : StaticDef) : Bool :=
  a.name == b.name && a.type == b.type && a.modifiers == b.modifiers &&
    sameOption StaticInit.same a.init b.init

/-- The comparison of instance fields. -/
def FieldDef.same (a b : FieldDef) : Bool :=
  a.name == b.name && a.type == b.type && sameOption Expr.same a.init b.init &&
    a.component == b.component

/-- The comparison of classes. -/
def ClassDef.same (a b : ClassDef) : Bool :=
  a.id == b.id && a.name == b.name && sameList FieldDef.same a.fields b.fields &&
    sameList StaticDef.same a.statics b.statics

/-- The comparison of outlines. -/
def Outline.same (a b : Outline) : Bool :=
  sameList ClassDef.same a.classes b.classes && a.enums == b.enums

/-! ### Looking up constants -/

namespace Catalog

/-- The first constant with a lexical value in the enumerations of a name, in order. -/
def constant? (enums : List EnumDef) (name value : String) : Option Expr :=
  enums.findSome? fun e =>
    if e.name = name then
      (e.constants.find? (·.lexicalValue == value)).map e.constantRef
    else none

theorem constant?_append_of_found {enums : List EnumDef} {name value : String} {expr : Expr}
    (h : constant? enums name value = some expr) (more : List EnumDef) :
    constant? (enums ++ more) name value = some expr := by
  simp only [constant?] at h ⊢
  rw [List.findSome?_append, h]
  rfl

end Catalog

end FixedInit
