/-
The factory of calendar values, which a class that needs one gets once.

An installer remembers, for each class identity, the member that it gave or found. What it
remembers is used only for a class of the same name that still has a member of that name,
since identities may be shared and classes edited.

* `install_ref` : an installation refers to a member of the class it was made for.

Design notes: an installer and a class are values, so a failed installation leaves both as
they were.
-/
import FixedInit.Failure
import FixedInit.Report

namespace FixedInit

namespace Factory

/-- The type of a factory. -/
def typeName : String := "DatatypeFactory"

/-- The function that makes a factory. -/
def constructor : String := "new_instance"

/-- The error that making a factory may raise. -/
def errorType : String := "DatatypeConfigurationException"

/-- The wording of the fatal error that it is turned into. -/
def errorMessage : String := "Unable to initialize DatatypeFactory"

/-- The method that makes a calendar value from its lexical form. -/
def calendarMethod : String := "new_xml_gregorian_calendar"

/-- The declared type of a factory member. -/
def type : TypeRef := .external typeName

/-- The factory member of a given name. -/
def member (name : String) : StaticDef where
  name := name
  type := type
  modifiers := ⟨true, true, true⟩
  init := some
    { value := .staticInvoke typeName constructor []
      onError := some ⟨errorType, errorMessage⟩ }

/-- Whether an existing member can serve as the factory. -/
def serves (existing : StaticDef) : Bool :=
  existing.type == type && existing.modifiers.isStatic

/-- The calendar value of a lexical form, made by a factory. -/
def calendar (factory : StaticRef) (value : String) : Expr :=
  (Expr.invoke (.static factory) calendarMethod []).withArg (.str value)

/-- Whether a name is an identifier: ASCII letters, digits and underscores, no digit first. -/
def isIdentifier (name : String) : Bool :=
  match name.toList with
  | [] => false
  | c :: cs => (c.isAlpha || c == '_') && cs.all fun c => c.isAlphanum || c == '_'

end Factory

/-- An installer of factories under a given member name. -/
structure Installer where
  fieldName : String
  installed : List (ClassId × StaticRef)

/-- A successful installation: the reference to the factory, the class and the installer after
it, and whether the class gained the member. -/
structure Installation where
  ref : StaticRef
  owner : ClassDef
  installer : Installer
  added : Bool

/-- What is told of an installation: that the class gains the member, if it does. -/
def Installation.events (made : Installation) : List Event :=
  if made.added then [.installing made.owner.name made.owner.id made.ref.name] else []

namespace Installer

/-- An installer that remembers nothing. -/
def new (fieldName : String) : Installer :=
  ⟨fieldName, []⟩

/-- The number of class identities that the installer remembers. -/
def count (installer : Installer) : Nat :=
  installer.installed.length

/-- The reference remembered for a class, if it still refers to a member of that class. -/
def remembered? (installer : Installer) (owner : ClassDef) : Option StaticRef :=
  (installer.installed.lookup owner.id).filter fun ref =>
    ref.owner == owner.name && (owner.static? ref.name).isSome

/-- Remembers a reference for a class identity, in place of an earlier one. -/
def remember (installer : Installer) (id : ClassId) (ref : StaticRef) : Installer :=
  { installer with installed := (id, ref) :: installer.installed.filter (·.1 != id) }

/-- The installation that refers to the member of the installer's name, and remembers it. -/
def installation (installer : Installer) (before after : ClassDef) (added : Bool) :
    Installation :=
  let ref := before.staticRef installer.fieldName
  ⟨ref, after, installer.remember before.id ref, added⟩

/-- Gives a class its factory. A member of the name that can serve is used as it is; any other
member of the name is a clash. -/
def install (installer : Installer) (owner : ClassDef) : Except InstallError Installation :=
  match installer.remembered? owner with
  | some ref => .ok ⟨ref, owner, installer, false⟩
  | none =>
    if Factory.isIdentifier installer.fieldName then
      match owner.static? installer.fieldName with
      | some existing =>
        if Factory.serves existing then .ok (installer.installation owner owner false)
        else .error (.nameClash owner.name installer.fieldName)
      | none =>
        if owner.hasMember installer.fieldName then
          .error (.nameClash owner.name installer.fieldName)
        else
          .ok (installer.installation owner
            (owner.addStatic (Factory.member installer.fieldName)) true)
    else .error (.invalidName owner.name installer.fieldName)

theorem install_ref {installer : Installer} {owner : ClassDef} {made : Installation}
    (h : installer.install owner = .ok made) :
    made.ref.owner = owner.name ∧ (made.owner.static? made.ref.name).isSome = true := by
  unfold install at h
  split at h
  · rename_i ref found
    cases h
    simp only [remembered?, Option.filter_eq_some_iff, Bool.and_eq_true, beq_iff_eq] at found
    exact found.2
  · split at h
    · split at h
      · rename_i existing found
        split at h
        · cases h
          simp [Installer.installation, ClassDef.staticRef, found]
        · cases h
      · split at h
        · cases h
        · cases h
          simp [Installer.installation, ClassDef.staticRef, ClassDef.addStatic,
            ClassDef.static?, Factory.member]
    · cases h

end Installer

end FixedInit
