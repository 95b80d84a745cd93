/-
Schema components that fields are generated from, and the fixed value that one of them may
carry.

* `fixedValue?_eq_some` : exactly the particles of elements with a fixed value carry one.
-/
namespace FixedInit

/-- The largest number of occurrences of a particle. -/
inductive MaxOccurs
  | bounded (count : UInt32)
  | unbounded
  deriving DecidableEq

/-- The compositor of a model group. -/
inductive ModelGroup
  | sequence
  | choice
  | all
  deriving DecidableEq

/-- An element declaration. An empty fixed value is a fixed value. -/
structure Element where
  name : String
  typeName : Option String
  fixedValue : Option String
  defaultValue : Option String
  deriving DecidableEq

/-- What a particle is an occurrence of. -/
inductive Term
  | element (decl : Element)
  /-- Any element from the namespaces of a constraint. -/
  | wildcard (scope : String)
  | group (kind : ModelGroup)
  deriving DecidableEq

/-- An occurrence of a term in a content model. -/
structure Particle where
  minOccurs : UInt32
  maxOccurs : MaxOccurs
  term : Term
  deriving DecidableEq

/-- A use of an attribute. -/
structure AttributeUse where
  name : String
  isRequired : Bool
  fixedValue : Option String
  deriving DecidableEq

/-- The schema component that a field comes from. -/
inductive Component
  | particle (occurrence : Particle)
  | attributeUse (use : AttributeUse)
  /-- A reference to a named model group. -/
  | groupRef (name : String)
  deriving DecidableEq

/-- A particle that occurs exactly once. -/
def Particle.once (term : Term) : Particle :=
  ⟨1, .bounded 1, term⟩

namespace Component

/-- The element declaration of a component that is an element's particle. -/
def element? : Component → Option Element
  | particle ⟨_, _, .element decl⟩ => some decl
  | _ => none

/-- The fixed value of a component that is an element's particle. The fixed value of an
attribute does not count. -/
def fixedValue? (component : Component) : Option String :=
  component.element?.bind (·.fixedValue)

theorem fixedValue?_eq_some {component : Component} {value : String} :
    component.fixedValue? = some value ↔
      ∃ least most decl, component = particle ⟨least, most, .element decl⟩ ∧
        decl.fixedValue = some value := by
  constructor
  · intro h
    unfold fixedValue? element? at h
    split at h
    · rename_i least most decl
      exact ⟨least, most, decl, rfl, h⟩
    · simp at h
  · rintro ⟨least, most, decl, rfl, h⟩
    exact h

end Component

end FixedInit
