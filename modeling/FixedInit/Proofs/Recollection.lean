/-
What an installer remembers while the host edits its classes.

Between two installations the host may do anything to its classes. An installer falls back on
what it remembers for a class of the name that still declares a member of the name, and does
not look at that member. So it answers as a new installer would, unless the host has put
another member in the place of the factory.

* `memory_after` : an installer recalls, for each identity, the last class of the identity
  that it served;
* `grant_eq_iff` : it grants what a new one grants, unless it trusts a member that does not
  serve;
* `attempt_after` : how its answers compare with those of a new installer, after any history;
* `grant_after_replacement` : a factory that was replaced is still referred to.

Design notes: an edit gives the host any classes at all, so every history of renaming, adding,
removing and replacing is a list of edits. `served` keeps the classes as they were when they
were served.
-/
import FixedInit.Proofs.Installation

namespace FixedInit

/-- The classes of a host, and the installer that works on them. -/
structure Workshop where
  classes : List ClassDef
  installer : Installer

/-- What happens in a workshop. -/
inductive Deed
  /-- The host leaves these classes in the place of its former ones. -/
  | edit (classes : List ClassDef)
  /-- A factory is requested for the class at a position. -/
  | install (position : Nat)

namespace Workshop

/-- A workshop with a new installer. -/
def opened (fieldName : String) (classes : List ClassDef) : Workshop :=
  ⟨classes, .new fieldName⟩

/-- The workshop after a deed. A request at a position without a class comes to nothing. -/
def step (w : Workshop) : Deed → Workshop
  | .edit classes => { w with classes := classes }
  | .install position =>
    match w.classes[position]? with
    | some c =>
      ⟨w.classes.set position (w.installer.attempt c).owner,
       (w.installer.attempt c).installer⟩
    | none => w

/-- The workshop after a history of deeds. -/
def after (w : Workshop) (history : List Deed) : Workshop :=
  history.foldl step w

/-- The class that is granted its factory by a deed, as it was before. -/
def served? (w : Workshop) : Deed → Option ClassDef
  | .edit _ => none
  | .install position =>
    w.classes[position]?.filter fun c => (w.installer.attempt c).grant.isOk

/-- The classes that are granted their factories in a history, in order. -/
def served (w : Workshop) : List Deed → List ClassDef
  | [] => []
  | deed :: history => (w.served? deed).toList ++ (w.step deed).served history

/-- The last class of an identity that was served in a history. -/
def lastServed? (w : Workshop) (history : List Deed) (id : ClassId) : Option ClassDef :=
  (w.served history).reverse.find? (·.id == id)

variable {w : Workshop}

/-! ### One deed -/

theorem step_install {position : Nat} {c : ClassDef} (h : w.classes[position]? = some c) :
    w.step (.install position) =
      ⟨w.classes.set position (w.installer.attempt c).owner,
       (w.installer.attempt c).installer⟩ := by
  simp only [step, h]

theorem step_install_of_none {position : Nat} (h : w.classes[position]? = none) :
    w.step (.install position) = w := by
  simp only [step, h]

theorem sound_step (sound : w.installer.Sound) (deed : Deed) :
    (w.step deed).installer.Sound ∧
    (w.step deed).installer.fieldName = w.installer.fieldName := by
  cases deed with
  | edit classes => exact ⟨sound, rfl⟩
  | install position =>
    cases h : w.classes[position]? with
    | none =>
      rw [step_install_of_none h]
      exact ⟨sound, rfl⟩
    | some c =>
      rw [step_install h]
      exact ⟨Installer.sound_attempt sound c, Installer.fieldName_attempt sound c⟩

/-- A deed changes what is recalled for the identity of the class that it serves, and for no
other. -/
theorem memory_step (sound : w.installer.Sound) (deed : Deed) :
    (w.step deed).installer.memory =
      match w.served? deed with
      | some c =>
        Function.update w.installer.memory c.id (some (c.staticRef w.installer.fieldName))
      | none => w.installer.memory := by
  cases deed with
  | edit classes => rfl
  | install position =>
    cases h : w.classes[position]? with
    | none =>
      rw [step_install_of_none h, served?, h]
      rfl
    | some c =>
      rw [step_install h, served?, h, Option.filter_some]
      obtain ⟨cause, -, eq⟩ | ⟨later, -, -, remembers, eq⟩ := Installer.attempt_cases sound c
      · rw [eq]
        rfl
      · rw [eq]
        exact remembers

/-! ### A history -/

theorem sound_after (sound : w.installer.Sound) (history : List Deed) :
    (w.after history).installer.Sound ∧
      (w.after history).installer.fieldName = w.installer.fieldName := by
  induction history generalizing w with
  | nil => exact ⟨sound, rfl⟩
  | cons deed history ih =>
    obtain ⟨sound', named⟩ := sound_step sound deed
    obtain ⟨sound'', named'⟩ := ih sound'
    exact ⟨sound'', named'.trans named⟩

theorem lastServed?_cons (w : Workshop) (deed : Deed) (history : List Deed) (id : ClassId) :
    w.lastServed? (deed :: history) id =
      ((w.step deed).lastServed? history id).or ((w.served? deed).filter (·.id == id)) := by
  rw [lastServed?, served, List.reverse_append, List.find?_append]
  cases w.served? deed with
  | none => rfl
  | some c => simp [lastServed?, Option.filter_some]

/-- An installer recalls the last class of an identity that it served, and else what it
recalled before. -/
theorem memory_after (sound : w.installer.Sound) (history : List Deed) (id : ClassId) :
    (w.after history).installer.memory id =
      ((w.lastServed? history id).map (·.staticRef w.installer.fieldName)).or
        (w.installer.memory id) := by
  induction history generalizing w with
  | nil => rfl
  | cons deed history ih =>
    obtain ⟨sound', named⟩ := sound_step sound deed
    rw [show w.after (deed :: history) = (w.step deed).after history from rfl, ih sound',
      named, lastServed?_cons, Option.map_or, Option.or_assoc, memory_step sound]
    -- what this deed has left counts only if no later class of the identity was served
    congr 1
    cases w.served? deed with
    | none => rfl
    | some c =>
      rw [Option.filter_some]
      by_cases same : c.id = id
      · simp [same]
      · simp [same, Function.update_of_ne (Ne.symm same)]

/-- Whether a class was the last one of its identity to be served under its name, and has
another member in the place of the factory by now. -/
def Outdated (w : Workshop) (history : List Deed) (c : ClassDef) : Prop :=
  (∃ last, w.lastServed? history c.id = some last ∧ last.name = c.name) ∧
    ∃ member, c.static? w.installer.fieldName = some member ∧
      ¬ (member.type = .external "DatatypeFactory" ∧ member.modifiers.isStatic = true)

theorem trusts_after (fieldName : String) (classes : List ClassDef) (history : List Deed)
    (c : ClassDef) :
    ((opened fieldName classes).after history).installer.trusts c = true ↔
      ∃ last, (opened fieldName classes).lastServed? history c.id = some last ∧
        last.name = c.name := by
  rw [Installer.trusts, memory_after (Installer.sound_new fieldName)]
  cases (opened fieldName classes).lastServed? history c.id with
  | none => exact iff_of_false Bool.false_ne_true (by simp)
  | some last => simp [ClassDef.staticRef]

end Workshop

/-! ### Compared with a new installer -/

theorem Factory.serves_iff {member : StaticDef} :
    serves member = true ↔
      member.type = .external "DatatypeFactory" ∧ member.modifiers.isStatic = true := by
  rw [serves, Bool.and_eq_true, beq_iff_eq]
  rfl

/-- Trust makes a difference only to a class whose member of the name does not serve. -/
theorem Factory.grant_trusted (fieldName : String) (trusted : Bool) (c : ClassDef)
    (h :
      ∀ member, c.static? fieldName = some member → trusted = true → serves member = true) :
    grant fieldName trusted c = grant fieldName false c := by
  have offer : available fieldName trusted c = available fieldName false c := by
    unfold available
    cases declared : c.static? fieldName with
    | none => rfl
    | some member =>
      cases trusted with
      | false => rfl
      | true => simp [h member declared rfl]
  rw [grant, grant, offer]

/-- A class with a factory has the first member of the name that it had before, or the one
that it gained. -/
theorem Factory.static?_equip {fieldName : String} {trusted : Bool} {c : ClassDef}
    (h : available fieldName trusted c = true) :
    (equip fieldName c).static? fieldName =
      some ((c.static? fieldName).getD (member fieldName)) := by
  cases declared : c.static? fieldName with
  | some existing =>
    have held : c.hasMember fieldName = true := by simp [ClassDef.hasMember, declared]
    rw [equip, if_pos held, declared]
    rfl
  | none =>
    have room : c.field? fieldName = none := by simpa [available, declared] using h
    have unheld := ClassDef.hasMember_eq_false_iff.mpr ⟨room, declared⟩
    rw [equip, if_neg (by simp [unheld]), static?_addStatic declared, Option.getD_none]

namespace Installer

variable {installer : Installer} {c : ClassDef} {member : StaticDef}

/-- What is granted to a class with a member that is trusted and does not serve. -/
theorem grant_of_not_serves (sound : installer.Sound) (trusted : installer.trusts c = true)
    (declared : c.static? installer.fieldName = some member)
    (h : Factory.serves member = false) :
    (installer.attempt c).grant = .ok (c.staticRef installer.fieldName) ∧
      ((new installer.fieldName).attempt c).grant =
        .error (.nameClash c.name installer.fieldName) := by
  -- whoever trusts a member has served it, under a name that is an identifier
  have ident : Factory.isIdentifier installer.fieldName = true := by
    rw [trusts, Option.any_eq_true] at trusted
    obtain ⟨ref, recalled, -⟩ := trusted
    exact (sound c.id ref recalled).2
  constructor
  · rw [grant_attempt sound, trusted]
    simp [Factory.grant, ident, Factory.available, declared]
  · rw [grant_attempt (sound_new _)]
    show Factory.grant installer.fieldName false c = _
    simp [Factory.grant, ident, Factory.available, declared, h]

/-- An installer grants a class what a new one grants, unless it trusts a member that does not
serve. -/
theorem grant_eq_iff (sound : installer.Sound) (c : ClassDef) :
    (installer.attempt c).grant = ((new installer.fieldName).attempt c).grant ↔
      ¬ (installer.trusts c = true ∧
        ∃ member, c.static? installer.fieldName = some member ∧
          Factory.serves member = false) := by
  constructor
  · rintro same ⟨trusted, member, declared, h⟩
    obtain ⟨kept, fresh⟩ := grant_of_not_serves sound trusted declared h
    rw [kept, fresh] at same
    cases same
  · intro h
    rw [grant_attempt sound, grant_attempt (sound_new _)]
    refine Factory.grant_trusted _ _ c fun member declared trusted => ?_
    by_contra unfit
    exact h ⟨trusted, member, declared, Bool.not_eq_true _ ▸ unfit⟩

/-- Whatever an installer remembers, it leaves a class as a new one leaves it. -/
theorem owner_attempt_eq (sound : installer.Sound) (c : ClassDef) :
    (installer.attempt c).owner = ((new installer.fieldName).attempt c).owner := by
  rw [(attempt_adds sound c).1, (attempt_adds (sound_new _) c).1]
  rfl

/-- A class that was granted its factory declares it: the first member of the name that it
had, or the one that it gained. -/
theorem static?_attempt (sound : installer.Sound) {ref : StaticRef}
    (h : (installer.attempt c).grant = .ok ref) :
    ref = c.staticRef installer.fieldName ∧
      (installer.attempt c).owner.static? installer.fieldName =
        some ((c.static? installer.fieldName).getD (Factory.member installer.fieldName)) := by
  obtain ⟨cause, granted, eq⟩ | ⟨later, granted, -, -, eq⟩ := attempt_cases sound c
  · rw [eq] at h
    cases h
  · rw [eq] at h ⊢
    obtain ⟨-, available, -⟩ := Factory.grant_eq_ok.mp granted
    exact ⟨(Except.ok.inj h).symm, Factory.static?_equip available⟩

end Installer

/-! ### After any history -/

namespace Workshop

theorem outdated_iff (fieldName : String) (classes : List ClassDef) (history : List Deed)
    (c : ClassDef) :
    (opened fieldName classes).Outdated history c ↔
      ((opened fieldName classes).after history).installer.trusts c = true ∧
        ∃ member, c.static? fieldName = some member ∧ Factory.serves member = false := by
  simp only [Outdated, trusts_after, ← Factory.serves_iff, Bool.not_eq_true]
  rfl

/-- **What an installer answers after any history.** It leaves a class as a new installer
would, and grants it the same reference or refuses it for the same reason, exactly if the
class is not outdated. An outdated class is granted a reference where a new installer finds a
clash. The reference names a static member of the class, which is a factory exactly if the
class is not outdated. -/
theorem attempt_after (fieldName : String) (classes : List ClassDef) (history : List Deed)
    (c : ClassDef) :
    let workshop := opened fieldName classes
    let kept := (workshop.after history).installer.attempt c
    let fresh := (Installer.new fieldName).attempt c
    kept.owner = fresh.owner ∧
    (kept.grant = fresh.grant ↔ ¬ workshop.Outdated history c) ∧
    (workshop.Outdated history c → kept.grant = .ok ⟨c.name, fieldName⟩ ∧
      fresh.grant = .error (.nameClash c.name fieldName)) ∧
    ∀ ref, kept.grant = .ok ref → ref = ⟨c.name, fieldName⟩ ∧
      ∃ member, kept.owner.static? ref.name = some member ∧
        (member.type = .external "DatatypeFactory" ∧ member.modifiers.isStatic = true ↔
          ¬ workshop.Outdated history c) := by
  intro workshop kept fresh
  have outdated := outdated_iff fieldName classes history c
  obtain ⟨sound, named⟩ := sound_after (w := workshop) (Installer.sound_new fieldName) history
  change (workshop.after history).installer.fieldName = fieldName at named
  have grants := Installer.grant_eq_iff sound c
  have declares := @Installer.static?_attempt _ c sound
  rw [named] at grants declares
  have replaced : workshop.Outdated history c →
      kept.grant = .ok ⟨c.name, fieldName⟩ ∧
      fresh.grant = .error (.nameClash c.name fieldName) := by
    intro h
    obtain ⟨trusted, member, declared, unfit⟩ := outdated.mp h
    rw [← named] at declared
    have split := Installer.grant_of_not_serves sound trusted declared unfit
    rwa [named] at split
  refine ⟨?_, ?_, replaced, fun ref granted => ?_⟩
  · have owners := Installer.owner_attempt_eq sound c
    rwa [named] at owners
  · rw [outdated]
    exact grants
  · obtain ⟨rfl, found⟩ := declares granted
    refine ⟨rfl, _, found, ?_⟩
    constructor
    · -- an outdated class declares a member that does not serve, and it is the first of the
      -- name
      rintro fit h
      obtain ⟨-, member, declared, unfit⟩ := outdated.mp h
      rw [declared, Option.getD_some, ← Factory.serves_iff, unfit] at fit
      cases fit
    · intro current
      have same := (grants.trans (not_congr outdated.symm)).mpr current
      rw [granted, Installer.grant_attempt (Installer.sound_new _)] at same
      exact Factory.serves_of_grant same.symm

/-- A class of products, and what it becomes when its factory is replaced by a text. -/
def products (statics : List StaticDef) : ClassDef :=
  ⟨⟨0⟩, "Product", [], statics⟩

/-- A factory that was installed and then replaced is still referred to, where a new installer
finds a clash. -/
theorem grant_after_replacement :
    let text : StaticDef := ⟨"FACTORY", .boxed .string, ⟨true, true, true⟩, none⟩
    let history : List Deed := [.install 0, .edit [products [text]]]
    (((opened "FACTORY" [products []]).after history).installer.attempt
      (products [text])).grant =
        .ok ⟨"Product", "FACTORY"⟩ ∧
      ((Installer.new "FACTORY").attempt (products [text])).grant =
        .error (.nameClash "Product" "FACTORY") :=
  ⟨rfl, rfl⟩

end Workshop

end FixedInit
