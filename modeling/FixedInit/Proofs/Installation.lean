/-
Attempts to give a class its factory.

An attempt leaves a class and an installer behind whether it succeeds or not, so a pass can be
followed from attempt to attempt.

* `isIdentifier_iff` : which texts are identifiers;
* `attempt_again` : a second attempt on the class answers as the first one did and changes
  nothing;
* `attempt_cases` : what a sound installer answers, and what it leaves behind;
* `attempt_edit` : which edits of a class make no difference to an attempt.

Design notes: what an installer remembers is seen through `memory` only. Two installers that
recall the same may list it in different orders, and no answer depends on the order.
`attempt_again` asks nothing of the installer; the answers themselves need that the installer
remembers members of its own name only.
-/
import FixedInit.Factory
import Mathlib.Logic.Function.Basic

namespace FixedInit

theorem ClassDef.hasMember_eq_false_iff {c : ClassDef} {name : String} :
    c.hasMember name = false ↔ c.field? name = none ∧ c.static? name = none := by
  simp only [hasMember, Bool.or_eq_false_iff, Option.isSome_eq_false_iff,
    Option.isNone_iff_eq_none]

namespace Factory

/-! ### Names -/

/-- The characters that may open an identifier. -/
def OpensName (c : Char) : Prop :=
  ('A' ≤ c ∧ c ≤ 'Z') ∨ ('a' ≤ c ∧ c ≤ 'z') ∨ c = '_'

/-- The texts `[A-Za-z_][A-Za-z0-9_]*`. -/
def IsIdentifier (name : String) : Prop :=
  ∃ c cs, name.toList = c :: cs ∧ OpensName c ∧ ∀ d ∈ cs, OpensName d ∨ ('0' ≤ d ∧ d ≤ '9')

theorem opensName_iff {c : Char} : (c.isAlpha || c == '_') = true ↔ OpensName c := by
  have upper : c.isUpper = true ↔ 'A' ≤ c ∧ c ≤ 'Z' := decide_eq_true_iff
  have lower : c.isLower = true ↔ 'a' ≤ c ∧ c ≤ 'z' :=
    (Bool.and_eq_true _ _).to_iff.trans (and_congr decide_eq_true_iff decide_eq_true_iff)
  show ((c.isUpper || c.isLower) || c == '_') = true ↔ _
  rw [Bool.or_eq_true, Bool.or_eq_true, upper, lower, beq_iff_eq, or_assoc, OpensName]

theorem continuesName_iff {c : Char} :
    (c.isAlphanum || c == '_') = true ↔ OpensName c ∨ ('0' ≤ c ∧ c ≤ '9') := by
  have digit : c.isDigit = true ↔ '0' ≤ c ∧ c ≤ '9' := by
    simp only [Char.isDigit, Bool.and_eq_true, decide_eq_true_eq]
    exact Iff.rfl
  rw [← opensName_iff, ← digit, Char.isAlphanum]
  simp only [Bool.or_eq_true]
  exact or_right_comm

theorem isIdentifier_iff {name : String} : isIdentifier name = true ↔ IsIdentifier name := by
  unfold isIdentifier IsIdentifier
  split
  · rename_i h
    simp [h]
  · rename_i c cs h
    rw [Bool.and_eq_true, List.all_eq_true, opensName_iff]
    simp only [continuesName_iff]
    constructor
    · rintro ⟨hc, hcs⟩
      exact ⟨c, cs, h, hc, hcs⟩
    · rintro ⟨d, ds, hd, hc, hcs⟩
      obtain ⟨rfl, rfl⟩ := List.cons.inj (h.symm.trans hd)
      exact ⟨hc, hcs⟩

/-! ### What a class offers -/

/-- Whether a class can have a factory of a name. The first static member of the name must
serve, unless it is trusted; without one, no field may have the name. -/
def available (fieldName : String) (trusted : Bool) (c : ClassDef) : Bool :=
  match c.static? fieldName with
  | some existing => trusted || serves existing
  | none => (c.field? fieldName).isNone

/-- The reference to the factory of a class, or the reason why it has none. -/
def grant (fieldName : String) (trusted : Bool) (c : ClassDef) :
    Except InstallError StaticRef :=
  if isIdentifier fieldName then
    if available fieldName trusted c then .ok (c.staticRef fieldName)
    else .error (.nameClash c.name fieldName)
  else .error (.invalidName c.name fieldName)

/-- Whether a class is free to get a factory member of a name. -/
def free (fieldName : String) (c : ClassDef) : Bool :=
  isIdentifier fieldName && !c.hasMember fieldName

/-- The class with a factory member, if it has no member of the name. -/
def equip (fieldName : String) (c : ClassDef) : ClassDef :=
  if c.hasMember fieldName then c else c.addStatic (member fieldName)

theorem available_of_free {fieldName : String} {c : ClassDef}
    (h : c.hasMember fieldName = false) (trusted : Bool) :
    available fieldName trusted c = true := by
  obtain ⟨no_field, no_static⟩ := ClassDef.hasMember_eq_false_iff.mp h
  simp [available, no_field, no_static]

theorem free_iff {fieldName : String} {c : ClassDef} :
    free fieldName c = true ↔
      isIdentifier fieldName = true ∧ c.hasMember fieldName = false := by
  rw [free, Bool.and_eq_true, Bool.not_eq_true']

/-- The first member of the name is the one that was added, if there was none. -/
theorem static?_addStatic {fieldName : String} {c : ClassDef}
    (undeclared : c.static? fieldName = none) :
    (c.addStatic (member fieldName)).static? fieldName = some (member fieldName) := by
  rw [ClassDef.static?] at undeclared
  rw [ClassDef.static?, ClassDef.addStatic, List.find?_append, undeclared]
  simp [member]

theorem grant_eq_ok {fieldName : String} {trusted : Bool} {c : ClassDef} {ref : StaticRef} :
    grant fieldName trusted c = .ok ref ↔
      isIdentifier fieldName = true ∧ available fieldName trusted c = true ∧
        c.staticRef fieldName = ref := by
  unfold grant
  split
  · rename_i h
    split
    · rename_i ha
      simp [h, ha]
    · rename_i ha
      simp [ha]
  · rename_i h
    simp [h]

/-- The member that an untrusted class was granted is a factory. -/
theorem serves_of_grant {fieldName : String} {c : ClassDef} {ref : StaticRef}
    (granted : grant fieldName false c = .ok ref) :
    ((c.static? fieldName).getD (member fieldName)).type = .external "DatatypeFactory" ∧
      ((c.static? fieldName).getD (member fieldName)).modifiers.isStatic = true := by
  obtain ⟨-, available, -⟩ := grant_eq_ok.mp granted
  unfold Factory.available at available
  cases declared : c.static? fieldName with
  | some existing =>
    rw [declared] at available
    simpa [serves, type, typeName] using available
  | none => exact ⟨rfl, rfl⟩

end Factory

namespace Installer

/-! ### What an installer remembers -/

/-- The reference that an installer remembers for a class identity. -/
def memory (installer : Installer) (id : ClassId) : Option StaticRef :=
  installer.installed.lookup id

/-- Whether an installer remembers a member of a class of that name for the identity of a
class. -/
def trusts (installer : Installer) (owner : ClassDef) : Bool :=
  (installer.memory owner.id).any (·.owner == owner.name)

/-- An installer is sound if all that it remembers are members of its own name, an
identifier. -/
def Sound (installer : Installer) : Prop :=
  ∀ id ref, installer.memory id = some ref →
    ref.name = installer.fieldName ∧ Factory.isIdentifier installer.fieldName = true

theorem sound_new (fieldName : String) : (new fieldName).Sound := by
  intro id ref h
  simp [memory, new] at h

theorem lookup_filter_of_ne {id other : ClassId} (h : other ≠ id)
    (l : List (ClassId × StaticRef)) :
    (l.filter (·.1 != id)).lookup other = l.lookup other := by
  induction l with
  | nil => rfl
  | cons entry l ih =>
    obtain ⟨key, ref⟩ := entry
    by_cases hk : key = id
    · subst hk
      have hne : (other == key) = false := by simpa using h
      simp [List.lookup_cons, hne, ih]
    · simp [hk, List.lookup_cons, ih]

theorem memory_remember (installer : Installer) (id : ClassId) (ref : StaticRef) :
    (installer.remember id ref).memory = Function.update installer.memory id (some ref) := by
  funext other
  by_cases h : other = id
  · subst h
    rw [Function.update_self]
    exact List.lookup_cons_self
  · rw [Function.update_of_ne h]
    have hne : (other == id) = false := by simpa using h
    rw [memory, remember, List.lookup_cons, hne]
    exact lookup_filter_of_ne h installer.installed

theorem remembered?_eq_some {installer : Installer} {owner : ClassDef} {ref : StaticRef} :
    installer.remembered? owner = some ref ↔
      installer.memory owner.id = some ref ∧ ref.owner = owner.name ∧
        (owner.static? ref.name).isSome = true := by
  simp only [remembered?, memory, Option.filter_eq_some_iff, Bool.and_eq_true, beq_iff_eq]

end Installer

/-! ### One attempt -/

/-- What remains of an attempt to install: the answer, the class and the installer after it,
and what was told of it. -/
structure Attempt where
  grant : Except InstallError StaticRef
  owner : ClassDef
  installer : Installer
  events : List Event

namespace Installer

/-- An attempt to install. A failure changes nothing. -/
def attempt (installer : Installer) (owner : ClassDef) : Attempt :=
  match installer.install owner with
  | .ok made => ⟨.ok made.ref, made.owner, made.installer, made.events⟩
  | .error cause => ⟨.error cause, owner, installer, []⟩

theorem install_of_remembered {installer : Installer} {owner : ClassDef} {ref : StaticRef}
    (h : installer.remembered? owner = some ref) :
    installer.install owner = .ok ⟨ref, owner, installer, false⟩ := by
  rw [install, h]

theorem install_ok_cases {installer : Installer} {owner : ClassDef} {made : Installation}
    (h : installer.install owner = .ok made) :
    made = ⟨made.ref, owner, installer, false⟩ ∧ installer.remembered? owner = some made.ref ∨
      made = installer.installation owner owner false ∨
      made = installer.installation owner
        (owner.addStatic (Factory.member installer.fieldName)) true := by
  unfold install at h
  split at h
  · rename_i ref found
    cases h
    exact .inl ⟨rfl, found⟩
  · -- nothing is remembered: a member that serves is taken, and one is added where none has
    -- the name
    split at h
    · split at h
      · split at h
        · cases h
          exact .inr (.inl rfl)
        · cases h
      · split at h
        · cases h
        · cases h
          exact .inr (.inr rfl)
    · cases h

/-- What was installed is remembered and still declared, so it is found at once. -/
theorem install_again {installer : Installer} {owner : ClassDef} {made : Installation}
    (h : installer.install owner = .ok made) :
    made.installer.install made.owner =
      .ok ⟨made.ref, made.owner, made.installer, false⟩ := by
  apply install_of_remembered
  obtain ⟨owned, declared⟩ := install_ref h
  rw [remembered?_eq_some]
  obtain ⟨hmade, found⟩ | hmade | hmade := install_ok_cases h
  · obtain ⟨recalled, -, -⟩ := remembered?_eq_some.mp found
    rw [hmade] at declared ⊢
    exact ⟨recalled, owned, declared⟩
  · subst hmade
    refine ⟨?_, rfl, declared⟩
    exact (congrFun (memory_remember _ _ _) _).trans (Function.update_self _ _ _)
  · subst hmade
    refine ⟨?_, rfl, declared⟩
    exact (congrFun (memory_remember _ _ _) _).trans (Function.update_self _ _ _)

theorem attempt_again (installer : Installer) (owner : ClassDef) :
    (installer.attempt owner).installer.attempt (installer.attempt owner).owner =
      { installer.attempt owner with events := [] } := by
  unfold attempt
  cases h : installer.install owner with
  | ok made =>
    simp only [install_again h]
    rfl
  | error cause => simp only [h]

/-- A reference that is found refers to a member of the installer's name, which is then
trusted. -/
theorem grant_of_remembered {installer : Installer} (sound : installer.Sound)
    {owner : ClassDef} {ref : StaticRef} (h : installer.remembered? owner = some ref) :
    ref = owner.staticRef installer.fieldName ∧ owner.hasMember installer.fieldName = true ∧
      Factory.grant installer.fieldName (installer.trusts owner) owner = .ok ref := by
  obtain ⟨recalled, owned, declared⟩ := remembered?_eq_some.mp h
  obtain ⟨named, ident⟩ := sound owner.id ref recalled
  rw [named] at declared
  have href : ref = owner.staticRef installer.fieldName := by
    rw [ClassDef.staticRef, ← owned, ← named]
  have trusted : installer.trusts owner = true := by simp [trusts, recalled, owned]
  refine ⟨href, by simp [ClassDef.hasMember, declared], ?_⟩
  rw [Factory.grant_eq_ok]
  obtain ⟨existing, found⟩ := Option.isSome_iff_exists.mp declared
  exact ⟨ident, by simp [Factory.available, found, trusted], href.symm⟩

theorem not_trusts_of_declared {installer : Installer} (sound : installer.Sound)
    {owner : ClassDef} (h : installer.remembered? owner = none)
    (declared : (owner.static? installer.fieldName).isSome = true) :
    installer.trusts owner = false := by
  -- a trusted reference to a member that is declared would have been found
  by_contra trusted
  rw [Bool.not_eq_false, trusts, Option.any_eq_true] at trusted
  obtain ⟨ref, recalled, owned⟩ := trusted
  obtain ⟨named, -⟩ := sound owner.id ref recalled
  have found : installer.remembered? owner = some ref :=
    remembered?_eq_some.mpr ⟨recalled, by simpa using owned, by rwa [named]⟩
  rw [h] at found
  cases found

/-- Without a reference that is found, the class decides. -/
theorem install_of_not_remembered {installer : Installer} (sound : installer.Sound)
    {owner : ClassDef} (h : installer.remembered? owner = none) :
    installer.install owner =
      (Factory.grant installer.fieldName (installer.trusts owner) owner).map fun ref =>
        ⟨ref, Factory.equip installer.fieldName owner, installer.remember owner.id ref,
          !owner.hasMember installer.fieldName⟩ := by
  unfold install Factory.grant
  rw [h]
  simp only
  split
  · unfold Factory.available
    cases declared : owner.static? installer.fieldName with
    | some existing =>
      -- the member was declared and still not found, so it has to serve on its own
      have distrust := not_trusts_of_declared sound h (by rw [declared]; rfl)
      have member : owner.hasMember installer.fieldName = true := by
        simp [ClassDef.hasMember, declared]
      simp only [distrust, Bool.false_or, Factory.equip, member, if_true, Bool.not_true]
      split
      · rfl
      · rfl
    | none =>
      have member : owner.hasMember installer.fieldName =
          (owner.field? installer.fieldName).isSome := by
        simp [ClassDef.hasMember, declared]
      simp only [Factory.equip, member]
      cases owner.field? installer.fieldName with
      | some field => rfl
      | none => rfl
  · rfl

/-- What an attempt with a sound installer comes to: a refusal that changes nothing, or the
class with a factory member and an installer that recalls it. -/
theorem attempt_cases {installer : Installer} (sound : installer.Sound) (owner : ClassDef) :
    (∃ cause,
      Factory.grant installer.fieldName (installer.trusts owner) owner = .error cause ∧
      installer.attempt owner = ⟨.error cause, owner, installer, []⟩) ∨
    ∃ later : Installer,
      Factory.grant installer.fieldName (installer.trusts owner) owner =
        .ok (owner.staticRef installer.fieldName) ∧
      later.fieldName = installer.fieldName ∧
      later.memory = Function.update installer.memory owner.id
        (some (owner.staticRef installer.fieldName)) ∧
      installer.attempt owner = ⟨.ok (owner.staticRef installer.fieldName),
        Factory.equip installer.fieldName owner, later,
        if owner.hasMember installer.fieldName then []
        else [.installing owner.name owner.id installer.fieldName]⟩ := by
  cases h : installer.remembered? owner with
  | some ref =>
    obtain ⟨href, member, granted⟩ := grant_of_remembered sound h
    obtain ⟨recalled, -, -⟩ := remembered?_eq_some.mp h
    subst href
    -- remembering once more what is remembered changes nothing
    refine .inr ⟨installer, granted, rfl, ?_, ?_⟩
    · rw [← recalled, Function.update_eq_self]
    · rw [attempt, install_of_remembered h, if_pos member, Factory.equip, if_pos member]
      rfl
  | none =>
    have decided := install_of_not_remembered sound h
    cases granted : Factory.grant installer.fieldName (installer.trusts owner) owner with
    | error cause =>
      rw [granted] at decided
      exact .inl ⟨cause, rfl, by rw [attempt, decided]; rfl⟩
    | ok ref =>
      obtain ⟨-, -, rfl⟩ := Factory.grant_eq_ok.mp granted
      rw [granted] at decided
      refine .inr ⟨installer.remember owner.id (owner.staticRef installer.fieldName), rfl,
        rfl, memory_remember _ _ _, ?_⟩
      rw [attempt, decided]
      simp only [Except.map, Installation.events, Factory.equip]
      cases owner.hasMember installer.fieldName with
      | true => rfl
      | false => rfl

theorem grant_attempt {installer : Installer} (sound : installer.Sound) (owner : ClassDef) :
    (installer.attempt owner).grant =
      Factory.grant installer.fieldName (installer.trusts owner) owner := by
  obtain ⟨cause, granted, eq⟩ | ⟨later, granted, -, -, eq⟩ := attempt_cases sound owner
  · rw [eq, granted]
  · rw [eq, granted]

theorem fieldName_attempt {installer : Installer} (sound : installer.Sound)
    (owner : ClassDef) :
    (installer.attempt owner).installer.fieldName = installer.fieldName := by
  obtain ⟨cause, -, eq⟩ | ⟨later, -, named, -, eq⟩ := attempt_cases sound owner
  · rw [eq]
  · rw [eq, named]

theorem sound_attempt {installer : Installer} (sound : installer.Sound) (owner : ClassDef) :
    (installer.attempt owner).installer.Sound := by
  obtain ⟨cause, -, eq⟩ | ⟨later, granted, named, remembers, eq⟩ := attempt_cases sound owner
  · rwa [eq]
  · rw [eq]
    intro id ref h
    obtain ⟨ident, -, -⟩ := Factory.grant_eq_ok.mp granted
    rw [named]
    refine ⟨?_, ident⟩
    -- the new entry refers to a member of the name, all others were there before
    rw [remembers] at h
    by_cases same : id = owner.id
    · rw [same, Function.update_self] at h
      rw [← Option.some.inj h]
      rfl
    · rw [Function.update_of_ne same] at h
      exact (sound id ref h).1

/-- What an attempt adds to a class that is free to get the member, and what is told of it. -/
theorem attempt_adds {installer : Installer} (sound : installer.Sound) (owner : ClassDef) :
    (installer.attempt owner).owner =
        { owner with
          statics :=
            owner.statics ++ if Factory.free installer.fieldName owner then
              [Factory.member installer.fieldName]
            else [] } ∧
      (installer.attempt owner).events =
        if Factory.free installer.fieldName owner then
          [.installing owner.name owner.id installer.fieldName] else [] := by
  obtain ⟨cause, granted, eq⟩ | ⟨later, granted, -, -, eq⟩ := attempt_cases sound owner
  · -- a refusal means that the name is no identifier or that a member has it
    have taken : Factory.free installer.fieldName owner = false := by
      by_contra free
      rw [Bool.not_eq_false, Factory.free_iff] at free
      rw [Factory.grant, if_pos free.1,
        if_pos (Factory.available_of_free free.2 _)] at granted
      cases granted
    rw [eq, taken]
    refine ⟨?_, rfl⟩
    show owner = { owner with statics := owner.statics ++ [] }
    rw [List.append_nil]
  · obtain ⟨ident, -, -⟩ := Factory.grant_eq_ok.mp granted
    rw [eq, Factory.free, ident, Factory.equip]
    cases owner.hasMember installer.fieldName with
    | true =>
      refine ⟨?_, rfl⟩
      show owner = { owner with statics := owner.statics ++ [] }
      rw [List.append_nil]
    | false => exact ⟨rfl, rfl⟩

/-- What is remembered for one class makes no class of another identity or name trusted. -/
theorem trusts_attempt {installer : Installer} (sound : installer.Sound)
    {owner other : ClassDef} (distinct : owner.id = other.id → owner.name ≠ other.name)
    (distrust : installer.trusts other = false) :
    (installer.attempt owner).installer.trusts other = false := by
  obtain ⟨cause, -, eq⟩ | ⟨later, -, -, remembers, eq⟩ := attempt_cases sound owner
  · rwa [eq]
  · rw [eq]
    show later.trusts other = false
    rw [trusts, remembers]
    by_cases same : other.id = owner.id
    · rw [same, Function.update_self, Option.any_some]
      exact beq_eq_false_iff_ne.mpr (distinct same.symm)
    · rw [Function.update_of_ne same]
      exact distrust

/-! ### An attempt that may not be needed -/

/-- An attempt that is made only if it is needed; the answer is known in either case. -/
def attemptIf (installer : Installer) (needed : Bool) (owner : ClassDef) : Attempt :=
  if needed then installer.attempt owner
  else ⟨(installer.attempt owner).grant, owner, installer, []⟩

theorem grant_attemptIf (installer : Installer) (needed : Bool) (owner : ClassDef) :
    (installer.attemptIf needed owner).grant = (installer.attempt owner).grant := by
  cases needed with
  | true => rfl
  | false => rfl

/-- Of two attempts on one class, the first that is needed does all there is to do. -/
theorem attemptIf_attemptIf (installer : Installer) (owner : ClassDef) (a b : Bool) :
    let first := installer.attemptIf a owner
    let second := first.installer.attemptIf b first.owner
    let both := installer.attemptIf (a || b) owner
    second.grant = both.grant ∧ second.owner = both.owner ∧
    second.installer = both.installer ∧
      first.events ++ second.events = both.events := by
  have again := attempt_again installer owner
  cases a with
  | true =>
    -- the second attempt finds what the first one left, and tells nothing
    cases b with
    | true => simp [attemptIf, again]
    | false => simp [attemptIf, again]
  | false => simp [attemptIf]

section

variable {installer : Installer} (sound : installer.Sound) (needed : Bool) (owner : ClassDef)

include sound

theorem sound_attemptIf : (installer.attemptIf needed owner).installer.Sound := by
  cases needed with
  | true => exact sound_attempt sound owner
  | false => exact sound

theorem fieldName_attemptIf :
    (installer.attemptIf needed owner).installer.fieldName = installer.fieldName := by
  cases needed with
  | true => exact fieldName_attempt sound owner
  | false => rfl

theorem trusts_attemptIf {owner other : ClassDef}
    (distinct : owner.id = other.id → owner.name ≠ other.name)
    (distrust : installer.trusts other = false) :
    (installer.attemptIf needed owner).installer.trusts other = false := by
  cases needed with
  | true => exact trusts_attempt sound distinct distrust
  | false => exact distrust

theorem owner_attemptIf :
    (installer.attemptIf needed owner).owner =
      { owner with
        statics := owner.statics ++
          if needed && Factory.free installer.fieldName owner then
            [Factory.member installer.fieldName] else [] } := by
  cases needed with
  | true => exact (attempt_adds sound owner).1
  | false =>
    show owner = { owner with statics := owner.statics ++ [] }
    rw [List.append_nil]

theorem events_attemptIf :
    (installer.attemptIf needed owner).events =
      if needed && Factory.free installer.fieldName owner then
        [.installing owner.name owner.id installer.fieldName] else [] := by
  cases needed with
  | true => exact (attempt_adds sound owner).2
  | false => rfl

end

/-! ### Edits that an installer does not notice -/

/-- An edit of a class that an installer does not notice: it keeps the identity and the name,
the names of the members and which of them serve as a factory, and it leaves room for a
factory at the end. -/
structure Unnoticed (edit : ClassDef → ClassDef) (c : ClassDef) : Prop where
  id : (edit c).id = c.id
  name : (edit c).name = c.name
  field? : ∀ name, ((edit c).field? name).isSome = (c.field? name).isSome
  static? : ∀ name,
    ((edit c).static? name).map Factory.serves = (c.static? name).map Factory.serves
  addStatic : ∀ name,
    edit (c.addStatic (Factory.member name)) = (edit c).addStatic (Factory.member name)

section

variable {edit : ClassDef → ClassDef} {c : ClassDef} (unnoticed : Unnoticed edit c)

include unnoticed

theorem static?_edit (name : String) :
    ((edit c).static? name).isSome = (c.static? name).isSome := by
  rw [← Option.isSome_map (f := Factory.serves), unnoticed.static?, Option.isSome_map]

theorem remembered?_edit (installer : Installer) :
    installer.remembered? (edit c) = installer.remembered? c := by
  simp only [remembered?, unnoticed.id, unnoticed.name, static?_edit unnoticed]

theorem hasMember_edit (name : String) : (edit c).hasMember name = c.hasMember name := by
  rw [ClassDef.hasMember, ClassDef.hasMember, unnoticed.field?, static?_edit unnoticed]

theorem install_edit (installer : Installer) :
    installer.install (edit c) =
      (installer.install c).map fun made => { made with owner := edit made.owner } := by
  have serves := unnoticed.static? installer.fieldName
  have ref : (edit c).staticRef = c.staticRef := by
    funext name
    rw [ClassDef.staticRef, unnoticed.name]
    rfl
  unfold install
  rw [remembered?_edit unnoticed, hasMember_edit unnoticed, unnoticed.name]
  cases installer.remembered? c with
  | some ref => rfl
  | none =>
    cases Factory.isIdentifier installer.fieldName with
    | false => rfl
    | true =>
      cases declared : c.static? installer.fieldName with
      | some existing =>
        rw [declared] at serves
        obtain ⟨existing', declared', same⟩ := Option.map_eq_some_iff.mp serves
        simp only [declared', same, installation, unnoticed.id, ref]
        cases Factory.serves existing <;> rfl
      | none =>
        rw [declared] at serves
        simp only [Option.map_eq_none_iff.mp serves, installation, unnoticed.id, ref]
        cases c.hasMember installer.fieldName with
        | true => rfl
        | false => simp only [← unnoticed.addStatic]; rfl

/-- An attempt answers for a class after such an edit as before, and goes on as the edit of
what it leaves. -/
theorem attempt_edit (installer : Installer) :
    installer.attempt (edit c) =
      { installer.attempt c with owner := edit (installer.attempt c).owner } := by
  unfold attempt
  rw [install_edit unnoticed]
  cases installed : installer.install c with
  | error cause => rfl
  | ok made =>
    -- the class that is told of has the same name and identity
    have told : (edit made.owner).name = made.owner.name ∧
        (edit made.owner).id = made.owner.id := by
      obtain ⟨eq, -⟩ | eq | eq := install_ok_cases installed
      · rw [eq]
        exact ⟨unnoticed.name, unnoticed.id⟩
      · rw [eq]
        exact ⟨unnoticed.name, unnoticed.id⟩
      · rw [eq, installation, unnoticed.addStatic]
        exact ⟨unnoticed.name, unnoticed.id⟩
    simp only [Except.map, Installation.events, told.1, told.2]

theorem attemptIf_edit (installer : Installer) (needed : Bool) :
    installer.attemptIf needed (edit c) =
      { installer.attemptIf needed c with
        owner := edit (installer.attemptIf needed c).owner } := by
  unfold attemptIf
  rw [attempt_edit unnoticed]
  cases needed with
  | true => rfl
  | false => rfl

end

end Installer

/-- What is told of an installation is no remark about a field. -/
theorem diagnostic?_of_mem_attemptIf (installer : Installer) (needed : Bool)
    (owner : ClassDef) :
    ∀ event ∈ (installer.attemptIf needed owner).events, event.diagnostic? = none := by
  intro event h
  unfold Installer.attemptIf Installer.attempt at h
  split at h
  · split at h
    · unfold Installation.events at h
      split at h
      · rw [List.mem_singleton.mp h]
        rfl
      · cases h
    · cases h
  · cases h

end FixedInit
