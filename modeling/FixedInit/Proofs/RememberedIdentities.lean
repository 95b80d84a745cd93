/-
The identities for which an installer remembers a member, and their number.

An installer lists each identity once, so its count is the number of identities that it
remembers. An attempt that is granted adds the identity of its class to them, if it is not
among them, and one that is refused adds nothing.

* `count_eq_card` : the count of an installer is the number of its identities;
* `identities_attempt` : what an attempt adds to them.

Design notes: nothing is asked of what is remembered for an identity, so sharing an identity
among classes does not matter here.
-/
import FixedInit.Proofs.Installation
import Mathlib.Data.Finset.Card

namespace FixedInit.Installer

/-- The identities for which an installer remembers a member. -/
def identities (installer : Installer) : Finset ClassId :=
  (installer.installed.map (·.1)).toFinset

/-- An installer is tidy if it lists each identity once. -/
def Tidy (installer : Installer) : Prop :=
  (installer.installed.map (·.1)).Nodup

variable {installer : Installer} {owner : ClassDef}

theorem count_eq_card (tidy : installer.Tidy) :
    installer.count = installer.identities.card := by
  rw [identities, List.toFinset_card_of_nodup tidy, List.length_map]
  rfl

theorem tidy_new (fieldName : String) : (new fieldName).Tidy :=
  List.nodup_nil

theorem identities_new (fieldName : String) : (new fieldName).identities = ∅ := rfl

/-! ### Remembering -/

theorem tidy_remember (tidy : installer.Tidy) (id : ClassId) (ref : StaticRef) :
    (installer.remember id ref).Tidy := by
  -- what was listed under the identity gives way to the new entry
  rw [Tidy, remember, List.map_cons, List.nodup_cons]
  constructor
  · simp
  · exact List.Nodup.sublist (List.filter_sublist.map _) tidy

theorem identities_remember (installer : Installer) (id : ClassId) (ref : StaticRef) :
    (installer.remember id ref).identities = insert id installer.identities := by
  ext other
  by_cases same : other = id
  · simp [identities, remember, same]
  · simp [identities, remember, same]

theorem mem_identities_of_remembered {ref : StaticRef}
    (h : installer.remembered? owner = some ref) :
    owner.id ∈ installer.identities := by
  obtain ⟨recalled, -, -⟩ := remembered?_eq_some.mp h
  obtain ⟨front, back, split, -⟩ := List.lookup_eq_some_iff.mp recalled
  simp [identities, split]

/-! ### One attempt -/

/-- An attempt that is granted finds the identity of its class among those that are
remembered, or has it remembered; one that is refused leaves all as it was. -/
theorem installer_attempt_cases (installer : Installer) (owner : ClassDef) :
    (installer.attempt owner).grant.isOk = false ∧
    (installer.attempt owner).installer = installer ∨
      (installer.attempt owner).grant.isOk = true ∧
        ((installer.attempt owner).installer = installer ∧ owner.id ∈ installer.identities ∨
          ∃ ref, (installer.attempt owner).installer = installer.remember owner.id ref) := by
  unfold attempt
  cases installed : installer.install owner with
  | error cause => exact .inl ⟨rfl, rfl⟩
  | ok made =>
    refine .inr ⟨rfl, ?_⟩
    obtain ⟨eq, found⟩ | eq | eq := install_ok_cases installed
    · exact .inl ⟨by rw [eq], mem_identities_of_remembered found⟩
    · exact .inr ⟨_, by rw [eq]; rfl⟩
    · exact .inr ⟨_, by rw [eq]; rfl⟩

theorem tidy_attempt (tidy : installer.Tidy) (owner : ClassDef) :
    (installer.attempt owner).installer.Tidy := by
  obtain ⟨-, eq⟩ | ⟨-, ⟨eq, -⟩ | ⟨ref, eq⟩⟩ := installer_attempt_cases installer owner
  · rwa [eq]
  · rwa [eq]
  · rw [eq]
    exact tidy_remember tidy owner.id ref

theorem identities_attempt (installer : Installer) (owner : ClassDef) :
    (installer.attempt owner).installer.identities =
      if (installer.attempt owner).grant.isOk then insert owner.id installer.identities
      else installer.identities := by
  obtain ⟨refused, eq⟩ | ⟨granted, ⟨eq, known⟩ | ⟨ref, eq⟩⟩ :=
    installer_attempt_cases installer owner
  · rw [eq, refused]
    rfl
  · rw [eq, granted, if_pos rfl, Finset.insert_eq_self.mpr known]
  · rw [eq, granted, if_pos rfl, identities_remember]

theorem tidy_attemptIf (tidy : installer.Tidy) (needed : Bool) (owner : ClassDef) :
    (installer.attemptIf needed owner).installer.Tidy := by
  cases needed with
  | true => exact tidy_attempt tidy owner
  | false => exact tidy

theorem identities_attemptIf (installer : Installer) (needed : Bool) (owner : ClassDef) :
    (installer.attemptIf needed owner).installer.identities =
      if needed && (installer.attempt owner).grant.isOk then
        insert owner.id installer.identities
      else installer.identities := by
  cases needed with
  | true => exact identities_attempt installer owner
  | false => rfl

end FixedInit.Installer
