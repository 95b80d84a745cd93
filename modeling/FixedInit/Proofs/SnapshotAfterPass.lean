/-
Snapshots of outlines after a pass.

An outline without floating point literals has, after a pass, just those that the pass has
read from fixed values. A snapshot writes a number that is not finite as null, which no
literal is read from.

* `floats_settle` : a settled field has the floating point literals of its fixed value;
* `mem_floats_run_iff` : an outline after a pass has those of the fields that the pass got to;
* `isRestored_run` : it is restored from its snapshot exactly if all of them are read back;
* `restore?_measure` : an infinite limit keeps an outline from being restored.
-/
import FixedInit.Proofs.Attachment
import FixedInit.Proofs.FirstConstant
import FixedInit.Proofs.RoundTrip

namespace FixedInit

/-- The floating point literals of what the fixed value of a field is read as. -/
def FieldDef.fixedFloats (field : FieldDef) : List FloatLiteral :=
  match field.number? with
  | some (.ok expr) => expr.floats
  | _ => []

theorem fixedFloats_eq_nil {field : FieldDef}
    (h : field.isEligible = true →
      Target.of field.type ≠ .singleFloat ∧ Target.of field.type ≠ .doubleFloat) :
    field.fixedFloats = [] := by
  unfold FieldDef.fixedFloats FieldDef.number?
  cases fixed : field.fixedValue? with
  | none => rfl
  | some value =>
    obtain ⟨single, double⟩ := h (by simp [FieldDef.isEligible, fixed])
    rw [Option.bind_some]
    cases target : Target.of field.type with
    | singleFloat => exact absurd target single
    | doubleFloat => exact absurd target double
    | narrowInt width =>
      simp only [Literal.narrowInt]
      cases IntegerLiteral.read width.bits value.toList <;> rfl
    | wideInt =>
      simp only [Literal.wideInt]
      cases IntegerLiteral.read 64 value.toList <;> rfl
    | _ => rfl

/-- An outline is restored from its own snapshot. -/
def Outline.IsRestored (o : Outline) : Prop :=
  Outline.restore? o.snapshot = some o

theorem finite_of_durable {x : FloatLiteral} (h : x.Durable) :
    ∃ negative rank, x.value = .finite negative rank := by
  obtain ⟨format, value⟩ := x
  cases value with
  | finite negative rank => exact ⟨negative, rank, rfl⟩
  | nan => cases h
  | infinite negative => cases h

namespace Pass

variable {options : Options} {o : Outline} {field : FieldDef} {x : FloatLiteral}
    {value : String}

/-! ### The literals that a pass gives -/

/-- The floating point literals that a pass gives to the fields of an outline. -/
def givenFloats (options : Options) (o : Outline) : List FloatLiteral :=
  if options.enabled then
    (o.places.filter (isReached options.policy)).flatMap (·.field.fixedFloats)
  else []

theorem mem_givenFloats_iff (enabled : options.enabled = true) :
    x ∈ givenFloats options o ↔
      ∃ p ∈ o.places, isReached options.policy p = true ∧ x ∈ p.field.fixedFloats := by
  simp [givenFloats, enabled, and_assoc]

theorem floats_answer (site : Site) (fixed : field.fixedValue? = some value) :
    optionFloats Expr.floats (site.answer field value).expr? = field.fixedFloats := by
  unfold FieldDef.fixedFloats FieldDef.number? Site.answer
  rw [fixed, Option.bind_some]
  -- a number has the literals of its reading, and nothing else has any
  cases Target.of field.type with
  | narrowInt width =>
    simp only
    cases Literal.narrowInt field.name width value <;> rfl
  | wideInt =>
    simp only
    cases Literal.wideInt field.name value <;> rfl
  | singleFloat =>
    simp only
    cases Literal.singleFloat field.name value <;> rfl
  | doubleFloat =>
    simp only
    cases Literal.doubleFloat field.name value <;> rfl
  | calendar =>
    simp only
    cases site.grant <;> rfl
  | enumeration name =>
    simp only
    split
    · rename_i expr found
      obtain ⟨-, -, -, constant, -, -, rfl⟩ := Catalog.constant?_some found
      rfl
    · rfl
  | _ => rfl

/-- A field without literals that is settled has those of its fixed value. -/
theorem floats_settle (site : Site) (plain : field.floats = []) :
    (site.settle field).floats = field.fixedFloats := by
  rw [settle_eq_answer, FieldDef.floats, Site.answer?]
  cases fixed : field.fixedValue? with
  | none =>
    rw [FieldDef.fixedFloats, FieldDef.number?, fixed]
    exact plain
  | some value =>
    rw [← floats_answer site fixed, Option.map_some, Option.bind_some]
    cases (site.answer field value).expr? with
    | some expr => rfl
    | none => exact plain

/-! ### Outlines without literals -/

section

variable (plain : o.floats = [])

include plain

theorem floats_class {c : ClassDef} (hc : c ∈ o.classes) :
    c.fields.flatMap FieldDef.floats = [] ∧ c.statics.flatMap StaticDef.floats = [] :=
  List.append_eq_nil_iff.mp (List.flatMap_eq_nil_iff.mp plain c hc)

theorem floats_place {p : Place} (hp : p ∈ o.places) : p.field.floats = [] := by
  obtain ⟨later, rest, split, fields_eq⟩ := mem_places_iff.mp hp
  have owner : p.owner ∈ o.classes := by simp [split]
  have own : p.field ∈ p.owner.fields := by simp [fields_eq]
  exact List.flatMap_eq_nil_iff.mp (floats_class plain owner).1 p.field own

/-- The member that a class may gain has no literals either. -/
theorem floats_statics_run (enabled : options.enabled = true) {after : ClassDef}
    (hafter : after ∈ (run options o).outline.classes) :
    after.statics.flatMap StaticDef.floats = [] := by
  have member (name : String) : (Factory.member name).floats = [] := rfl
  have kept : List.Forall₂ (fun c after => after.statics.flatMap StaticDef.floats =
        c.statics.flatMap StaticDef.floats) o.classes (whole options o).classes := by
    refine forall₂_range (Installer.sound_new _) (fun _ => ?_) (fun later sound _ c => ?_) _
    · rfl
    · rw [statics_treated sound rfl, List.flatMap_append]
      cases gains later.fieldName c (options.policy.reached c.fields) <;> simp [member]
  rw [outline_run enabled] at hafter
  obtain ⟨c, hc, same⟩ := exists_of_forall₂ kept after hafter
  exact same.trans (floats_class plain hc).2

/-- The field at a place after a pass has the literals of its fixed value, if the pass got
there. -/
theorem floats_field_run (enabled : options.enabled = true) {p : Place} (hp : p ∈ o.places)
    (found : p.field? (run options o).outline.classes = some field) :
    field.floats = if isReached options.policy p then p.field.fixedFloats else [] := by
  rw [field?_run enabled hp, Option.some.injEq] at found
  rw [← found]
  cases isReached options.policy p with
  | true => exact floats_settle _ (floats_place plain hp)
  | false => exact floats_place plain hp

/-- The literals of an outline after a pass are those that the pass has given. -/
theorem mem_floats_run_iff :
    x ∈ (run options o).outline.floats ↔ x ∈ givenFloats options o := by
  cases enabled : options.enabled with
  | false =>
    rw [run_disabled enabled, givenFloats, if_neg (by simp [enabled])]
    exact iff_of_false (by simp [plain]) nofun
  | true =>
    rw [mem_givenFloats_iff enabled, Outline.floats, List.mem_flatMap]
    constructor
    · rintro ⟨after, hafter, hx⟩
      rw [ClassDef.floats, floats_statics_run plain enabled hafter, List.append_nil,
        List.mem_flatMap] at hx
      obtain ⟨field, hfield, hx⟩ := hx
      obtain ⟨p, hp, found⟩ := exists_place_of_mem_run enabled hafter hfield
      rw [floats_field_run plain enabled hp found] at hx
      cases reached : isReached options.policy p with
      | true => exact ⟨p, hp, reached, by rwa [reached] at hx⟩
      | false =>
        rw [reached] at hx
        cases hx
    · rintro ⟨p, hp, reached, hx⟩
      have found := field?_run enabled hp
      rw [← floats_settle (siteOf options o p) (floats_place plain hp)] at hx
      rw [if_pos reached, Place.field?, Option.bind_eq_some_iff] at found
      obtain ⟨after, hafter, hfield⟩ := found
      refine ⟨after, List.mem_of_getElem? hafter,
        List.mem_append_left _ (List.mem_flatMap.mpr ?_)⟩
      exact ⟨_, List.mem_of_getElem? hfield, hx⟩

end

/-! ### Restored outlines -/

/-- **What becomes of the snapshot of an outline after a pass.** An outline without floating
point literals is restored exactly if those that the pass has given are read back. Only finite
ones are, and there are none if no field of a floating point type has a fixed value. -/
theorem isRestored_run (plain : o.floats = [])
    (depth : (run options o).outline.toJson.depth ≤ 127) :
    ((run options o).outline.IsRestored ↔ ∀ x ∈ givenFloats options o, x.Durable) ∧
    (∀ x ∈ givenFloats options o, x.Durable → ∃ negative rank,
      x.value = .finite negative rank) ∧
    ((∀ p ∈ o.places, p.field.isEligible = true →
        Target.of p.field.type ≠ .singleFloat ∧ Target.of p.field.type ≠ .doubleFloat) →
      (run options o).outline.IsRestored) := by
  have restored : (run options o).outline.IsRestored ↔
      ∀ x ∈ givenFloats options o, x.Durable := by
    refine (readText?_write (Outline.faithful _) depth).trans (forall_congr' fun x => ?_)
    rw [mem_floats_run_iff plain]
  refine ⟨restored, fun _ _ => finite_of_durable,
    fun other_types => restored.mpr fun x hx => ?_⟩
  cases enabled : options.enabled with
  | false =>
    rw [givenFloats, if_neg (by simp [enabled])] at hx
    cases hx
  | true =>
    obtain ⟨p, hp, -, hx⟩ := (mem_givenFloats_iff enabled).mp hx
    rw [fixedFloats_eq_nil (other_types p hp)] at hx
    cases hx

theorem orders_isRestored :
    (run { Options.standard with policy := .skip } orders).outline.IsRestored := by
  have plain : orders.floats = [] := rfl
  have depth :
      (run { Options.standard with policy := .skip } orders).outline.toJson.depth ≤ 127 := by
    decide
  obtain ⟨-, -, restored⟩ := isRestored_run plain depth
  exact restored (by decide)

/-- A class with a limit that is infinite. -/
def measure : Outline where
  classes := [
    { id := ⟨0⟩
      name := "Measure"
      fields := [⟨"limit", .boxed .float, none,
        some (.particle (.once (.element ⟨"limit", some "xs:float", some "INF", none⟩)))⟩]
      statics := [] }]
  enums := []

/-- The limit is written as null, and nothing is restored. -/
theorem restore?_measure :
    measure.floats = [] ∧ measure.toJson.depth ≤ 127 ∧
      (run .standard measure).outline.toJson.depth ≤ 127 ∧
      Outline.restore? (run .standard measure).outline.snapshot = none := by
  refine ⟨rfl, by decide, by decide, ?_⟩
  rw [Outline.restore?, readText?, Outline.snapshot,
    Json.read?_write ((Outline.faithful 0).proper _)]
  refine Option.isNone_iff_eq_none.mp ?_
  decide +kernel

end Pass

end FixedInit
