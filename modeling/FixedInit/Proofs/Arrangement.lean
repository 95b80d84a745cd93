/-
The order of the classes, and of the fields in each class.

A pass that passes over refused numbers treats each class as it would alone, and settles each
field by what its class offers. So it makes no difference to it in which order they stand.

* `treated_arranged`, `diagnostics_arranged` : a class whose fields were rearranged, after its
  visit;
* `run_arranged` : a pass over a rearranged outline is a pass over the outline, rearranged.

Design notes: an arrangement lists positions, so that an outline and what a pass leaves of it
can be put in the same order. Which calendar value of a class is the first, and gives it the
factory, depends on the order; the class after all of them does not.
-/
import FixedInit.Proofs.ClosedForm
import FixedInit.Proofs.FirstRefusal
import Mathlib.Data.List.Perm.Basic

namespace FixedInit

/-! ### Positions -/

section

variable {α β : Type}

/-- The entries of a list at some positions, in their order. -/
def pick (order : List Nat) (as : List α) : List α :=
  order.filterMap (as[·]?)

theorem pick_range (as : List α) : pick (List.range as.length) as = as := by
  induction as with
  | nil => rfl
  | cons a as ih =>
    rw [pick, List.length_cons, List.range_succ_eq_map, List.filterMap_cons,
      List.filterMap_map]
    exact congrArg (a :: ·) ih

theorem perm_pick {order : List Nat} {as : List α} (h : order.Perm (List.range as.length)) :
    (pick order as).Perm as := by
  have picked := h.filterMap (as[·]?)
  rwa [show (List.range as.length).filterMap (as[·]?) = as from pick_range as] at picked

theorem map_pick (f : α → β) (order : List Nat) (as : List α) :
    (pick order as).map f = pick order (as.map f) := by
  simp only [pick, List.map_filterMap, List.getElem?_map]

end

/-- A class with its fields in another order. -/
def ClassDef.arranged (order : List Nat) (c : ClassDef) : ClassDef :=
  { c with fields := pick order c.fields }

/-- An order of the classes of an outline, and for each class one of its fields, by
position. -/
structure Arrangement where
  classes : List Nat
  fields : Nat → List Nat

/-- An outline whose classes, and the fields of each class, are put in another order. -/
def Outline.arranged (a : Arrangement) (o : Outline) : Outline :=
  { o with
    classes := a.classes.filterMap fun i => o.classes[i]?.map (·.arranged (a.fields i)) }

/-- Whether an arrangement has every class of an outline once, and every field of each class
once. -/
structure Arrangement.Permutes (a : Arrangement) (o : Outline) : Prop where
  classes : a.classes.Perm (List.range o.classes.length)
  fields : ∀ i (h : i < o.classes.length),
    (a.fields i).Perm (List.range o.classes[i].fields.length)

/-! ### The fields of a class -/

/-- An installer does not notice in which order the fields of a class stand. -/
theorem Installer.unnoticed_arranged {order : List Nat} {c : ClassDef}
    (permutes : order.Perm (List.range c.fields.length)) :
    Unnoticed (·.arranged order) c where
  id := rfl
  name := rfl
  field? _ := by
    simp only [ClassDef.field?, List.isSome_find?]
    exact (perm_pick permutes).any_eq
  static? _ := rfl
  addStatic _ := rfl

namespace Pass

section

variable {fieldName : String} {enums : List EnumDef} {order : List Nat} {c : ClassDef}
  (permutes : order.Perm (List.range c.fields.length))

include permutes

theorem Site.of_arranged :
    Site.of enums (.new fieldName) (c.arranged order) = Site.of enums (.new fieldName) c := by
  rw [Site.of, Installer.attempt_edit (Installer.unnoticed_arranged permutes)]
  rfl

theorem gains_arranged :
    gains fieldName (c.arranged order) (c.arranged order).fields =
      gains fieldName c c.fields := by
  rw [gains, gains, Factory.free, Factory.free,
    Installer.hasMember_edit (Installer.unnoticed_arranged permutes)]
  exact congrArg (· && _) (perm_pick permutes).any_eq

theorem treated_arranged :
    treated .skip enums (.new fieldName) (c.arranged order) =
      (treated .skip enums (.new fieldName) c).arranged order := by
  have sound := Installer.sound_new fieldName
  have gained :
      gains (Installer.new fieldName).fieldName (c.arranged order) (c.arranged order).fields =
      gains (Installer.new fieldName).fieldName c c.fields := gains_arranged permutes
  rw [treated_eq sound, treated_eq sound]
  simp only [ErrorPolicy.reached_skip, ErrorPolicy.left_skip, List.append_nil, gained,
    Site.of_arranged permutes]
  rw [ClassDef.arranged, map_pick]
  rfl

theorem diagnostics_arranged :
    (diagnostics (visit .skip enums (.new fieldName) (c.arranged order)).log).Perm
      (diagnostics (visit .skip enums (.new fieldName) c).log) := by
  have sound := Installer.sound_new fieldName
  rw [(visit_accounts sound .skip enums _).diagnostics_eq,
    (visit_accounts sound .skip enums c).diagnostics_eq, ErrorPolicy.reached_skip,
    ErrorPolicy.reached_skip, Site.of_arranged permutes]
  exact (perm_pick permutes).filterMap _

end

/-! ### The whole pass -/

variable {options : Options} {o : Outline} {a : Arrangement}

/-- What each class is made into, with its fields in whatever order, the classes are made into
in any order. -/
theorem map_arranged {f : ClassDef → ClassDef} (o : Outline) (a : Arrangement)
    (h : ∀ i (hi : i < o.classes.length),
      f (o.classes[i].arranged (a.fields i)) = (f o.classes[i]).arranged (a.fields i)) :
    (o.arranged a).classes.map f =
      (Outline.arranged a { o with classes := o.classes.map f }).classes := by
  simp only [Outline.arranged, List.map_filterMap, List.getElem?_map, Option.map_map]
  refine List.filterMap_congr fun i _ => ?_
  by_cases hi : i < o.classes.length
  · rw [List.getElem?_eq_getElem hi]
    exact congrArg some (h i hi)
  · rw [List.getElem?_eq_none (Nat.le_of_not_lt hi)]
    rfl

/-- What is listed for each class, in whatever order of its fields, is listed for the classes
in any order. -/
theorem perm_flatMap_arranged {β : Type} {f : ClassDef → List β} (permutes : a.Permutes o)
    (h : ∀ i (hi : i < o.classes.length),
      (f (o.classes[i].arranged (a.fields i))).Perm (f o.classes[i])) :
    ((o.arranged a).classes.flatMap f).Perm (o.classes.flatMap f) := by
  have picked := (perm_pick permutes.classes).flatMap_right f
  rw [pick, List.filterMap_eq_flatMap_toList, List.flatMap_assoc] at picked
  -- class by class, the fields are put in order before the classes are
  refine .trans ?_ picked
  rw [Outline.arranged, List.filterMap_eq_flatMap_toList, List.flatMap_assoc]
  refine .flatMap_left _ fun i _ => ?_
  by_cases hi : i < o.classes.length
  · simpa [List.getElem?_eq_getElem hi] using h i hi
  · simp [List.getElem?_eq_none (Nat.le_of_not_lt hi)]

theorem distinct_iff_nodup {classes : List ClassDef} :
    (classes.Pairwise fun a b => a.id = b.id → a.name ≠ b.name) ↔
      (classes.map fun c => (c.id, c.name)).Nodup := by
  rw [List.Nodup, List.pairwise_map]
  simp only [ne_eq, Prod.mk.injEq, not_and]

theorem distinct_arranged (permutes : a.Permutes o)
    (distinct : o.classes.Pairwise fun a b => a.id = b.id → a.name ≠ b.name) :
    (o.arranged a).classes.Pairwise fun a b => a.id = b.id → a.name ≠ b.name := by
  rw [distinct_iff_nodup, List.map_eq_flatMap] at distinct ⊢
  have same :=
    perm_flatMap_arranged (f := fun c => [(c.id, c.name)]) permutes fun i hi => .refl _
  exact same.nodup_iff.mpr distinct

/-- A pass that passes over refused numbers treats, and remarks on, each class as it would
alone. -/
theorem whole_skip (policy : options.policy = .skip)
    (distinct : o.classes.Pairwise fun a b => a.id = b.id → a.name ≠ b.name) :
    (whole options o).failure = none ∧
      (whole options o).classes =
        o.classes.map (treated .skip o.enums (.new options.factoryField)) ∧
      diagnostics (whole options o).log =
        o.classes.flatMap fun c =>
          diagnostics (visit .skip o.enums (.new options.factoryField) c).log := by
  have sound := Installer.sound_new options.factoryField
  have complete := failure_skip sound o.enums o.classes
  rw [whole, policy]
  exact ⟨complete, range_apart sound distinct (fun _ _ => rfl) complete⟩

/-- **The order makes no difference.** If no two classes share both their identity and their
name, a pass that passes over refused numbers leaves a rearranged outline as it leaves the
outline itself, rearranged: each field with the same initializer, each class with the same
members. It makes the same remarks, in some order, and has the same result. -/
theorem run_arranged (enabled : options.enabled = true) (policy : options.policy = .skip)
    (distinct : o.classes.Pairwise fun a b => a.id = b.id → a.name ≠ b.name)
    (permutes : a.Permutes o) :
    (run options (o.arranged a)).outline = (run options o).outline.arranged a ∧
      (diagnostics (run options (o.arranged a)).log).Perm (diagnostics (run options o).log) ∧
      (run options (o.arranged a)).result = (run options o).result := by
  obtain ⟨complete, classes, remarks⟩ := whole_skip policy distinct
  obtain ⟨complete', classes', remarks'⟩ :=
    whole_skip policy (distinct_arranged permutes distinct)
  refine ⟨?_, ?_, ?_⟩
  · rw [outline_run enabled, outline_run enabled, classes, classes']
    exact congrArg (Outline.mk · o.enums)
      (map_arranged o a fun i hi => treated_arranged (permutes.fields i hi))
  · rw [diagnostics_run enabled, diagnostics_run enabled, remarks, remarks']
    exact perm_flatMap_arranged permutes fun i hi =>
      diagnostics_arranged (permutes.fields i hi)
  · rw [Outcome.result, Outcome.result, failure_run enabled, failure_run enabled,
      complete, complete']

/-- The arrangement of `orders` from its end to its beginning. -/
def backwards : Arrangement :=
  ⟨[1, 0], fun i => if i = 0 then [2, 1, 0] else [1, 0]⟩

theorem inits_of_orders_backwards :
    (run { Options.standard with policy := .skip }
      (orders.arranged backwards)).outline.classes.map (fun c => c.fields.map (·.init)) =
      [[some (.constant "Unit" "KG"), some (.invoke (.static ⟨"Item", "DATATYPE_FACTORY"⟩)
          "new_xml_gregorian_calendar" [.str "2024-01-01"])],
        [some (.str "none"), none, some (.invoke (.static ⟨"Order", "DATATYPE_FACTORY"⟩)
          "new_xml_gregorian_calendar" [.str "2024-01-01"])]] := by
  have enabled : ({ Options.standard with policy := .skip } : Options).enabled = true := rfl
  have permutes : backwards.Permutes orders := ⟨by decide, by decide⟩
  obtain ⟨rearranged, -, -⟩ := run_arranged enabled rfl (by decide) permutes
  rw [rearranged]
  rfl

end Pass

end FixedInit
