/-
Which constant of a catalog stands for a lexical value.

Enumerations of one name, constants of one name and lexical values may all repeat. The look-up
takes the first constant that has the value, in the first enumeration of the name that has
one.

* `constant?_eq_none_iff` : when there is no such constant;
* `constant?_eq_find?` : the look-up takes the first among all constants of the enumerations
  with the name;
* `constant?_some` : what it gives is a constant of the catalog;
* `isFirst_of_constant?` : the constant that is found stands at the least position;
* `constant?_of_addsOthers` : enumerations of other names make no difference, wherever they
  are added;
* `constant?_grown` : constants behind those of the last enumeration change no answer that was
  found;
* `first_constant` : all of this for one catalog.

Design notes: a position is a pair, that of the enumeration in the catalog and that of the
constant in its enumeration, and positions are compared in this order.
-/
import FixedInit.Model.Outline

namespace FixedInit.Catalog

/-- The constant at a position stands for a lexical value in an enumeration of a name. -/
def StandsAt (enums : List EnumDef) (name value : String) (i j : Nat)
    (constant : EnumConstant) : Prop :=
  ∃ e, enums[i]? = some e ∧ e.name = name ∧ e.constants[j]? = some constant ∧
    constant.lexicalValue = value

/-- The constant at a position is the first one that stands for a lexical value. -/
structure IsFirst (enums : List EnumDef) (name value : String) (i j : Nat)
    (constant : EnumConstant) : Prop where
  stands : StandsAt enums name value i j constant
  least : ∀ k l other, StandsAt enums name value k l other → i < k ∨ i = k ∧ j ≤ l

/-- A catalog is another one with enumerations of other names added, anywhere among its
own. -/
inductive AddsOthers (name : String) : List EnumDef → List EnumDef → Prop
  | nil : AddsOthers name [] []
  | keep (e : EnumDef) {enums wider : List EnumDef} (rest : AddsOthers name enums wider) :
      AddsOthers name (e :: enums) (e :: wider)
  | add (e : EnumDef) {enums wider : List EnumDef} (other : e.name ≠ name)
      (rest : AddsOthers name enums wider) : AddsOthers name enums (e :: wider)

variable {enums : List EnumDef} {name value : String} {expr : Expr}

/-! ### One enumeration after the other -/

theorem constant?_append (front back : List EnumDef) (name value : String) :
    constant? (front ++ back) name value =
      (constant? front name value).or (constant? back name value) :=
  List.findSome?_append

theorem constant?_cons_of_ne {e : EnumDef} (other : e.name ≠ name) (enums : List EnumDef)
    (value : String) :
    constant? (e :: enums) name value = constant? enums name value := by
  rw [constant?, List.findSome?_cons, if_neg other]
  rfl

theorem constant?_singleton_of_eq {e : EnumDef} (named : e.name = name) (value : String) :
    constant? [e] name value =
      (e.constants.find? (·.lexicalValue == value)).map e.constantRef := by
  rw [constant?, List.findSome?_singleton, if_pos named]

theorem constant?_eq_none_iff :
    constant? enums name value = none ↔
      ∀ e ∈ enums, e.name = name → ∀ constant ∈ e.constants,
        constant.lexicalValue ≠ value := by
  simp [constant?, List.findSome?_eq_none_iff]

/-! ### All constants of the enumerations with a name -/

/-- The constants of the enumerations with a name, in the order of the catalog, each with its
enumeration. -/
def constantsOf (enums : List EnumDef) (name : String) : List (EnumDef × EnumConstant) :=
  (enums.filter (·.name = name)).flatMap fun e =>
    e.constants.map fun constant => (e, constant)

theorem constantsOf_cons (e : EnumDef) (enums : List EnumDef) (name : String) :
    constantsOf (e :: enums) name =
      (if e.name = name then e.constants.map fun constant => (e, constant) else []) ++
        constantsOf enums name := by
  rw [constantsOf, List.filter_cons]
  by_cases named : e.name = name
  · rw [if_pos named, if_pos (decide_eq_true named)]
    rfl
  · rw [if_neg named, if_neg (by simpa using named)]
    rfl

theorem constant?_eq_find? (enums : List EnumDef) (name value : String) :
    constant? enums name value =
      ((constantsOf enums name).find? (·.2.lexicalValue == value)).map fun entry =>
        .constant entry.1.name entry.2.name := by
  induction enums with
  | nil => rfl
  | cons e enums ih =>
    rw [constantsOf_cons, List.find?_append, Option.map_or, ← ih, constant?,
      List.findSome?_cons]
    by_cases named : e.name = name
    · have same : (fun entry : EnumDef × EnumConstant => entry.2.lexicalValue == value) ∘
          (fun constant => (e, constant)) = (·.lexicalValue == value) := rfl
      simp only [if_pos named, List.find?_map, same]
      cases e.constants.find? (·.lexicalValue == value) with
      | none => rfl
      | some constant => rfl
    · simp only [if_neg named]
      rfl

theorem constant?_some {enums : List EnumDef} {name value : String} {expr : Expr}
    (h : constant? enums name value = some expr) :
    ∃ e ∈ enums, e.name = name ∧ ∃ constant ∈ e.constants,
      constant.lexicalValue = value ∧ expr = .constant name constant.name := by
  obtain ⟨e, he, found⟩ := List.exists_of_findSome?_eq_some h
  split at found
  · rename_i named
    obtain ⟨constant, hconstant, rfl⟩ := Option.map_eq_some_iff.mp found
    refine ⟨e, he, named, constant, List.mem_of_find?_eq_some hconstant,
      ?_, by rw [← named]; rfl⟩
    simpa using List.find?_some hconstant
  · cases found

/-! ### The least position -/

theorem not_standsAt_of_none {i j : Nat} {constant : EnumConstant}
    (unfound : constant? enums name value = none) :
    ¬ StandsAt enums name value i j constant := by
  rintro ⟨e, he, named, hconstant, stands⟩
  exact constant?_eq_none_iff.mp unfound e (List.mem_of_getElem? he) named constant
    (List.mem_of_getElem? hconstant) stands

/-- What is found is the constant at the least position. -/
theorem isFirst_of_constant? (found : constant? enums name value = some expr) :
    ∃ i j constant, IsFirst enums name value i j constant ∧
      expr = .constant name constant.name := by
  obtain ⟨front, e, back, rfl, here, earlier⟩ := List.findSome?_eq_some_iff.mp found
  split at here
  · rename_i named
    obtain ⟨constant, first, rfl⟩ := Option.map_eq_some_iff.mp here
    obtain ⟨stands, before, after, constants, passed⟩ :=
      List.find?_eq_some_iff_append.mp first
    refine ⟨front.length, before.length, constant,
      ⟨⟨e, ?_, named, ?_, by simpa using stands⟩, ?_⟩, ?_⟩
    · rw [List.getElem?_append_right (Nat.le_refl _), Nat.sub_self, List.getElem?_cons_zero]
    · rw [constants, List.getElem?_append_right (Nat.le_refl _), Nat.sub_self,
        List.getElem?_cons_zero]
    · rintro k l other ⟨d, hd, dnamed, hother, dstands⟩
      rcases Nat.lt_trichotomy k front.length with before_e | rfl | behind_e
      · -- no earlier enumeration of the name has the value
        rw [List.getElem?_append_left before_e] at hd
        have silent := earlier d (List.mem_of_getElem? hd)
        rw [if_pos dnamed, Option.map_eq_none_iff, List.find?_eq_none] at silent
        exact absurd (by simpa using dstands) (silent other (List.mem_of_getElem? hother))
      · refine .inr ⟨rfl, Nat.le_of_not_lt fun shorter => ?_⟩
        -- no earlier constant of this enumeration has the value
        rw [List.getElem?_append_right (Nat.le_refl _), Nat.sub_self,
          List.getElem?_cons_zero] at hd
        cases hd
        rw [constants, List.getElem?_append_left shorter] at hother
        have silent := passed other (List.mem_of_getElem? hother)
        simp [dstands] at silent
      · exact .inl behind_e
    · rw [EnumDef.constantRef, named]
  · cases here

theorem IsFirst.eq {i j k l : Nat} {a b : EnumConstant} (ha : IsFirst enums name value i j a)
    (hb : IsFirst enums name value k l b) : a = b := by
  -- each of the two positions is at most the other
  obtain ⟨rfl, rfl⟩ : i = k ∧ j = l := by
    have := ha.least k l b hb.stands
    have := hb.least i j a ha.stands
    omega
  obtain ⟨e, he, -, hconstant, -⟩ := ha.stands
  obtain ⟨d, hd, -, hother, -⟩ := hb.stands
  cases he.symm.trans hd
  exact Option.some.inj (hconstant.symm.trans hother)

theorem constant?_eq_some_iff_isFirst :
    constant? enums name value = some expr ↔
      ∃ i j constant, IsFirst enums name value i j constant ∧
        expr = .constant name constant.name := by
  refine ⟨isFirst_of_constant?, ?_⟩
  rintro ⟨i, j, constant, first, rfl⟩
  cases found : constant? enums name value with
  | none => exact absurd first.stands (not_standsAt_of_none found)
  | some expr =>
    obtain ⟨k, l, other, other_first, rfl⟩ := isFirst_of_constant? found
    rw [first.eq other_first]

/-! ### Larger catalogs -/

theorem constant?_of_addsOthers {wider : List EnumDef} (adds : AddsOthers name enums wider)
    (value : String) :
    constant? wider name value = constant? enums name value := by
  induction adds with
  | nil => rfl
  | keep e rest ih =>
    rw [← List.singleton_append, constant?_append, ih, ← constant?_append,
      List.singleton_append]
  | add e other rest ih => rw [constant?_cons_of_ne other, ih]

/-- Constants behind those of an enumeration do not change what is found in it. -/
theorem constant?_singleton_grown {e : EnumDef} (found : constant? [e] name value = some expr)
    (more : List EnumConstant) :
    constant? [{ e with constants := e.constants ++ more }] name value = some expr := by
  by_cases named : e.name = name
  · rw [constant?_singleton_of_eq named] at found
    obtain ⟨constant, first, rfl⟩ := Option.map_eq_some_iff.mp found
    rw [constant?_singleton_of_eq (e := { e with constants := e.constants ++ more }) named,
      List.find?_append, first]
    rfl
  · rw [constant?_cons_of_ne named] at found
    cases found

theorem constant?_grown {front : List EnumDef} {last : EnumDef}
    (found : constant? (front ++ [last]) name value = some expr) (more : List EnumConstant) :
    constant? (front ++ [{ last with constants := last.constants ++ more }]) name value =
      some expr := by
  rw [constant?_append] at found ⊢
  cases early : constant? front name value with
  | some other =>
    rw [early] at found
    exact found
  | none =>
    rw [early, Option.none_or] at found
    rw [Option.none_or]
    exact constant?_singleton_grown found more

/-- **The first constant, and nothing else.** There is no answer exactly if no enumeration of
the name has a constant of the lexical value. Otherwise the answer refers to the constant at
the least position. An answer stays when enumerations are appended to the catalog or constants
to its last enumeration; and enumerations of other names make no difference to any answer,
wherever they are added. -/
theorem first_constant (enums : List EnumDef) (name value : String) :
    (constant? enums name value = none ↔
      ∀ e ∈ enums, e.name = name → ∀ constant ∈ e.constants, constant.lexicalValue ≠ value) ∧
    (∀ expr, constant? enums name value = some expr ↔
      ∃ i j constant, IsFirst enums name value i j constant ∧
        expr = .constant name constant.name) ∧
    (∀ expr, constant? enums name value = some expr →
      (∀ more, constant? (enums ++ more) name value = some expr) ∧
      ∀ front last more, enums = front ++ [last] →
        constant? (front ++ [{ last with constants := last.constants ++ more }]) name value =
          some expr) ∧
    ∀ wider, AddsOthers name enums wider →
      constant? wider name value = constant? enums name value := by
  refine ⟨constant?_eq_none_iff, fun expr => constant?_eq_some_iff_isFirst,
    fun expr found => ⟨?_, ?_⟩, ?_⟩
  · exact constant?_append_of_found found
  · rintro front last more rfl
    exact constant?_grown found more
  · exact fun wider adds => constant?_of_addsOthers adds value

/-- Three enumerations, two of one name, and a lexical value that four constants stand for. -/
def measures : List EnumDef :=
  [⟨"Currency", [⟨"LBS", "lb"⟩]⟩, ⟨"Unit", [⟨"KG", "kg"⟩, ⟨"LBS", "lb"⟩, ⟨"POUNDS", "lb"⟩]⟩,
    ⟨"Unit", [⟨"LIBRA", "lb"⟩]⟩]

/-- The second constant of the second enumeration is found, and goes on being found. -/
theorem pounds_of_measures :
    constant? measures "Unit" "lb" = some (.constant "Unit" "LBS") ∧
      (∀ more, constant? (measures ++ more) "Unit" "lb" = some (.constant "Unit" "LBS")) ∧
      ∀ other, other.name ≠ "Unit" →
        constant? (other :: measures) "Unit" "lb" = some (.constant "Unit" "LBS") := by
  have found : constant? measures "Unit" "lb" = some (.constant "Unit" "LBS") := rfl
  obtain ⟨-, -, grown, widened⟩ := first_constant measures "Unit" "lb"
  refine ⟨found, (grown _ found).1, fun other differs => ?_⟩
  have same : AddsOthers "Unit" measures (other :: measures) :=
    .add other differs (.keep _ (.keep _ (.keep _ .nil)))
  rw [widened _ same, found]

end FixedInit.Catalog
