/-
The layout of a snapshot does not matter.

* `Expr.follows` : expressions are read alike whatever their layout, by induction on the
  levels of their calls;
* `Outline.follows` : and so are outlines with all that they consist of;
* `snapshots_layout_free` : texts that differ in layout only are read alike.

Design notes: a record follows its shape by the list of its fields, in the order of the shape,
and a choice by its cases in the order in which they are tried. What a choice makes of a
content is `map`ped over the reader of it.
-/
import FixedInit.Proofs.JsonLayout

namespace FixedInit

open Json (string? word?)
open Slot.Governs (required nullable)

variable (levels : Nat)

/-! ### Types and expressions -/

theorem Builtin.follows : Follows levels Builtin.shape (Builtin.ofJson? levels) := by
  refine .choice (fun _ => rfl) (List.forall_iff_forall_mem.mpr (List.forall_mem_map.mpr ?_))
  exact fun builtin _ => rfl

theorem TypeRef.follows : Follows levels TypeRef.shape (TypeRef.ofJson? levels) := by
  have builtin := Builtin.follows (levels - 1)
  have text : Follows (levels - 1) .plain string? := .plain
  refine .choice (fun _ => rfl) ⟨?_, ?_, ?_, ?_, ?_⟩
  · exact builtin.map primitive fun _ => rfl
  · exact builtin.map boxed fun _ => rfl
  · exact text.map enumeration fun _ => rfl
  · exact text.map generated fun _ => rfl
  · exact text.map external fun _ => rfl

theorem StaticRef.follows : Follows levels StaticRef.shape (StaticRef.ofJson? levels) :=
  .record (StaticRef.readBy levels) (.cons (required .plain) (.cons (required .plain) .nil))

theorem Expr.constant_follows :
    Follows levels (.record [.required "enum_name" .plain, .required "constant" .plain])
      (Expr.constantOfJson? levels) :=
  .record (Expr.constant_readBy levels)
    (.cons (required .plain) (.cons (required .plain) .nil))

section

variable {levels} (target : Follows (levels - 1) .expression (Expr.ofJson? (levels - 1)))
  (arg : Follows (levels - 1 - 1) .expression (Expr.ofJson? (levels - 1 - 1)))

include arg

theorem Expr.staticCall_follows :
    Follows levels (.record [.required "owner" .plain, .required "method" .plain,
        .required "args" (.list .expression)]) (Expr.staticCallOfJson? levels) :=
  .record (Expr.staticCall_readBy levels)
    (.cons (required .plain) (.cons (required .plain) (.cons (required arg.list) .nil)))

include target

theorem Expr.call_follows :
    Follows levels
      (.record [.required "target" .expression, .required "method" .plain,
        .required "args" (.list .expression)])
      (Expr.callOfJson? levels) :=
  .record (Expr.call_readBy levels)
    (.cons (required target) (.cons (required .plain) (.cons (required arg.list) .nil)))

/-- An expression is one level deeper than its content, and that is one level or two deeper
than the expressions in it. -/
theorem Expr.follows_succ : Follows (levels + 1) Expr.shape (Expr.ofJson? (levels + 1)) := by
  have call : Follows (levels + 1 - 1) _ _ := Expr.call_follows target arg
  have staticCall : Follows (levels + 1 - 1) _ _ := Expr.staticCall_follows arg
  refine .choice (fun _ => rfl) ⟨?_, ?_, ?_, ?_, ?_, ?_, ?_, ?_, ?_, ?_⟩
  · exact Follows.plain.map str fun _ => rfl
  · exact Follows.plain.map bool fun _ => rfl
  · exact Follows.plain.map int fun _ => rfl
  · exact Follows.plain.map long fun _ => rfl
  · exact Follows.plain.map float fun _ => rfl
  · exact Follows.plain.map Expr.double fun _ => rfl
  · exact (Expr.constant_follows _).map (fun names => constant names.1 names.2) fun _ =>
      (map_constantOfJson? _ _).symm
  · exact (StaticRef.follows _).map static fun _ => rfl
  · exact call.map (fun call => invoke call.1 call.2.1 call.2.2) fun _ =>
      (map_callOfJson? _ _).symm
  · exact staticCall.map (fun call => staticInvoke call.1 call.2.1 call.2.2) fun _ =>
      (map_staticCallOfJson? _ _).symm

end

theorem Expr.follows (levels : Nat) : Follows levels Expr.shape (Expr.ofJson? levels) := by
  induction levels using Nat.strongRecOn with
  | _ levels ih =>
    cases levels with
    | zero => exact ⟨fun _ _ _ _ _ => rfl, fun _ _ => rfl⟩
    | succ levels =>
      exact Expr.follows_succ (ih (levels - 1) (by omega)).expression
        (ih (levels - 1 - 1) (by omega)).expression

/-! ### Schema components -/

theorem MaxOccurs.follows : Follows levels MaxOccurs.shape (MaxOccurs.ofJson? levels) := by
  have count : Follows (levels - 1) .plain word? := .plain
  refine .choice (fun _ => rfl) ⟨?_, ?_⟩
  · exact count.map bounded fun _ => rfl
  · rfl

theorem ModelGroup.follows : Follows levels ModelGroup.shape (ModelGroup.ofJson? levels) :=
  .choice (fun _ => rfl) ⟨rfl, rfl, rfl⟩

theorem Element.follows : Follows levels Element.shape (Element.ofJson? levels) :=
  .record (Element.readBy levels)
    (.cons (required .plain) (.cons (nullable .plain) (.cons (nullable .plain)
      (.cons (nullable .plain) .nil))))

theorem Term.wildcard_follows :
    Follows levels (.record [.required "namespace" .plain]) (Term.wildcardOfJson? levels) :=
  .record (Term.wildcard_readBy levels) (.cons (required .plain) .nil)

theorem Term.follows : Follows levels Term.shape (Term.ofJson? levels) := by
  refine .choice (fun _ => rfl) ⟨?_, ?_, ?_⟩
  · exact (Element.follows _).map element fun _ => rfl
  · exact (Term.wildcard_follows _).map wildcard fun _ => (map_wildcardOfJson? _ _).symm
  · exact (ModelGroup.follows _).map group fun _ => rfl

theorem Particle.follows : Follows levels Particle.shape (Particle.ofJson? levels) :=
  .record (Particle.readBy levels)
    (.cons (required .plain)
      (.cons (required (MaxOccurs.follows _)) (.cons (required (Term.follows _)) .nil)))

theorem AttributeUse.follows :
    Follows levels AttributeUse.shape (AttributeUse.ofJson? levels) :=
  .record (AttributeUse.readBy levels)
    (.cons (required .plain) (.cons (required .plain) (.cons (nullable .plain) .nil)))

theorem Component.follows : Follows levels Component.shape (Component.ofJson? levels) := by
  refine .choice (fun _ => rfl) ⟨?_, ?_, ?_⟩
  · exact (Particle.follows _).map particle fun _ => rfl
  · exact (AttributeUse.follows _).map attributeUse fun _ => rfl
  · exact Follows.plain.map groupRef fun _ => rfl

/-! ### Members, classes and outlines -/

theorem Modifiers.follows : Follows levels Modifiers.shape (Modifiers.ofJson? levels) :=
  .record (Modifiers.readBy levels)
    (.cons (required .plain) (.cons (required .plain) (.cons (required .plain) .nil)))

theorem FatalError.follows : Follows levels FatalError.shape (FatalError.ofJson? levels) :=
  .record (FatalError.readBy levels) (.cons (required .plain) (.cons (required .plain) .nil))

theorem StaticInit.follows : Follows levels StaticInit.shape (StaticInit.ofJson? levels) :=
  .record (StaticInit.readBy levels)
    (.cons (required (Expr.follows _).expression)
      (.cons (nullable (FatalError.follows _)) .nil))

theorem StaticDef.follows : Follows levels StaticDef.shape (StaticDef.ofJson? levels) :=
  .record (StaticDef.readBy levels)
    (.cons (required .plain) (.cons (required (TypeRef.follows _))
      (.cons (required (Modifiers.follows _))
        (.cons (nullable (StaticInit.follows _)) .nil))))

theorem FieldDef.follows : Follows levels FieldDef.shape (FieldDef.ofJson? levels) :=
  .record (FieldDef.readBy levels)
    (.cons (required .plain) (.cons (required (TypeRef.follows _))
      (.cons (nullable (Expr.follows _).expression)
        (.cons (nullable (Component.follows _)) .nil))))

theorem ClassDef.follows : Follows levels ClassDef.shape (ClassDef.ofJson? levels) :=
  .record (ClassDef.readBy levels)
    (.cons (required .plain) (.cons (required .plain)
      (.cons (required (FieldDef.follows _).list)
        (.cons (required (StaticDef.follows _).list) .nil))))

theorem EnumConstant.follows :
    Follows levels EnumConstant.shape (EnumConstant.ofJson? levels) :=
  .record (EnumConstant.readBy levels)
    (.cons (required .plain) (.cons (required .plain) .nil))

theorem EnumDef.follows : Follows levels EnumDef.shape (EnumDef.ofJson? levels) :=
  .record (EnumDef.readBy levels)
    (.cons (required .plain) (.cons (required (EnumConstant.follows _).list) .nil))

theorem Outline.follows : Follows levels Outline.shape (Outline.ofJson? levels) :=
  .record (Outline.readBy levels)
    (.cons (required (ClassDef.follows _).list)
      (.cons (required (EnumDef.follows _).list) .nil))

/-! ### Texts -/

/-- A reader of texts for which the layout of the values of a shape does not matter: texts
that nest deep enough to be read, and whose values differ in layout only, give the same part
or none, and a text with a record that has a known key twice gives none. -/
structure LayoutFree {α : Type} (shape : Shape) (ofJson? : Nat → Json → Option α) : Prop where
  agrees : ∀ s t v w, Json.read? s = some v → Json.read? t = some w → v.depth ≤ 127 →
    w.depth ≤ 127 →
    Alike shape v w → readText? ofJson? s = readText? ofJson? t
  refuses : ∀ s v, Json.read? s = some v → Repeats shape v → readText? ofJson? s = none

theorem Follows.layoutFree {α : Type} {shape : Shape} {ofJson? : Nat → Json → Option α}
    (follows : Follows Json.depthLimit shape (ofJson? Json.depthLimit)) :
    LayoutFree shape ofJson? where
  agrees s t v w hv hw shallow shallow' alike := by
    rw [readText?, readText?, hv, hw]
    exact follows.uniform v w alike shallow shallow'
  refuses s v hv repeats := by
    rw [readText?, hv]
    exact follows.strict v repeats

/-- **The layout of a snapshot does not matter.** Outlines, classes, fields, static members,
enumerations, types, schema components and expressions are read alike from texts that differ,
at any depth, in the order of keys, in unknown keys, in fields that are missing or null, in
records that are objects or arrays and in cases that are tags or objects. A record with a
known key twice is never read. -/
theorem snapshots_layout_free :
    LayoutFree Outline.shape Outline.ofJson? ∧
    LayoutFree ClassDef.shape ClassDef.ofJson? ∧
    LayoutFree FieldDef.shape FieldDef.ofJson? ∧
    LayoutFree StaticDef.shape StaticDef.ofJson? ∧
    LayoutFree EnumDef.shape EnumDef.ofJson? ∧
    LayoutFree TypeRef.shape TypeRef.ofJson? ∧
    LayoutFree Component.shape Component.ofJson? ∧
    LayoutFree Expr.shape Expr.ofJson? :=
  ⟨(Outline.follows _).layoutFree, (ClassDef.follows _).layoutFree,
   (FieldDef.follows _).layoutFree, (StaticDef.follows _).layoutFree,
   (EnumDef.follows _).layoutFree, (TypeRef.follows _).layoutFree,
   (Component.follows _).layoutFree, (Expr.follows _).layoutFree⟩

/-- A field in an order of its own, without its nulls, and with an unknown key twice. -/
def looseField : List (String × Json) :=
  [("x", .boolean true), ("ty", .object [("Class", .string "A")]), ("name", .string "a"),
   ("x", .array [])]

/-- The same field as an array. -/
def packedField : List Json :=
  [.string "a", .object [("Class", .string "A")], .null, .null]

theorem loose_field_is_read :
    let field : FieldDef := ⟨"a", .generated "A", none, none⟩
    readText? FieldDef.ofJson? (Json.object looseField).write = some field ∧
      readText? FieldDef.ofJson? (Json.object looseField.reverse).write = some field ∧
      readText? FieldDef.ofJson? (Json.object (("init", .null) :: looseField)).write =
        some field ∧
      readText? FieldDef.ofJson? (Json.object (("name", .string "b") :: looseField)).write =
        none := by
  intro field
  obtain ⟨-, -, fields, -⟩ := snapshots_layout_free
  have loose : (Json.object looseField).Proper :=
    ⟨trivial, ⟨trivial, trivial⟩, trivial, trivial, trivial⟩
  have like_packed : Alike FieldDef.shape (.object looseField) (.array packedField) :=
    .of_array (fun slot => (firstOf looseField slot).getD .null)
      (by simp [valuesOf, firstOf, looseField, Slot.required, Slot.nullable])
  have packed : readText? FieldDef.ofJson? (Json.object looseField).write = some field := by
    have proper : (Json.array packedField).Proper :=
      ⟨trivial, ⟨trivial, trivial⟩, trivial, trivial, trivial⟩
    rw [fields.agrees _ _ _ _ (Json.read?_write loose) (Json.read?_write proper) (by decide)
      (by decide) like_packed, readText?, Json.read?_write proper]
    rfl
  have alike {v : Json} (proper : v.Proper) (shallow : v.depth ≤ 127)
      (alike : Alike FieldDef.shape (.object looseField) v) :
      readText? FieldDef.ofJson? v.write = some field := by
    rw [← packed]
    exact (fields.agrees _ _ _ _ (Json.read?_write loose) (Json.read?_write proper)
        (by decide) shallow alike).symm
  let slots : List (Slot Shape) := [.required "name" .plain, .required "ty" TypeRef.shape,
    .nullable "init" .expression, .nullable "schema_component" Component.shape]
  have name : Slot.required "name" .plain ∈ slots := by simp [slots]
  have init : Slot.nullable "init" .expression ∈ slots := by simp [slots]
  refine ⟨packed, alike ?_ (by decide) ?_, alike ⟨trivial, loose⟩ (by decide) ?_, ?_⟩
  · exact ⟨trivial, trivial, ⟨trivial, trivial⟩, trivial, trivial⟩
  · exact .of_known ((List.reverse_perm looseField).symm.filter _)
  · exact .of_null (by decide) init rfl rfl
  · exact fields.refuses _ _ (Json.read?_write ⟨trivial, loose⟩) (.here name (by decide))

end FixedInit
