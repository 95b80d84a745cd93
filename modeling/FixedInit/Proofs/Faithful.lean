/-
Every part of the snapshot format is faithful.

Records are faithful by their fields and choices by their contents, for any number of levels.
With each kind of part come the floating point literals in it.

* `Expr.faithful` : expressions are, by induction on the levels that their calls take up;
* `Component.faithful` : so are schema components;
* `Outline.faithful` : and outlines with all that they consist of.
-/
import FixedInit.Proofs.JsonRecord
import FixedInit.Proofs.NumeralText

namespace FixedInit

open Json (object array fields? case? isBare list? required nullable string? boolean? word?)

/-! ### Floating point literals -/

mutual

/-- The floating point literals of an expression. -/
def Expr.floats : Expr → List FloatLiteral
  | .float value => [⟨.single, value⟩]
  | .double value => [⟨.double, value⟩]
  | .invoke target _ args => Expr.floats target ++ Expr.argsFloats args
  | .staticInvoke _ _ args => Expr.argsFloats args
  | _ => []

/-- The floating point literals of arguments. -/
def Expr.argsFloats : List Expr → List FloatLiteral
  | [] => []
  | arg :: args => Expr.floats arg ++ Expr.argsFloats args

end

/-- The floating point literals of a static initializer. -/
def StaticInit.floats (init : StaticInit) : List FloatLiteral :=
  init.value.floats

/-- The floating point literals of a static member. -/
def StaticDef.floats (member : StaticDef) : List FloatLiteral :=
  optionFloats StaticInit.floats member.init

/-- The floating point literals of a field. -/
def FieldDef.floats (field : FieldDef) : List FloatLiteral :=
  optionFloats Expr.floats field.init

/-- The floating point literals of a class. -/
def ClassDef.floats (c : ClassDef) : List FloatLiteral :=
  c.fields.flatMap FieldDef.floats ++ c.statics.flatMap StaticDef.floats

/-- The floating point literals of an outline. -/
def Outline.floats (o : Outline) : List FloatLiteral :=
  o.classes.flatMap ClassDef.floats

variable (levels : Nat)

/-! ### Plain values -/

namespace Faithful

theorem text : Faithful levels Json.string string? noFloats where
  proper _ := trivial
  reads _ _ := iff_of_true rfl nofun
  bounded _ _ _ := Nat.zero_le _

theorem flag : Faithful levels Json.boolean boolean? noFloats where
  proper _ := trivial
  reads _ _ := iff_of_true rfl nofun
  bounded _ _ _ := Nat.zero_le _

theorem word :
    Faithful levels (fun count : UInt32 => Json.ofInt count.toNat) word? noFloats where
  proper _ := Numeral.written_ofInt _
  reads count _ := by
    have small := count.toNat_lt
    have read : Json.int? (Json.ofInt count.toNat) = some (count.toNat : Int) :=
      Numeral.integer?_ofInt (Int.le_trans (by decide) (Int.natCast_nonneg _))
        (Int.lt_trans (Int.ofNat_lt.mpr small) (by decide))
    refine iff_of_true ?_ nofun
    rw [word?, read]
    show (if (0 : Int) ≤ count.toNat ∧ (count.toNat : Int) < UInt32.size then
      some (UInt32.ofNat (count.toNat : Int).toNat) else none) = _
    rw [if_pos ⟨Int.natCast_nonneg _, Int.ofNat_lt.mpr small⟩, Int.toNat_natCast,
      UInt32.ofNat_toNat]
  bounded _ _ _ := Nat.zero_le _

end Faithful

theorem Signed.faithful {bits : Nat} (narrow : bits ≤ 64) :
    Faithful levels (fun n : Signed bits => Json.ofInt n.val) (Signed.ofJson? bits)
      noFloats where
  proper _ := Numeral.written_ofInt _
  reads n _ := by
    have grow : twoPow (bits - 1) ≤ twoPow 63 := twoPow_le_twoPow (by omega)
    have read : Json.int? (Json.ofInt n.val) = some n.val :=
      Numeral.integer?_ofInt (by have := n.lower; omega)
        (Int.lt_trans n.upper (Int.ofNat_lt.mpr (Nat.lt_of_le_of_lt grow (by decide))))
    refine iff_of_true ?_ nofun
    rw [Signed.ofJson?, read]
    exact Signed.ofInt?_eq_some.mpr rfl
  bounded _ _ _ := Nat.zero_le _

/-! ### Types -/

theorem Builtin.faithful :
    Faithful levels Builtin.toJson (Builtin.ofJson? levels) noFloats where
  proper _ := trivial
  reads builtin _ := iff_of_true (Builtin.ofJson?_toJson builtin levels) nofun
  bounded _ _ _ := Nat.zero_le _

theorem TypeRef.faithful :
    Faithful levels TypeRef.toJson (TypeRef.ofJson? levels) noFloats := by
  have builtin := Builtin.faithful (levels - 1)
  have text := Faithful.text (levels - 1)
  refine .variant (fun _ => rfl) (fun _ => rfl) (fun type => ?_)
    (fun tag content type made => ?_)
  · cases type with
    | primitive b =>
      exact builtin.isVariant primitive b (fun _ _ => primitive.inj) rfl rfl rfl
    | boxed b => exact builtin.isVariant boxed b (fun _ _ => boxed.inj) rfl rfl rfl
    | enumeration name =>
      exact text.isVariant enumeration name (fun _ _ => enumeration.inj) rfl rfl rfl
    | generated name =>
      exact text.isVariant generated name (fun _ _ => generated.inj) rfl rfl rfl
    | external name =>
      exact text.isVariant external name (fun _ _ => external.inj) rfl rfl rfl
  · dsimp only [Option.bind_eq_bind, Option.bind_some] at made
    -- one case for each tag, in the order in which they are tried
    split at made
    · exact builtin.isShallow made fun _ => rfl
    · exact builtin.isShallow made fun _ => rfl
    · exact text.isShallow made fun _ => rfl
    · exact text.isShallow made fun _ => rfl
    · exact text.isShallow made fun _ => rfl
    · cases made

/-! ### Expressions -/

theorem Binary.faithful (f : Format) :
    Faithful levels Binary.toJson (Json.binary? f) (fun x => [⟨f, x⟩]) where
  proper x := by
    cases x with
    | finite negative rank => exact Expr.layout.written_finite negative rank
    | _ => trivial
  reads x _ := by
    rw [List.forall_mem_singleton]
    rfl
  bounded _ x _ := by
    cases x <;> exact Nat.zero_le _

theorem StaticRef.faithful :
    Faithful levels StaticRef.toJson (StaticRef.ofJson? levels) noFloats := by
  have text := Faithful.text (levels - 1)
  exact .record
    [.required "owner" text (·.owner), .required "name" text (·.name)]
    (StaticRef.readBy levels) (fun _ => rfl) (fun _ => rfl)

namespace Expr

theorem argsToJson_eq (args : List Expr) : argsToJson args = args.map Expr.toJson := by
  induction args with
  | nil => rfl
  | cons arg args ih => rw [argsToJson, ih, List.map_cons]

theorem argsFloats_eq (args : List Expr) : argsFloats args = args.flatMap Expr.floats := by
  induction args with
  | nil => rfl
  | cons arg args ih => rw [argsFloats, ih, List.flatMap_cons]

end Expr

theorem Expr.constant_faithful :
    Faithful levels
      (fun constant : String × String =>
        object [("enum_name", .string constant.1), ("constant", .string constant.2)])
      (Expr.constantOfJson? levels) noFloats := by
  have text := Faithful.text (levels - 1)
  exact .record
    [.required "enum_name" text (·.1), .required "constant" text (·.2)]
    (Expr.constant_readBy levels) (fun _ => rfl) (fun _ => rfl)

section

variable {levels}
    (target : Faithful (levels - 1) Expr.toJson (Expr.ofJson? (levels - 1)) Expr.floats)
    (arg : Faithful (levels - 1 - 1) Expr.toJson (Expr.ofJson? (levels - 1 - 1)) Expr.floats)

include arg

theorem Expr.staticCall_faithful :
    Faithful levels
      (fun call : String × String × List Expr => object [("owner", .string call.1),
        ("method", .string call.2.1), ("args", .array (Expr.argsToJson call.2.2))])
      (Expr.staticCallOfJson? levels) (fun call => Expr.argsFloats call.2.2) := by
  have text := Faithful.text (levels - 1)
  refine .record [.required "owner" text (·.1), .required "method" text (·.2.1),
    .required "args" arg.list (·.2.2)] (Expr.staticCall_readBy levels)
    (fun call => ?_) (fun call => ?_)
  · rw [Expr.argsToJson_eq]
    rfl
  · simp [Part.required, noFloats, Expr.argsFloats_eq]

include target

theorem Expr.call_faithful :
    Faithful levels
      (fun call : Expr × String × List Expr => object [("target", call.1.toJson),
        ("method", .string call.2.1), ("args", .array (Expr.argsToJson call.2.2))])
      (Expr.callOfJson? levels) (fun call => call.1.floats ++ Expr.argsFloats call.2.2) := by
  refine .record
    [.required "target" target (·.1), .required "method" (Faithful.text (levels - 1)) (·.2.1),
      .required "args" arg.list (·.2.2)]
    (Expr.call_readBy levels) (fun call => ?_) (fun call => ?_)
  · rw [Expr.argsToJson_eq]
    rfl
  · simp [Part.required, noFloats, Expr.argsFloats_eq]

/-- An expression is one level deeper than its content, and that is one level or two deeper
than the expressions in it. -/
theorem Expr.faithful_succ :
    Faithful (levels + 1) Expr.toJson (Expr.ofJson? (levels + 1)) Expr.floats := by
  have text := Faithful.text (levels + 1 - 1)
  have flag := Faithful.flag (levels + 1 - 1)
  have narrow : Faithful (levels + 1 - 1) _ (Signed.ofJson? 32) _ :=
    Signed.faithful _ (by decide)
  have wide : Faithful (levels + 1 - 1) _ (Signed.ofJson? 64) _ :=
    Signed.faithful _ (by decide)
  have single := Binary.faithful (levels + 1 - 1) .single
  have double := Binary.faithful (levels + 1 - 1) .double
  have named := Expr.constant_faithful (levels + 1 - 1)
  have member := StaticRef.faithful (levels + 1 - 1)
  have call : Faithful (levels + 1 - 1) _ _ _ := Expr.call_faithful target arg
  have staticCall : Faithful (levels + 1 - 1) _ _ _ := Expr.staticCall_faithful arg
  refine .variant (fun _ => rfl) (fun _ => rfl) (fun expr => ?_)
    (fun tag content expr made => ?_)
  · cases expr with
    | str s => exact text.isVariant str s (fun _ _ => str.inj) rfl rfl rfl
    | bool b => exact flag.isVariant bool b (fun _ _ => bool.inj) rfl rfl rfl
    | int n => exact narrow.isVariant int n (fun _ _ => int.inj) rfl rfl rfl
    | long n => exact wide.isVariant long n (fun _ _ => long.inj) rfl rfl rfl
    | float x => exact single.isVariant float x (fun _ _ => float.inj) rfl rfl rfl
    | double x =>
      exact double.isVariant Expr.double x (fun _ _ => Expr.double.inj) rfl rfl rfl
    | constant enumeration name =>
      refine named.isVariant (fun names => constant names.1 names.2)
        (enumeration, name) ?_ rfl ?_ rfl
      · rintro ⟨e, a⟩ ⟨f, b⟩ eq
        cases eq
        rfl
      · exact (map_constantOfJson? _ _).symm
    | static ref => exact member.isVariant static ref (fun _ _ => static.inj) rfl rfl rfl
    | invoke target method args =>
      refine call.isVariant (fun call => invoke call.1 call.2.1 call.2.2)
        (target, method, args) ?_ rfl ?_ rfl
      · rintro ⟨s, m, xs⟩ ⟨t, n, ys⟩ eq
        cases eq
        rfl
      · exact (map_callOfJson? _ _).symm
    | staticInvoke owner method args =>
      refine staticCall.isVariant (fun call => staticInvoke call.1 call.2.1 call.2.2)
        (owner, method, args) ?_ rfl ?_ rfl
      · rintro ⟨o, m, xs⟩ ⟨p, n, ys⟩ eq
        cases eq
        rfl
      · exact (map_staticCallOfJson? _ _).symm
  · dsimp only [Option.bind_eq_bind, Option.bind_some] at made
    split at made
    · exact text.isShallow made fun _ => rfl
    · exact flag.isShallow made fun _ => rfl
    · exact narrow.isShallow made fun _ => rfl
    · exact wide.isShallow made fun _ => rfl
    · exact single.isShallow made fun _ => rfl
    · exact double.isShallow made fun _ => rfl
    · exact named.isShallow ((map_constantOfJson? _ _).trans made) fun _ => rfl
    · exact member.isShallow made fun _ => rfl
    · exact call.isShallow ((map_callOfJson? _ _).trans made) fun _ => rfl
    · exact staticCall.isShallow ((map_staticCallOfJson? _ _).trans made) fun _ => rfl
    · cases made

end

mutual

theorem Expr.toJson_proper : ∀ expr : Expr, expr.toJson.Proper
  | .str _ => ⟨trivial, trivial⟩
  | .bool _ => ⟨trivial, trivial⟩
  | .int n => ⟨(Signed.faithful 0 (by decide)).proper n, trivial⟩
  | .long n => ⟨(Signed.faithful 0 (by decide)).proper n, trivial⟩
  | .float x => ⟨(Binary.faithful 0 .single).proper x, trivial⟩
  | .double x => ⟨(Binary.faithful 0 .double).proper x, trivial⟩
  | .constant _ _ => ⟨⟨trivial, trivial, trivial⟩, trivial⟩
  | .static ref => ⟨(StaticRef.faithful 0).proper ref, trivial⟩
  | .invoke target _ args =>
    ⟨⟨Expr.toJson_proper target, trivial, Expr.argsToJson_proper args, trivial⟩, trivial⟩
  | .staticInvoke _ _ args =>
    ⟨⟨trivial, trivial, Expr.argsToJson_proper args, trivial⟩, trivial⟩

theorem Expr.argsToJson_proper : ∀ args : List Expr, Json.ProperItems (Expr.argsToJson args)
  | [] => trivial
  | arg :: args => ⟨Expr.toJson_proper arg, Expr.argsToJson_proper args⟩

end

theorem Expr.faithful_zero : Faithful 0 Expr.toJson (Expr.ofJson? 0) Expr.floats where
  proper := Expr.toJson_proper
  reads expr depth := by cases expr <;> simp [toJson, Json.depth_variant] at depth
  bounded _ _ h := by cases h

/-- An expression is read back, by induction on the levels that its calls take up. -/
theorem Expr.faithful (levels : Nat) :
    Faithful levels Expr.toJson (Expr.ofJson? levels) Expr.floats := by
  induction levels using Nat.strongRecOn with
  | _ levels ih =>
    cases levels with
    | zero => exact Expr.faithful_zero
    | succ levels =>
      exact Expr.faithful_succ (ih (levels - 1) (by omega)) (ih (levels - 1 - 1) (by omega))

/-! ### Schema components -/

theorem MaxOccurs.faithful :
    Faithful levels MaxOccurs.toJson (MaxOccurs.ofJson? levels) noFloats where
  proper most := by
    cases most with
    | bounded count => exact ⟨(Faithful.word 0).proper count, trivial⟩
    | unbounded => trivial
  reads most depth := by
    cases most with
    | bounded count =>
      rw [toJson, Json.depth_variant] at depth
      have opened : case? levels (toJson (bounded count)) =
          some ("Bounded", some (.ofInt count.toNat)) :=
        if_neg (by omega)
      have read := ((Faithful.word 0).reads count (Nat.le_refl 0)).mpr nofun
      refine iff_of_true ?_ nofun
      rw [ofJson?, opened]
      show (word? (.ofInt count.toNat)).map bounded = _
      rw [read, Option.map_some]
    | unbounded => exact iff_of_true rfl nofun
  bounded value most h := by
    obtain ⟨⟨tag, content?⟩, opened, made⟩ := Option.bind_eq_some_iff.mp h
    cases most with
    | unbounded => exact Nat.zero_le _
    | bounded count =>
      simp only at made
      split at made
      · obtain ⟨other, read, -⟩ := Option.map_eq_some_iff.mp made
        obtain ⟨content, rfl, -⟩ := Option.bind_eq_some_iff.mp read
        exact Json.depth_variant_le opened (Nat.zero_le _)
      · split at made <;> cases made
      · cases made

theorem ModelGroup.faithful :
    Faithful levels ModelGroup.toJson (ModelGroup.ofJson? levels) noFloats where
  proper kind := by cases kind <;> trivial
  reads kind _ := by cases kind <;> exact iff_of_true rfl nofun
  bounded _ kind _ := by cases kind <;> exact Nat.zero_le _

theorem Json.ofText?_eq (text : Option String) :
    Json.ofText? text = optionToJson Json.string text := by
  cases text <;> rfl

theorem Element.faithful :
    Faithful levels Element.toJson (Element.ofJson? levels) noFloats := by
  have text := Faithful.text (levels - 1)
  have not_null : ∀ s, Json.string s ≠ .null := nofun
  refine .record
    [.required "name" text (·.name), .nullable "type_name" text not_null (·.typeName),
      .nullable "fixed_value" text not_null (·.fixedValue),
      .nullable "default_value" text not_null (·.defaultValue)]
    (Element.readBy levels) (fun decl => ?_) (fun decl => ?_)
  · simp only [toJson, Json.ofText?_eq]
    rfl
  · simp [Part.required, Part.nullable, optionFloats_noFloats, noFloats]

theorem Term.wildcard_faithful :
    Faithful levels
      (fun scope => object [("namespace", .string scope)]) (Term.wildcardOfJson? levels)
      noFloats := by
  exact .record
    [.required "namespace" (Faithful.text (levels - 1)) id]
    (Term.wildcard_readBy levels) (fun _ => rfl) (fun _ => rfl)

theorem Term.faithful : Faithful levels Term.toJson (Term.ofJson? levels) noFloats := by
  have decl := Element.faithful (levels - 1)
  have scope := Term.wildcard_faithful (levels - 1)
  have kind := ModelGroup.faithful (levels - 1)
  refine .variant (fun _ => rfl) (fun _ => rfl) (fun term => ?_)
    (fun tag content term made => ?_)
  · cases term with
    | element d => exact decl.isVariant element d (fun _ _ => element.inj) rfl rfl rfl
    | wildcard s =>
      exact scope.isVariant wildcard s
        (fun _ _ => wildcard.inj) rfl (map_wildcardOfJson? _ _).symm rfl
    | group k => exact kind.isVariant group k (fun _ _ => group.inj) rfl rfl rfl
  · dsimp only [Option.bind_eq_bind, Option.bind_some] at made
    split at made
    · exact decl.isShallow made fun _ => rfl
    · exact scope.isShallow ((map_wildcardOfJson? _ _).trans made) fun _ => rfl
    · exact kind.isShallow made fun _ => rfl
    · cases made

theorem Particle.faithful :
    Faithful levels Particle.toJson (Particle.ofJson? levels) noFloats := by
  have count := Faithful.word (levels - 1)
  exact .record
    [.required "min_occurs" count (·.minOccurs),
      .required "max_occurs" (MaxOccurs.faithful (levels - 1)) (·.maxOccurs),
      .required "term" (Term.faithful (levels - 1)) (·.term)]
    (Particle.readBy levels) (fun _ => rfl) (fun _ => rfl)

theorem AttributeUse.faithful :
    Faithful levels AttributeUse.toJson (AttributeUse.ofJson? levels) noFloats := by
  have text := Faithful.text (levels - 1)
  refine .record [.required "name" text (·.name),
    .required "required" (Faithful.flag (levels - 1)) (·.isRequired),
    .nullable "fixed_value" text (fun _ => nofun) (·.fixedValue)] (AttributeUse.readBy levels)
    (fun use => ?_) (fun use => ?_)
  · simp only [toJson, Json.ofText?_eq]
    rfl
  · simp [Part.required, Part.nullable, optionFloats_noFloats, noFloats]

theorem Component.faithful :
    Faithful levels Component.toJson (Component.ofJson? levels) noFloats := by
  have occurrence := Particle.faithful (levels - 1)
  have use := AttributeUse.faithful (levels - 1)
  have text := Faithful.text (levels - 1)
  refine .variant (fun _ => rfl) (fun _ => rfl) (fun component => ?_)
    (fun tag content component made => ?_)
  · cases component with
    | particle p =>
      exact occurrence.isVariant particle p (fun _ _ => particle.inj) rfl rfl rfl
    | attributeUse u =>
      exact use.isVariant attributeUse u (fun _ _ => attributeUse.inj) rfl rfl rfl
    | groupRef name =>
      exact text.isVariant groupRef name (fun _ _ => groupRef.inj) rfl rfl rfl
  · dsimp only [Option.bind_eq_bind, Option.bind_some] at made
    split at made
    · exact occurrence.isShallow made fun _ => rfl
    · exact use.isShallow made fun _ => rfl
    · exact text.isShallow made fun _ => rfl
    · cases made

/-! ### Members, classes and outlines -/

theorem Modifiers.faithful :
    Faithful levels Modifiers.toJson (Modifiers.ofJson? levels) noFloats := by
  have flag := Faithful.flag (levels - 1)
  exact .record
    [.required "private" flag (·.isPrivate), .required "is_static" flag (·.isStatic),
      .required "is_final" flag (·.isFinal)]
    (Modifiers.readBy levels) (fun _ => rfl) (fun _ => rfl)

theorem FatalError.faithful :
    Faithful levels FatalError.toJson (FatalError.ofJson? levels) noFloats := by
  have text := Faithful.text (levels - 1)
  exact .record
    [.required "cause_type" text (·.causeType), .required "message" text (·.message)]
    (FatalError.readBy levels) (fun _ => rfl) (fun _ => rfl)

theorem StaticInit.faithful :
    Faithful levels StaticInit.toJson (StaticInit.ofJson? levels) StaticInit.floats := by
  refine .record
    [.required "value" (Expr.faithful (levels - 1)) (·.value),
      .nullable "on_error" (FatalError.faithful (levels - 1)) (fun _ => nofun) (·.onError)]
    (StaticInit.readBy levels) (fun _ => rfl) (fun init => ?_)
  simp [Part.required, Part.nullable, optionFloats_noFloats, StaticInit.floats]

theorem StaticDef.faithful :
    Faithful levels StaticDef.toJson (StaticDef.ofJson? levels) StaticDef.floats := by
  refine .record
    [.required "name" (Faithful.text (levels - 1)) (·.name),
      .required "ty" (TypeRef.faithful (levels - 1)) (·.type),
      .required "modifiers" (Modifiers.faithful (levels - 1)) (·.modifiers),
      .nullable "init" (StaticInit.faithful (levels - 1)) (fun _ => nofun) (·.init)]
    (StaticDef.readBy levels) (fun _ => rfl) (fun member => ?_)
  simp [Part.required, Part.nullable, noFloats, StaticDef.floats]

theorem FieldDef.faithful :
    Faithful levels FieldDef.toJson (FieldDef.ofJson? levels) FieldDef.floats := by
  have expr_not_null : ∀ expr : Expr, expr.toJson ≠ .null :=
    fun expr => by cases expr <;> nofun
  have component_not_null : ∀ component : Component, component.toJson ≠ .null :=
    fun component => by cases component <;> nofun
  refine .record [.required "name" (Faithful.text (levels - 1)) (·.name),
    .required "ty" (TypeRef.faithful (levels - 1)) (·.type),
    .nullable "init" (Expr.faithful (levels - 1)) expr_not_null (·.init),
    .nullable "schema_component" (Component.faithful (levels - 1)) component_not_null
    (·.component)] (FieldDef.readBy levels) (fun _ => rfl) (fun field => ?_)
  simp [Part.required, Part.nullable, optionFloats_noFloats, noFloats, FieldDef.floats]

theorem ClassDef.faithful :
    Faithful levels ClassDef.toJson (ClassDef.ofJson? levels) ClassDef.floats := by
  refine .record
    [.required "id" (Faithful.word (levels - 1)) (·.id.value),
      .required "name" (Faithful.text (levels - 1)) (·.name),
      .required "fields" (FieldDef.faithful (levels - 1 - 1)).list (·.fields),
      .required "statics" (StaticDef.faithful (levels - 1 - 1)).list (·.statics)]
    (ClassDef.readBy levels) (fun _ => rfl) (fun c => ?_)
  simp [Part.required, noFloats, ClassDef.floats]

theorem EnumConstant.faithful :
    Faithful levels EnumConstant.toJson (EnumConstant.ofJson? levels) noFloats := by
  have text := Faithful.text (levels - 1)
  exact .record
    [.required "name" text (·.name), .required "lexical_value" text (·.lexicalValue)]
    (EnumConstant.readBy levels) (fun _ => rfl) (fun _ => rfl)

theorem EnumDef.faithful :
    Faithful levels EnumDef.toJson (EnumDef.ofJson? levels) noFloats := by
  refine .record
    [.required "name" (Faithful.text (levels - 1)) (·.name),
      .required "constants" (EnumConstant.faithful (levels - 1 - 1)).list (·.constants)]
    (EnumDef.readBy levels) (fun _ => rfl) (fun e => ?_)
  simp [Part.required, noFloats]

theorem Outline.faithful :
    Faithful levels Outline.toJson (Outline.ofJson? levels) Outline.floats := by
  refine .record
    [.required "classes" (ClassDef.faithful (levels - 1 - 1)).list (·.classes),
      .required "enums" (EnumDef.faithful (levels - 1 - 1)).list (·.enums)]
    (Outline.readBy levels) (fun _ => rfl) (fun o => ?_)
  simp [Part.required, noFloats, Outline.floats]

end FixedInit
