/-
The round trip of snapshots.

* `readText?_write` : a written part is read back exactly if its floating point literals are;
* `readText?_rewrite` : so is a part that was read, however its text was written;
* `snapshots_round_trip` : outlines and their parts without such literals survive.

Design notes: what is read may be an array for a record or an object for a string, and may
leave out fields that are null. Rewriting it is safe because no part is written deeper than it
was read.
-/
import FixedInit.Proofs.Faithful

namespace FixedInit

variable {α : Type} {toJson : α → Json} {ofJson? : Nat → Json → Option α}
  {floats : α → List FloatLiteral} {a : α} {text : String}

/-- The text of a part as it is written once it was read. -/
def reserialize? (toJson : α → Json) (ofJson? : Nat → Json → Option α) (text : String) :
    Option String :=
  (readText? ofJson? text).map fun a => (toJson a).write

section

variable (faithful : Faithful Json.depthLimit toJson (ofJson? Json.depthLimit) floats)

include faithful

theorem readText?_write (depth : (toJson a).depth ≤ Json.depthLimit) :
    readText? ofJson? (toJson a).write = some a ↔ ∀ x ∈ floats a, x.Durable := by
  rw [readText?, Json.read?_write (faithful.proper a), Option.bind_some]
  exact faithful.reads a depth

/-- What was read is written no deeper, and so it is read again. -/
theorem readText?_rewrite (h : readText? ofJson? text = some a) :
    readText? ofJson? (toJson a).write = some a ↔ ∀ x ∈ floats a, x.Durable := by
  obtain ⟨value, -, read⟩ := Option.bind_eq_some_iff.mp h
  exact readText?_write faithful (faithful.bounded value a read)

end

/-- A part without floating point literals that nests deep enough to be read is read back from
its text. One that was read from any text is read back from its own, which is then rewritten
as it stands. -/
structure RoundTrips (toJson : α → Json) (ofJson? : Nat → Json → Option α)
    (floats : α → List FloatLiteral) : Prop where
  restores : ∀ a, floats a = [] → (toJson a).depth ≤ 127 →
    readText? ofJson? (toJson a).write = some a
  settles : ∀ text a, readText? ofJson? text = some a → floats a = [] →
    readText? ofJson? (toJson a).write = some a
  idempotent : ∀ text a, readText? ofJson? text = some a → floats a = [] →
    (reserialize? toJson ofJson? text).bind (reserialize? toJson ofJson?) =
      reserialize? toJson ofJson? text

theorem Faithful.roundTrips
    (faithful : Faithful Json.depthLimit toJson (ofJson? Json.depthLimit) floats) :
    RoundTrips toJson ofJson? floats where
  restores a plain depth := (readText?_write faithful depth).mpr (by simp [plain])
  settles text a h plain := (readText?_rewrite faithful h).mpr (by simp [plain])
  idempotent text a h plain := by
    have again := (readText?_rewrite faithful h).mpr (by simp [plain])
    rw [reserialize?, h, Option.map_some, Option.bind_some, reserialize?, again,
      Option.map_some]

/-- **Snapshots make the round trip.** Outlines, classes, fields, static members,
enumerations, types, schema components and expressions are read back from what is written for
them, if they have no floating point literals and nest no deeper than is read. What was read
from any text is written so that it is read again. -/
theorem snapshots_round_trip :
    RoundTrips Outline.toJson Outline.ofJson? Outline.floats ∧
    RoundTrips ClassDef.toJson ClassDef.ofJson? ClassDef.floats ∧
    RoundTrips FieldDef.toJson FieldDef.ofJson? FieldDef.floats ∧
    RoundTrips StaticDef.toJson StaticDef.ofJson? StaticDef.floats ∧
    RoundTrips EnumDef.toJson EnumDef.ofJson? noFloats ∧
    RoundTrips TypeRef.toJson TypeRef.ofJson? noFloats ∧
    RoundTrips Component.toJson Component.ofJson? noFloats ∧
    RoundTrips Expr.toJson Expr.ofJson? Expr.floats :=
  ⟨(Outline.faithful _).roundTrips, (ClassDef.faithful _).roundTrips,
   (FieldDef.faithful _).roundTrips, (StaticDef.faithful _).roundTrips,
   (EnumDef.faithful _).roundTrips, (TypeRef.faithful _).roundTrips,
   (Component.faithful _).roundTrips, (Expr.faithful _).roundTrips⟩

/-- A call in a call, on text that needs every kind of escape. -/
theorem call_round_trips :
    let expr : Expr :=
      .invoke (.staticInvoke "Text" "of" [.str "\"\\\n\x01é😀", .int .zero]) "trim" []
    readText? Expr.ofJson? expr.toJson.write = some expr := by
  obtain ⟨-, -, -, -, -, -, -, exprs⟩ := snapshots_round_trip
  exact exprs.restores _ rfl (by decide)

end FixedInit
