/-
Parts that are read back from what is written for them.

A part is `Faithful` if what is written for it is proper JSON, is read back wherever its depth
admits it, and is never nested deeper than what it was read from. The last is what makes
rewriting safe: an array may stand for a record and an object for a string, and the forms that
are written are no deeper.

* `fields?_written` : the fields of a written record;
* `Faithful.record` : a record of faithful fields is faithful;
* `Faithful.variant` : so is a choice between faithful contents;
* `Faithful.list` : and a list of faithful items.

Design notes: all that may be lost is a floating point number. Each part comes with the
literals of such numbers in it, and is read back exactly if all of them are. Faithfulness is
stated for one number of levels at a time, so that an induction on the levels reaches the
parts of expressions that are expressions again.
-/
import FixedInit.Proofs.JsonText
import FixedInit.Proofs.Pairing
import FixedInit.Proofs.SnapshotRecords

namespace FixedInit

open Json
  (object array string fields? case? isBare list? required nullable string? boolean? word?)

namespace Json

/-! ### Items and members -/

theorem depthItems_le_iff {items : List Json} {n : Nat} :
    depthItems items ≤ n ↔ ∀ item ∈ items, item.depth ≤ n := by
  induction items with
  | nil => exact iff_of_true (Nat.zero_le n) nofun
  | cons item items ih => rw [depthItems, Nat.max_le, ih, List.forall_mem_cons]

theorem depthMembers_le_iff {members : List (String × Json)} {n : Nat} :
    depthMembers members ≤ n ↔ ∀ member ∈ members, member.2.depth ≤ n := by
  induction members with
  | nil => exact iff_of_true (Nat.zero_le n) nofun
  | cons member members ih => rw [depthMembers, Nat.max_le, ih, List.forall_mem_cons]

theorem properItems_iff {items : List Json} :
    ProperItems items ↔ ∀ item ∈ items, item.Proper := by
  induction items with
  | nil => exact iff_of_true trivial nofun
  | cons item items ih => rw [ProperItems, ih, List.forall_mem_cons]

theorem properMembers_iff {members : List (String × Json)} :
    ProperMembers members ↔ ∀ member ∈ members, member.2.Proper := by
  induction members with
  | nil => exact iff_of_true trivial nofun
  | cons member members ih => rw [ProperMembers, ih, List.forall_mem_cons]

/-! ### Records -/

theorem only?_of_distinct {members : List (String × Json)}
    (distinct : (members.map (·.1)).Nodup) {name : String} {value : Json}
    (h : (name, value) ∈ members) :
    only? members name = some (some value) := by
  have alone : members.filter (·.1 == name) = [(name, value)] := by
    induction members with
    | nil => cases h
    | cons member members ih =>
      obtain ⟨fresh, distinct⟩ := List.nodup_cons.mp distinct
      cases h with
      | head =>
        have elsewhere : members.filter (·.1 == name) = [] := by
          refine List.filter_eq_nil_iff.mpr fun other hother named => fresh ?_
          exact List.mem_map.mpr ⟨other, hother, eq_of_beq named⟩
        rw [List.filter_cons_of_pos (by simp), elsewhere]
      | tail _ h =>
        have differs : member.1 ≠ name := by
          rintro rfl
          exact fresh (List.mem_map.mpr ⟨_, h, rfl⟩)
        rw [List.filter_cons_of_neg (by simpa using differs), ih distinct h]
  rw [only?, alone]

/-- The fields of a written record. -/
theorem fields?_written {levels : Nat} {members : List (String × Json)}
    (some_level : 0 < levels) (distinct : (members.map (·.1)).Nodup) :
    fields? levels (members.map (·.1)) (object members) =
      some (members.map fun member => some member.2) := by
  rw [fields?, if_neg (Nat.ne_of_gt some_level), mapM_eq_some_iff, List.forall₂_map_left_iff,
    List.forall₂_map_right_iff, List.forall₂_same]
  exact fun member hmember => only?_of_distinct distinct hmember

theorem depth_variant (tag : String) (content : Json) :
    (object [(tag, content)]).depth = content.depth + 1 := by
  simp [depth, depthMembers]

/-- The content of a variant, if it has one, is one level deeper. -/
theorem depth_variant_le {levels : Nat} {value content written : Json} {tag tag' : String}
    (h : case? levels value = some (tag, some content))
    (shallow : written.depth ≤ levels - 1) :
    (object [(tag', written)]).depth ≤ levels := by
  rw [depth_variant]
  refine Nat.add_le_of_le_sub ?_ shallow
  unfold case? at h
  split at h
  · cases h
  · split at h
    · cases h
    · rename_i some_level
      exact Nat.pos_of_ne_zero some_level
  · cases h

theorem nullable_of_not_null {α : Type} {read : Json → Option α} {value : Json}
    (h : value ≠ null) :
    nullable read (some value) = (read value).map some := by
  cases value with
  | null => exact absurd rfl h
  | _ => rfl

theorem nullable_eq_some_some {α : Type} {read : Json → Option α} {field : Option Json}
    {a : α} (h : nullable read field = some (some a)) : ∃ value, read value = some a := by
  unfold nullable at h
  split at h
  · cases h
  · cases h
  · rename_i value _
    obtain ⟨b, read, eq⟩ := Option.map_eq_some_iff.mp h
    cases eq
    exact ⟨value, read⟩

end Json

/-- A literal of a floating point number. -/
structure FloatLiteral where
  format : Format
  value : Binary format

/-- Whether a literal is read back from what is written for it. -/
def FloatLiteral.Durable (x : FloatLiteral) : Prop :=
  Json.binary? x.format x.value.toJson = some x.value

/-- A writer of parts and a reader with some levels left to open, and the floating point
literals of a part. -/
structure Faithful {α : Type} (levels : Nat) (toJson : α → Json) (read : Json → Option α)
    (floats : α → List FloatLiteral) : Prop where
  proper : ∀ a, (toJson a).Proper
  reads : ∀ a, (toJson a).depth ≤ levels →
    (read (toJson a) = some a ↔ ∀ x ∈ floats a, x.Durable)
  bounded : ∀ value a, read value = some a → (toJson a).depth ≤ levels

/-- No floating point literals. -/
def noFloats {α : Type} (_ : α) : List FloatLiteral := []

/-- The floating point literals of an optional part. -/
def optionFloats {α : Type} (floats : α → List FloatLiteral) : Option α → List FloatLiteral
  | none => []
  | some a => floats a

theorem optionFloats_noFloats {α : Type} (part : Option α) :
    optionFloats noFloats part = [] := by
  cases part <;> rfl

/-- What is written for a part is a variant, and the part is chosen for its case and content
if the numbers in the content are read back. -/
def IsVariant {α : Type} (levels : Nat) (toJson : α → Json)
    (choose : String × Option Json → Option α) (floats : α → List FloatLiteral)
    (a : α) : Prop :=
  ∃ tag content, toJson a = object [(tag, content)] ∧ content.Proper ∧
    (content.depth ≤ levels - 1 →
      (choose (tag, some content) = some a ↔ ∀ x ∈ floats a, x.Durable))

/-- What is written for a part is a variant that leaves room for the level that it opens. -/
def IsShallow (levels : Nat) (written : Json) : Prop :=
  ∃ tag content, written = object [(tag, content)] ∧ content.depth ≤ levels - 1

/-! ### Fields -/

/-- A field of the records of a kind that is written as well, with the floating point literals
in it. -/
structure Part (levels : Nat) (α : Type) extends Reading α where
  toJson : α → Json
  floats : α → List FloatLiteral
  proper : ∀ a, (toJson a).Proper
  reads : ∀ a, (toJson a).depth ≤ levels →
    (Reads (some (toJson a)) a ↔ ∀ x ∈ floats a, x.Durable)
  bounded : ∀ field a, Reads field a → (toJson a).depth ≤ levels

namespace Part

variable {levels : Nat} {α β : Type} {toJson : β → Json} {read : Json → Option β}
  {floats : β → List FloatLiteral}

/-- A field that must be there. -/
def required (name : String) (faithful : Faithful levels toJson read floats) (get : α → β) :
    Part levels α where
  toReading := .required name read get
  toJson a := toJson (get a)
  floats a := floats (get a)
  proper a := faithful.proper (get a)
  reads a depth := faithful.reads (get a) depth
  bounded field a h := by
    obtain ⟨value, -, read⟩ := Option.bind_eq_some_iff.mp h
    exact faithful.bounded value (get a) read

/-- A field that may be missing or null. -/
def nullable (name : String) (faithful : Faithful levels toJson read floats)
    (not_null : ∀ b, toJson b ≠ .null) (get : α → Option β) : Part levels α where
  toReading := .nullable name read get
  toJson a := optionToJson toJson (get a)
  floats a := optionFloats floats (get a)
  proper a := by
    cases get a with
    | none => trivial
    | some b => exact faithful.proper b
  reads a depth := by
    show Json.nullable read (some (optionToJson toJson (get a))) = some (get a) ↔ _
    cases held : get a with
    | none => exact iff_of_true rfl nofun
    | some b =>
      rw [held] at depth
      show Json.nullable read (some (toJson b)) = some (some b) ↔ ∀ x ∈ floats b, x.Durable
      rw [Json.nullable_of_not_null (not_null b), ← faithful.reads b depth,
        Option.map_eq_some_iff]
      simp
  bounded field a h := by
    change Json.nullable read field = some (get a) at h
    cases held : get a with
    | none => exact Nat.zero_le _
    | some b =>
      rw [held] at h
      obtain ⟨value, read⟩ := Json.nullable_eq_some_some h
      exact faithful.bounded value b read

end Part

namespace Faithful

variable {levels : Nat} {α : Type} {toJson : α → Json} {read : Json → Option α}
  {floats : α → List FloatLiteral}

/-- A record is faithful if each of its fields is. -/
theorem record (parts : List (Part (levels - 1) α))
    (readBy : ReadBy levels (parts.map (·.toReading)) read)
    (written : ∀ a, toJson a = object (parts.map fun part => (part.name, part.toJson a)))
    (floats_eq : ∀ a, floats a = parts.flatMap (·.floats a)) :
    Faithful levels toJson read floats where
  proper a := by
    rw [written]
    show Json.ProperMembers _
    rw [Json.properMembers_iff, List.forall_mem_map]
    exact fun part _ => part.proper a
  reads a depth := by
    have named : (parts.map fun part => (part.name, part.toJson a)).map (·.1) =
        (parts.map (·.toReading)).map (·.name) := by
      rw [List.map_map, List.map_map]
      rfl
    rw [written] at depth ⊢
    rw [Json.depth, Nat.add_one_le_iff] at depth
    have shallow := Json.depthMembers_le_iff.mp (Nat.le_sub_one_of_lt depth)
    rw [List.forall_mem_map] at shallow
    have opened := Json.fields?_written (Nat.zero_lt_of_lt depth) (named ▸ readBy.distinct)
    rw [named] at opened
    rw [readBy.eq_some_iff, opened]
    simp only [Option.some_inj, exists_eq_left', List.forall₂_map_left_iff,
      List.forall₂_map_right_iff, List.forall₂_same, floats_eq, List.forall_mem_flatMap]
    exact forall₂_congr fun part hpart => part.reads a (shallow part hpart)
  bounded value a h := by
    obtain ⟨fields, opened, read⟩ := (readBy.eq_some_iff value a).mp h
    rw [List.forall₂_map_left_iff] at read
    rw [written, Json.depth]
    refine Nat.add_le_of_le_sub (Json.fields?_some opened).1 (Json.depthMembers_le_iff.mpr ?_)
    rw [List.forall_mem_map]
    intro part hpart
    obtain ⟨field, -, read⟩ := exists_of_forall₂ read.flip part hpart
    exact part.bounded field a read

/-- A choice is faithful if what is written for it are variants for which it is chosen, and
what is chosen nests no deeper than the content that it was chosen for. -/
theorem variant {choose : String × Option Json → Option α}
    (read_eq : ∀ value, read value = (case? levels value).bind choose)
    (bare : ∀ tag, choose (tag, none) = none)
    (written : ∀ a, IsVariant levels toJson choose floats a)
    (shallow :
      ∀ tag content a, choose (tag, some content) = some a → IsShallow levels (toJson a)) :
    Faithful levels toJson read floats where
  proper a := by
    obtain ⟨tag, content, eq, proper, -⟩ := written a
    rw [eq]
    exact ⟨proper, trivial⟩
  reads a depth := by
    obtain ⟨tag, content, eq, -, chosen⟩ := written a
    rw [eq, Json.depth_variant, Nat.add_one_le_iff] at depth
    have opened : case? levels (toJson a) = some (tag, some content) := by
      rw [eq]
      exact if_neg (Nat.ne_of_gt (Nat.zero_lt_of_lt depth))
    rw [read_eq, opened, Option.bind_some]
    exact chosen (Nat.le_sub_one_of_lt depth)
  bounded value a h := by
    rw [read_eq] at h
    obtain ⟨⟨tag, content?⟩, opened, chosen⟩ := Option.bind_eq_some_iff.mp h
    cases content? with
    | none =>
      rw [bare] at chosen
      cases chosen
    | some content =>
      obtain ⟨tag', written, eq, depth⟩ := shallow tag content a chosen
      rw [eq]
      exact Json.depth_variant_le opened depth

section

variable {β : Type} {toJson' : β → Json} {tag : String}

/-- A part is a variant as the content of a larger one. -/
theorem isVariant {choose : String × Option Json → Option β} {floats' : β → List FloatLiteral}
    (faithful : Faithful (levels - 1) toJson read floats) (mk : α → β)
    (a : α) (injective : ∀ a b, mk a = mk b → a = b)
    (written : toJson' (mk a) = object [(tag, toJson a)])
    (chosen : choose (tag, some (toJson a)) = (read (toJson a)).map mk)
    (floats_eq : floats' (mk a) = floats a) :
    IsVariant levels toJson' choose floats' (mk a) := by
  refine ⟨tag, toJson a, written, faithful.proper a, fun shallow => ?_⟩
  rw [chosen, floats_eq, ← faithful.reads a shallow, Option.map_eq_some_iff]
  constructor
  · rintro ⟨b, read, eq⟩
    rw [read, injective b a eq]
  · exact fun read => ⟨a, read, rfl⟩

theorem isShallow (faithful : Faithful (levels - 1) toJson read floats) {mk : α → β}
    {content : Json} {b : β} (made : (read content).map mk = some b)
    (written : ∀ a, toJson' (mk a) = object [(tag, toJson a)]) :
    IsShallow levels (toJson' b) := by
  obtain ⟨a, read, rfl⟩ := Option.map_eq_some_iff.mp made
  exact ⟨tag, toJson a, written a, faithful.bounded content a read⟩

end

/-- A list is faithful if its items are, one level deeper. -/
theorem list {ofJson? : Nat → Json → Option α}
    (faithful : Faithful (levels - 1) toJson (ofJson? (levels - 1)) floats) :
    Faithful levels (fun as : List α => array (as.map toJson)) (list? ofJson? levels)
      (fun as => as.flatMap floats) where
  proper as := by
    show Json.ProperItems _
    rw [Json.properItems_iff, List.forall_mem_map]
    exact fun a _ => faithful.proper a
  reads as depth := by
    rw [Json.depth, Nat.add_one_le_iff] at depth
    have shallow := Json.depthItems_le_iff.mp (Nat.le_sub_one_of_lt depth)
    rw [List.forall_mem_map] at shallow
    obtain ⟨levels, rfl⟩ :=
      Nat.exists_eq_succ_of_ne_zero (Nat.ne_of_gt (Nat.zero_lt_of_lt depth))
    show (as.map toJson).mapM (ofJson? levels) = some as ↔ _
    rw [Json.mapM_eq_some_iff, List.forall₂_map_left_iff, List.forall₂_same,
      List.forall_mem_flatMap]
    exact forall₂_congr fun a ha => faithful.reads a (shallow a ha)
  bounded value as h := by
    unfold list? at h
    split at h
    · refine Nat.succ_le_succ (Json.depthItems_le_iff.mpr ?_)
      rw [List.forall_mem_map]
      intro a ha
      obtain ⟨item, -, read⟩ := exists_of_forall₂ (Json.mapM_eq_some_iff.mp h) a ha
      exact faithful.bounded item a read
    · cases h

end Faithful

end FixedInit
